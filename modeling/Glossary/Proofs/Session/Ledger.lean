import Glossary.Proofs.Lexicon.Tables
import Glossary.Session

/-!
# The ledger of a session

A ledger answers the requests of a session from tables, one for each object and language, which are
all empty at first.  It knows nothing of layers: adding and removing change one table, and looking
up a name, in whatever way, changes none.  About layers, and about what came of putting standard
entries in place, a ledger has nothing to say.

A run of requests is `Orderly` if nothing is told to delegate to something else, hosted things are
made with identities that are not in use, and no object is asked about whose chain holds a hosted
thing with a lease that has ended, unless it is beyond the root object.  Of plain things nothing is
asked.
-/

namespace Glossary

/-- The named things, and the tables of their names. -/
structure Ledger where
  /-- The named things. -/
  stage : Stage
  /-- The tables. -/
  tables : Tables

namespace Ledger

variable (root : ObjectId) (aliases : AliasTable)

/-- The ledger in which nothing was written yet. -/
def start (stage : Stage) : Ledger := ⟨stage, .empty⟩

/-- Puts a standard entry into the tables, if its object is known. -/
def install (stage : Stage) (T : Tables) (e : StandardEntry) : Tables :=
  match stage.target? e.target with
  | some c => T.add c.self.id (aliases.canonical e.language) e.localized e.canonical
  | none => T

/-- Carries out a request.  The answer is left out where a ledger has nothing to say. -/
def step (x : Ledger) : Request → Except Refusal (Ledger × Option Answer)
  | .make name recipe => do
    let (stage, id) ← x.stage.make name recipe
    return ({ x with stage }, some (.ofOption (fun o => .text o.label) id))
  | .setParent object parent => do
    return ({ x with stage := ← x.stage.setParent object parent }, some .nothing)
  | .expire object => do
    let (stage, b) ← x.stage.expire object
    return ({ x with stage }, some (.flag b))
  | .drop object => do
    let (stage, b) ← x.stage.drop object
    return ({ x with stage }, some (.ofOption .flag b))
  | .alive object => do
    return (x, some (.ofOption .flag (← x.stage.alive object)))
  | .profile object => do
    return (x, some (.profile (← x.stage.profile object)))
  | .add object language source target => do
    let c ← x.stage.chain object
    let tables := x.tables.add c.self.id (aliases.canonical language) source target
    return ({ x with tables }, some (.text target))
  | .remove object language source => do
    let c ← x.stage.chain object
    let tables := x.tables.remove c.self.id (aliases.canonical language) source
    let target := x.tables.get? c.self.id (aliases.canonical language) .forward source
    return ({ x with tables }, some (.ofOption .text target))
  | .find direction object language name => do
    let c ← x.stage.chain object
    let value := x.tables.find? (aliases.canonical language) root c.links direction name
    return (x, some (.ofOption .text value))
  | .substitute direction object language name => do
    match ← x.stage.receiver direction object with
    | .carrier c =>
      let value := x.tables.substitute (aliases.canonical language) root c.links direction name
      return (x, some (.text value))
    | _ => return (x, some (.text name))
  | .canonical language => return (x, some (.text (aliases.canonical language)))
  | .ensure object => do
    let _ ← x.stage.chain object
    return (x, none)
  | .layerOf object => do
    let _ ← x.stage.object object
    return (x, none)
  | .nearest object => do
    let _ ← x.stage.chain object
    return (x, none)
  | .own _ _ => return (x, none)
  | .resolve _ _ => return (x, none)
  | .preload entries =>
    return ({ x with tables := entries.foldl (install aliases x.stage) x.tables }, none)
  | .listing => return (x, none)

/-- What comes back from each request of a run.  A request that is refused changes nothing. -/
def replies (x : Ledger) : List Request → List (Except Refusal (Option Answer))
  | [] => []
  | q :: rest =>
    match x.step root aliases q with
    | .error e => .error e :: x.replies rest
    | .ok (y, a) => .ok a :: y.replies rest

end Ledger

namespace Session

/-- What comes back from each request of a run.  A request that is refused changes nothing. -/
def replies (s : Session) : List Request → List (Except Refusal Answer)
  | [] => []
  | q :: rest =>
    match s.step q with
    | .error e => .error e :: s.replies rest
    | .ok o => .ok o.result :: o.state.replies rest

end Session

/-- A reply of a session is what the ledger says, where it says anything. -/
inductive Confirms : Except Refusal (Option Answer) → Except Refusal Answer → Prop
  /-- Both refuse, for the same reason. -/
  | refused (e : Refusal) : Confirms (.error e) (.error e)
  /-- The ledger has nothing to say. -/
  | silent (a : Answer) : Confirms (.ok none) (.ok a)
  /-- Both give the same answer. -/
  | said (a : Answer) : Confirms (.ok (some a)) (.ok a)

/-! ## Orderly runs -/

namespace Request

/-- Whether a thing is told to delegate to something else. -/
def redirects : Request → Bool
  | setParent _ _ => true
  | _ => false

/-- The identity that is given to a new hosted thing. -/
def given? : Request → Option ObjectId
  | make _ (.hosted id _ _ _) => some (.given id)
  | _ => none

/-- The names of the objects whose chains are followed. -/
def walked : Request → List (Option String)
  | add object _ _ _ => [object]
  | remove object _ _ => [object]
  | find _ object _ _ => [object]
  | substitute _ object _ _ => [object]
  | ensure object => [object]
  | nearest object => [object]
  | preload entries => entries.map fun e => some e.target
  | _ => []

end Request

/-- Whether an identity comes from outside. -/
def ObjectId.isGiven : ObjectId → Bool
  | minted _ => false
  | given _ => true

namespace Stage

/-- No hosted thing whose lease has ended is on the chain of a named object before the root
object. -/
def Runs (s : Stage) (root : ObjectId) (name : Option String) : Prop :=
  ∀ c ∈ (s.chain name).toOption, ∀ y ∈ Tables.before root c.links, y.id.isGiven = true →
    y.lease.any s.world.ended = false

instance decidableRuns (s : Stage) (root : ObjectId) (name : Option String) :
    Decidable (s.Runs root name) :=
  inferInstanceAs (Decidable (∀ _ ∈ _, _))

/-- A request leaves delegation as it is, makes no identity twice, and follows no chain on which a
hosted thing has ended. -/
structure Permits (s : Stage) (root : ObjectId) (q : Request) : Prop where
  /-- Nothing is told to delegate to something else. -/
  settled : q.redirects = false
  /-- A hosted thing is made with an identity that is not in use. -/
  new : ∀ t ∈ s.world.things, q.given? ≠ some t.id
  /-- No hosted thing has ended on a chain that is followed. -/
  running : ∀ name ∈ q.walked, s.Runs root name

instance decidablePermits (s : Stage) (root : ObjectId) (q : Request) :
    Decidable (s.Permits root q) :=
  decidable_of_iff (q.redirects = false ∧ (∀ t ∈ s.world.things, q.given? ≠ some t.id) ∧
      ∀ name ∈ q.walked, s.Runs root name)
    ⟨fun h => ⟨h.1, h.2.1, h.2.2⟩, fun h => ⟨h.settled, h.new, h.running⟩⟩

/-- The stage after a request.  A request that is refused changes nothing. -/
def next (s : Stage) : Request → Stage
  | .make name recipe => ((s.make name recipe).toOption.map (·.1)).getD s
  | .setParent object parent => (s.setParent object parent).toOption.getD s
  | .expire object => ((s.expire object).toOption.map (·.1)).getD s
  | .drop object => ((s.drop object).toOption.map (·.1)).getD s
  | _ => s

/-- Every request of a run is permitted when its turn comes. -/
def Orderly (root : ObjectId) (s : Stage) : List Request → Prop
  | [] => True
  | q :: rest => s.Permits root q ∧ (s.next q).Orderly root rest

instance decidableOrderly (root : ObjectId) :
    (s : Stage) → (requests : List Request) → Decidable (s.Orderly root requests)
  | _, [] => .isTrue trivial
  | s, q :: rest =>
    have := decidableOrderly root (s.next q) rest
    inferInstanceAs (Decidable (_ ∧ _))

-- a hosted thing holds what it delegates to, so this may lose its name, until the lease ends
example :
    let before : List Request := [.make "top" (.plain none), .make "shape" (.plain (some "top")),
      .make "tile" (.hosted 7 (some "shape") true true), .drop (some "shape"),
      .add (some "tile") "de" "los" "go"]
    empty.Orderly (.minted 0) before ∧
      ¬ empty.Orderly (.minted 0) (before ++ [.expire (some "tile"), .ensure (some "tile")]) := by
  decide +kernel

end Stage

end Glossary
