import Glossary.World.Things

/-!
# Named things

On a stage the things of a world go by names, and so do foreign things, of which nothing is
known but that they cannot have layers: a `HostObject` without `translation_support`.  A name
refers to one thing at a time.  Asking for a thing by name can be refused; the refusal carries the
name.
-/

namespace Glossary

/-- What a name refers to. -/
inductive Binding where
  /-- A thing of the world. -/
  | thing (r : Ref)
  /-- A foreign thing. -/
  | foreign
deriving DecidableEq

/-- Why a request cannot be carried out. -/
inductive Refusal where
  /-- The name refers to nothing. -/
  | unknown (name : String)
  /-- The name refers to a foreign thing where an object is needed. -/
  | foreign (name : String)
  /-- The name does not refer to a hosted thing where one is needed. -/
  | notHosted (name : String)
  /-- The name does not refer to a plain thing where one is needed. -/
  | notPlain (name : String)
deriving DecidableEq

namespace Refusal

/-- The name that was asked for. -/
def name : Refusal → String
  | unknown name => name
  | foreign name => name
  | notHosted name => name
  | notPlain name => name

end Refusal

/-- How a new thing is made. -/
inductive Recipe where
  /-- A plain thing that delegates to the plain thing with a name, or to nothing. -/
  | plain (parent : Option String)
  /-- A hosted thing. -/
  | hosted (id : UInt64) (parent : Option String) (leased carries : Bool)
  /-- A foreign thing. -/
  | foreign
deriving DecidableEq

/-- A world with names for its things. -/
structure Stage where
  /-- The things. -/
  world : World
  /-- What the names refer to. -/
  names : List (String × Binding)
deriving DecidableEq

namespace Stage

/-- A stage without things. -/
def empty : Stage := ⟨.empty, []⟩

/-- What a name refers to.  A name that is left out refers to nothing. -/
def binding (s : Stage) (name : Option String) : Except Refusal Binding :=
  match name with
  | none => .error (.unknown "")
  | some n =>
    match s.names.lookup n with
    | some b => .ok b
    | none => .error (.unknown n)

/-- The object that a name refers to. -/
def object (s : Stage) (name : Option String) : Except Refusal (Ref × Thing) :=
  match s.binding name with
  | .error e => .error e
  | .ok .foreign => .error (.foreign (name.getD ""))
  | .ok (.thing r) =>
    match s.world.thing? r with
    | some t => .ok (r, t)
    | none => .error (.unknown (name.getD ""))

/-- The object that a name refers to, if there is a name. -/
def object? (s : Stage) (name : Option String) : Except Refusal (Option Ref) :=
  match name with
  | none => .ok none
  | some n => (s.object (some n)).map fun (r, _) => some r

/-- The hosted thing that a name refers to. -/
def hosted (s : Stage) (name : Option String) : Except Refusal (Ref × Thing) :=
  match s.object name with
  | .error (.foreign n) => .error (.notHosted n)
  | .error e => .error e
  | .ok (r, t) => if t.isPlain then .error (.notHosted (name.getD "")) else .ok (r, t)

/-- The plain thing that a name refers to. -/
def plain (s : Stage) (name : Option String) : Except Refusal (Ref × Thing) :=
  match s.object name with
  | .error (.foreign n) => .error (.notPlain n)
  | .error e => .error e
  | .ok (r, t) => if t.isPlain then .ok (r, t) else .error (.notPlain (name.getD ""))

/-- The plain thing that a name refers to, if there is a name. -/
def plain? (s : Stage) (name : Option String) : Except Refusal (Option Ref) :=
  match name with
  | none => .ok none
  | some n => (s.plain (some n)).map fun (r, _) => some r

/-- The delegation chain of the object that a name refers to. -/
def chain (s : Stage) (name : Option String) : Except Refusal Chain := do
  let (r, t) ← s.object name
  return (s.world.chain? r).getD ⟨t.link r, []⟩

/-- Takes a name away from what it refers to. -/
def forget (s : Stage) (name : String) : Stage :=
  let names := s.names.filter (·.1 ≠ name)
  match s.names.lookup name with
  | some (.thing r) => ⟨s.world.unname r, names⟩
  | _ => ⟨s.world, names⟩

/-- Gives a name to something, which takes it away from what it referred to before. -/
def bind (s : Stage) (name : String) (b : Binding) : Stage :=
  let s := s.forget name
  { s with names := (name, b) :: s.names }

/-- Makes a thing and gives it a name.  The result is its identity, if it is an object. -/
def make (s : Stage) (name : String) (recipe : Recipe) :
    Except Refusal (Stage × Option ObjectId) := do
  let r := s.world.things.size
  match recipe with
  | .foreign => return (s.bind name .foreign, none)
  | .plain parent =>
    let p ← s.plain? parent
    let s' : Stage := { s with world := s.world.makePlain p }
    return (s'.bind name (.thing r), some (.minted s.world.minted))
  | .hosted id parent leased carries =>
    let p ← s.object? parent
    let s' : Stage := { s with world := s.world.makeHosted id p leased carries }
    return (s'.bind name (.thing r), some (.given id))

/-- Lets a hosted thing delegate to another object, or to nothing. -/
def setParent (s : Stage) (name parent : Option String) : Except Refusal Stage := do
  let p ← s.object? parent
  let (r, _) ← s.hosted name
  return { s with world := s.world.setParent r p }

/-- Ends the lease of a hosted thing, and tells whether it was running. -/
def expire (s : Stage) (name : Option String) : Except Refusal (Stage × Bool) := do
  let (r, t) ← s.hosted name
  return ({ s with world := s.world.endLease r }, t.alive? = some true)

/-- Gives up a name, and the lease of a hosted thing with it.  The result tells whether the
thing is living after that, if its life can end at all. -/
def drop (s : Stage) (name : Option String) : Except Refusal (Stage × Option Bool) := do
  let s' := s.forget (name.getD "")
  match ← s.binding name with
  | .foreign => return (s', none)
  | .thing r =>
    let w := s'.world.endLease r
    return ({ s' with world := w }, (w.thing? r).bind (·.alive?))

/-- Whether the object that a name refers to is living, if its life can end at all. -/
def alive (s : Stage) (name : Option String) : Except Refusal (Option Bool) := do
  let (_, t) ← s.object name
  return t.alive?

/-- What can be said about what a name refers to. -/
structure Profile where
  /-- Its identity. -/
  id : Option ObjectId
  /-- The identity of what it delegates to. -/
  parent : Option ObjectId
  /-- Its identity, if it shows that it can have layers. -/
  carrier : Option ObjectId
  /-- The identity of what it delegates to, if it is plain. -/
  prototype : Option ObjectId
deriving DecidableEq

/-- What can be said about what a name refers to. -/
def profile (s : Stage) (name : Option String) : Except Refusal Profile := do
  match ← s.binding name with
  | .foreign => return ⟨none, none, none, none⟩
  | .thing _ =>
    let (_, t) ← s.object name
    let parent := (t.parent.bind s.world.thing?).map (·.id)
    return ⟨some t.id, parent, if t.carries then some t.id else none,
      if t.isPlain then parent else none⟩

end Stage

end Glossary
