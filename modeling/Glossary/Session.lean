import Glossary.Lexicon.Substitute
import Glossary.Session.Request

/-!
# Sessions

A session is a lexicon together with a stage of named things.  It carries out one request
after another.  A request that is refused changes nothing.
-/

namespace Glossary

/-- A lexicon and the things whose names it glosses. -/
structure Session where
  /-- The named things. -/
  stage : Stage
  /-- The lexicon. -/
  lexicon : Lexicon
deriving DecidableEq

namespace Stage

/-- The object that a path of a standard entry stands for. -/
def target? (s : Stage) (path : String) : Option Chain := (s.chain (some path)).toOption

/-- What a name is used on, when it is used on the thing with another name. -/
def receiver (s : Stage) (direction : Direction) (name : Option String) :
    Except Refusal Receiver :=
  if direction = .forward ∧ name = none then .ok .absent
  else do
    match ← s.binding name with
    | .foreign => return .foreign
    | .thing _ =>
      let (_, t) ← s.object name
      if t.carries then return .carrier (← s.chain name) else return .foreign

end Stage

namespace Session

/-- A session in which nothing was asked yet. -/
def start (stage : Stage) (root : ObjectId) (aliases : AliasTable) : Outcome Session Answer :=
  let o := Lexicon.start root aliases
  ⟨⟨stage, o.state⟩, .nothing, o.events⟩

/-- A session that starts with the aliases of settings. -/
def ofSettings (stage : Stage) (root : ObjectId) (s : Settings) :
    Except (List Defect) (Outcome Session Answer) := do
  let o ← Lexicon.ofSettings root s
  return ⟨⟨stage, o.state⟩, .nothing, o.events⟩

/-- A session that starts with the aliases and the standard entries of settings. -/
def launch (stage : Stage) (root : ObjectId) (s : Settings) :
    Except (List Defect) (Outcome Session Answer) := do
  let o ← Lexicon.launch root s stage.world.ended stage.target?
  return ⟨⟨stage, o.state⟩, .report o.result, o.events⟩

/-- The outcome of an operation on the lexicon of a session. -/
def lift {α : Type} (s : Session) (answer : α → Answer) (o : Outcome Lexicon α) :
    Outcome Session Answer :=
  ⟨{ s with lexicon := o.state }, answer o.result, o.events⟩

/-- The outcome of a request that changes no more than the stage. -/
def onStage (s : Session) (stage : Stage) (answer : Answer) : Outcome Session Answer :=
  ⟨{ s with stage }, answer, []⟩

/-- The outcome of a request that changes nothing. -/
def reading (s : Session) (answer : Answer) (events : List Event) : Outcome Session Answer :=
  ⟨s, answer, events⟩

/-- Carries out a request. -/
def step (s : Session) : Request → Except Refusal (Outcome Session Answer)
  | .make name recipe => do
    let (stage, id) ← s.stage.make name recipe
    return s.onStage stage (.ofOption (fun o => .text o.label) id)
  | .setParent object parent => do
    return s.onStage (← s.stage.setParent object parent) .nothing
  | .expire object => do
    let (stage, b) ← s.stage.expire object
    return s.onStage stage (.flag b)
  | .drop object => do
    let (stage, b) ← s.stage.drop object
    return s.onStage stage (.ofOption .flag b)
  | .alive object => do
    return s.reading (.ofOption .flag (← s.stage.alive object)) []
  | .profile object => do
    return s.reading (.profile (← s.stage.profile object)) []
  | .add object language source target => do
    let c ← s.stage.chain object
    return s.lift .text (s.lexicon.add s.stage.world.ended c language source target)
  | .remove object language source => do
    let c ← s.stage.chain object
    return s.lift (.ofOption .text) (s.lexicon.remove s.stage.world.ended c language source)
  | .find direction object language name => do
    let c ← s.stage.chain object
    return s.lift (.ofOption .text)
      (s.lexicon.find s.stage.world.ended direction c language name)
  | .substitute direction object language name => do
    let r ← s.stage.receiver direction object
    let (value, events) := s.lexicon.substitute direction r language name
    return s.reading (.text value) events
  | .canonical language => return s.reading (.text (s.lexicon.canonical language)) []
  | .ensure object => do
    let c ← s.stage.chain object
    return s.lift .layer (s.lexicon.ensure s.stage.world.ended c)
  | .layerOf object => do
    let (_, t) ← s.stage.object object
    return s.reading (.ofOption .layer (s.lexicon.tree.layerOf? t.id)) []
  | .nearest object => do
    let c ← s.stage.chain object
    return s.reading (.layer (s.lexicon.tree.nearest c)) []
  | .own layer key => return s.reading (.ofOption .text (s.lexicon.tree.own? layer key)) []
  | .resolve layer key =>
    let r := s.lexicon.tree.resolve? layer key
    return s.reading (.ofOption (fun r => .text r.value) r)
      (LayerTree.resolveEvents layer key r)
  | .preload entries =>
    return s.lift .report (s.lexicon.preload s.stage.world.ended s.stage.target? entries)
  | .listing => return s.reading (.rows s.lexicon.tree.listing) []

end Session

end Glossary
