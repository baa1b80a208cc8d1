import Glossary.Identity
import Glossary.Key

/-!
# Events

Every operation reports what it did as a list of events, in the order in which things
happened.  An event is a value; `level`, `message` and `fields` say how it is shown.  The messages
are those of the registry's own trace.
-/

namespace Glossary

/-- How important an event is. -/
inductive Level where
  /-- Something is probably wrong. -/
  | warn
  /-- Something changed. -/
  | debug
  /-- Something was looked up. -/
  | trace
deriving DecidableEq

/-- The word for a level. -/
def Level.word : Level → String
  | warn => "WARN"
  | debug => "DEBUG"
  | trace => "TRACE"

/-- The value of a field of an event. -/
inductive FieldValue where
  /-- A text. -/
  | text (s : String)
  /-- A count. -/
  | count (n : Nat)
deriving DecidableEq

/-- Something that happened. -/
inductive Event where
  /-- A lexicon was made for a root object, with so many aliases. -/
  | started (root : ObjectId) (aliases : Nat)
  /-- Usable settings were read, with so many aliases and standard entries. -/
  | settingsRead (aliases standard : Nat)
  /-- An object received a new layer on top of another one. -/
  | grafted (object : ObjectId) (layer parent : LayerId)
  /-- The delegation chain of an object comes back to an identity that it passed before. -/
  | cycle (object : ObjectId)
  /-- Layers were removed, and so many are left. -/
  | pruned (reclaimed live : Nat)
  /-- A pair gave way to a new pair with the same target. -/
  | displaced (object : ObjectId) (language evicted target : String)
  /-- A pair was added. -/
  | paired (object : ObjectId) (language source target : String)
  /-- A pair was removed. -/
  | unpaired (object : ObjectId) (language source target : String)
  /-- A key was looked up from one layer and found in another. -/
  | resolved (key : Key) (start owner : LayerId)
  /-- A key was asked of something that has no layers. -/
  | foreign (key : Key)
  /-- A standard entry names an object that nobody knows. -/
  | unknownTarget (path : String)
  /-- Standard entries were put in place. -/
  | preloaded (installed unresolved : Nat)
deriving DecidableEq

namespace Event

/-- How important an event is. -/
def level : Event → Level
  | cycle _ => .warn
  | unknownTarget _ => .warn
  | resolved _ _ _ => .trace
  | foreign _ => .trace
  | _ => .debug

/-- What an event says. -/
def message : Event → String
  | started _ _ => "Creating translation registry"
  | settingsRead _ _ => "Settings parsed successfully"
  | grafted _ _ _ => "Attached translation store"
  | cycle _ => "Delegation cycle detected, anchoring at root store"
  | pruned _ _ => "Swept translation stores of dropped objects"
  | displaced _ _ _ _ => "Replacing translation that targeted the same name"
  | paired _ _ _ _ => "Added translation"
  | unpaired _ _ _ _ => "Deleted translation"
  | resolved _ _ _ => "Resolved translation entry"
  | foreign _ => "Object cannot carry translations, using name as-is"
  | unknownTarget _ => "Unknown translation target, skipping"
  | preloaded _ _ => "Installed standard translations"

/-- The named values of an event. -/
def fields : Event → List (String × FieldValue)
  | started root aliases => [("root", .text root.text), ("aliases", .count aliases)]
  | settingsRead aliases standard =>
    [("aliases", .count aliases), ("translations", .count standard)]
  | grafted object layer parent =>
    [("object", .text object.text), ("store", .text (LayerId.text layer)),
     ("parent", .text (LayerId.text parent))]
  | cycle object => [("object", .text object.text)]
  | pruned reclaimed live => [("reclaimed", .count reclaimed), ("live", .count live)]
  | displaced object language evicted target =>
    [("object", .text object.text), ("language", .text language), ("evicted", .text evicted),
     ("to", .text target)]
  | paired object language source target =>
    [("object", .text object.text), ("language", .text language), ("from", .text source),
     ("to", .text target)]
  | unpaired object language source target =>
    [("object", .text object.text), ("language", .text language), ("from", .text source),
     ("to", .text target)]
  | resolved key start owner =>
    [("key", .text key.text), ("store", .text (LayerId.text start)),
     ("owner", .text (LayerId.text owner))]
  | foreign key => [("key", .text key.text)]
  | unknownTarget path => [("object_path", .text path)]
  | preloaded installed unresolved =>
    [("installed", .count installed), ("unresolved", .count unresolved)]

end Event

/-- What an operation leaves behind: the state after it, its result, and what it reports. -/
structure Outcome (σ α : Type) where
  /-- The state after the operation. -/
  state : σ
  /-- The result of the operation. -/
  result : α
  /-- What happened, in order. -/
  events : List Event

end Glossary
