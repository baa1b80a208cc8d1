import Glossary.Layer.Graft

/-!
# The things of a world

Objects live in a world that decides how long they can be reached and what they delegate to.
There are two natures.  A plain thing delegates to a fixed older plain thing and lives as long
as something refers to it: a name, a hosted thing, or a living plain thing that delegates to
it.  A hosted thing has an identity from outside, may be told to delegate to anything at any
time, and lives as long as its lease, or for good if it has none.

A thing is referred to by its number, and the lease of a thing has the same number.

Things are the objects that a host gives to the registry.  A plain thing is a `PlainObject`, and a
hosted thing is any other object with `SupportsTranslation`.
-/

namespace Glossary

/-- The number of a thing. -/
abbrev Ref := Nat

/-- The state of the lease of a hosted thing. -/
inductive Tenure where
  /-- There is no lease: the thing is there for good. -/
  | permanent
  /-- The lease is running. -/
  | running
  /-- The lease has ended. -/
  | ended
deriving DecidableEq

/-- What decides how long a thing lives. -/
inductive Nature where
  /-- A plain thing: whether it has a name, whether a hosted thing refers to it, and how many
  living plain things delegate to it. -/
  | plain (named held : Bool) (heirs : Nat)
  /-- A hosted thing: its lease, and whether it shows others that it can have layers. -/
  | hosted (tenure : Tenure) (carries : Bool)
deriving DecidableEq

/-- An object of a world. -/
structure Thing where
  /-- Its identity. -/
  id : ObjectId
  /-- What it delegates to. -/
  parent : Option Ref
  /-- What decides how long it lives. -/
  nature : Nature
deriving DecidableEq

namespace Thing

/-- Whether a thing is plain. -/
def isPlain (t : Thing) : Bool :=
  match t.nature with
  | .plain _ _ _ => true
  | .hosted _ _ => false

/-- Whether a thing is still living, if that can end at all. -/
def alive? (t : Thing) : Option Bool :=
  match t.nature with
  | .plain named held heirs => some (named || held || 0 < heirs)
  | .hosted .permanent _ => none
  | .hosted .running _ => some true
  | .hosted .ended _ => some false

/-- Whether a thing shows others that it can have layers. -/
def carries (t : Thing) : Bool :=
  match t.nature with
  | .plain _ _ _ => true
  | .hosted _ carries => carries

/-- The thing as a link of a delegation chain, under its number. -/
def link (t : Thing) (r : Ref) : Link := ⟨t.id, t.alive?.map fun _ => r⟩

end Thing

/-- All things, and the number of identities that were minted for plain ones. -/
structure World where
  /-- The things by their numbers. -/
  things : Array Thing
  /-- How many plain things were made. -/
  minted : Nat
deriving DecidableEq

namespace World

/-- A world without things. -/
def empty : World := ⟨#[], 0⟩

/-- The thing with a number. -/
def thing? (w : World) (r : Ref) : Option Thing := w.things[r]?

/-- Whether the lease with a number has ended. -/
def ended (w : World) (r : Lease) : Bool := (w.thing? r).any fun t => t.alive? = some false

/-- Changes the nature of a thing. -/
def revise (w : World) (r : Ref) (f : Nature → Nature) : World :=
  { w with things := w.things.modify r fun t => { t with nature := f t.nature } }

/-- At most so many things that a thing delegates to, directly and indirectly. -/
def aboveUpTo (w : World) : Nat → Thing → List Link
  | 0, _ => []
  | n + 1, t =>
    match t.parent with
    | none => []
    | some p =>
      match w.thing? p with
      | none => []
      | some u => u.link p :: w.aboveUpTo n u

/-- The delegation chain of a thing.  It is followed as far as there are things, so a chain that
comes back to itself is followed through at least one repeated identity. -/
def chain? (w : World) (r : Ref) : Option Chain :=
  (w.thing? r).map fun t => ⟨t.link r, w.aboveUpTo w.things.size t⟩

/-- Takes away one living thing that delegates to a plain thing.  If the plain thing dies of
that, what it delegates to loses it in turn. -/
def loseHeir (w : World) (r : Ref) : World :=
  match w.thing? r with
  | some ⟨_, parent, .plain named held heirs⟩ =>
    let w := w.revise r fun _ => .plain named held (heirs - 1)
    if named || held || 1 < heirs then w
    else
      match parent with
      | some p => if p < r then w.loseHeir p else w
      | none => w
  | _ => w
termination_by r

/-- Takes away the name of a thing.  A plain thing may die of that. -/
def unname (w : World) (r : Ref) : World :=
  match w.thing? r with
  | some ⟨_, parent, .plain true held heirs⟩ =>
    let w := w.revise r fun _ => .plain false held heirs
    if held || 0 < heirs then w
    else
      match parent with
      | some p => w.loseHeir p
      | none => w
  | _ => w

/-- Ends the lease of a hosted thing. -/
def endLease (w : World) (r : Ref) : World :=
  w.revise r fun
    | .hosted .running carries => .hosted .ended carries
    | n => n

/-- A plain thing that a hosted thing refers to is held for good. -/
def hold (w : World) (r : Option Ref) : World :=
  match r with
  | none => w
  | some r => w.revise r fun
    | .plain named _ heirs => .plain named true heirs
    | n => n

/-- Makes a named plain thing that delegates to another plain thing, or to nothing. -/
def makePlain (w : World) (parent : Option Ref) : World :=
  let w := match parent with
    | none => w
    | some p => w.revise p fun
      | .plain named held heirs => .plain named held (heirs + 1)
      | n => n
  ⟨w.things.push ⟨.minted w.minted, parent, .plain true false 0⟩, w.minted + 1⟩

/-- Makes a hosted thing. -/
def makeHosted (w : World) (id : UInt64) (parent : Option Ref) (leased carries : Bool) :
    World :=
  let w := w.hold parent
  let nature := .hosted (if leased then .running else .permanent) carries
  { w with things := w.things.push ⟨.given id, parent, nature⟩ }

/-- Lets a hosted thing delegate to something else. -/
def setParent (w : World) (r : Ref) (parent : Option Ref) : World :=
  let w := w.hold parent
  { w with things := w.things.modify r fun t => { t with parent } }

end World

end Glossary
