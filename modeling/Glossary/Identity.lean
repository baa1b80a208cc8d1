/-!
# Identities

The library describes a registry of translations, `TranslationRegistry`, and the stores in which
it keeps them.  Where the registry has words of its own, the head of a module gives them in code
font, beside the words that are used here.

Three kinds of names are used throughout.  An `ObjectId` is the identity of an object whose
names are glossed; the library never owns the object, it only remembers identities.  A
`LayerId` (`StoreId`) numbers the layers of a layer tree in the order of their creation.  A
`Lease` (what `liveness` gives) names the period during which an object can still be reached;
what a lease means, and when it has ended, is decided by the surrounding world.

Layers and minted identities are counted in natural numbers.  The registry counts them in machine
words (`next_id`, `NEXT_OBJECT_ID`), which overflow only after more layers or objects than any run
can make; that is out of reach and left out.
-/

namespace Glossary

/-- The identity of an object: either minted here, one serial number after another, or given
from outside as a machine word. -/
inductive ObjectId where
  /-- The object with this serial number, counted from zero. -/
  | minted (serial : Nat)
  /-- An object identified by a word that the outside chose. -/
  | given (raw : UInt64)
deriving DecidableEq

namespace ObjectId

/-- The bare text of an identity: `p3` for the fourth minted one, `42` for a given one. -/
def label : ObjectId → String
  | minted serial => "p" ++ toString serial
  | given raw => toString raw.toNat

/-- The text of an identity in messages. -/
def text (o : ObjectId) : String := "#" ++ o.label

/-- The value of a run of decimal digits, or nothing if there is none or another character
stands in it. -/
def decimal? : List Char → Option Nat
  | [] => none
  | cs =>
    if cs.all Char.isDigit then some (cs.foldl (fun n c => 10 * n + (c.toNat - '0'.toNat)) 0)
    else none

/-- Reads a word from its decimal digits, which a plus sign may precede.  A number that does
not fit a word is refused. -/
def word? (s : String) : Option UInt64 := do
  let digits := match s.toList with
    | '+' :: rest => rest
    | cs => cs
  let n ← decimal? digits
  if n < UInt64.size then some (UInt64.ofNat n) else none

/-- The given words in increasing order, each once. -/
def distinct (ids : List UInt64) : List UInt64 :=
  ids.foldl (fun acc i => acc.takeWhile (· < i) ++ i :: acc.dropWhile (· ≤ i)) []

end ObjectId

/-- The number of a layer.  Layers are numbered in the order of creation and a number is never
used twice. -/
abbrev LayerId := Nat

namespace LayerId

/-- The layer at which every fallback ends. -/
def root : LayerId := 0

/-- The text of a layer number in messages. -/
def text (i : LayerId) : String := "StoreId(" ++ toString i ++ ")"

end LayerId

/-- The period during which an object can be reached. -/
abbrev Lease := Nat

end Glossary
