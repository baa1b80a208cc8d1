/-!
# Keys

An entry says how one name is rendered in one language, in one of two directions: from the
localized name to the canonical one, or back.  A `Key` (`StoreKey`) is the address of an entry.
-/

namespace Glossary

/-- The direction of an entry. -/
inductive Direction where
  /-- From the localized name to the canonical one. -/
  | forward
  /-- From the canonical name to the localized one. -/
  | reverse
deriving DecidableEq

namespace Direction

/-- The word for a direction. -/
def word : Direction → String
  | forward => "forward"
  | reverse => "reverse"

/-- The direction with a given word. -/
def ofWord? (w : String) : Option Direction :=
  if w = forward.word then some forward
  else if w = reverse.word then some reverse
  else none

/-- The mark between language and name in the text of a key. -/
def arrow : Direction → String
  | forward => "->"
  | reverse => "<-"

/-- The other direction. -/
def opposite : Direction → Direction
  | forward => reverse
  | reverse => forward

end Direction

/-- The address of an entry: its direction, the code of its language and the name it renders. -/
structure Key where
  /-- Which way the entry leads. -/
  direction : Direction
  /-- The code of the language. -/
  language : String
  /-- The name that is rendered. -/
  name : String
deriving DecidableEq

namespace Key

/-- The key of the entry for a localized name. -/
abbrev forward (language name : String) : Key := ⟨.forward, language, name⟩

/-- The key of the entry for a canonical name. -/
abbrev reverse (language name : String) : Key := ⟨.reverse, language, name⟩

/-- The text of a key.  Nothing is escaped, so a language code that holds an arrow can make
two keys look alike. -/
def text (k : Key) : String := k.language ++ k.direction.arrow ++ k.name

/-- Whether one key is listed before another: forward before reverse, then by language, then
by name. -/
def before (k l : Key) : Bool :=
  if k.direction = l.direction then
    if k.language = l.language then k.name < l.name else k.language < l.language
  else k.direction = .forward

/-- All pairs of positions, the smaller first, at which a list holds equal keys. -/
def equalPairs (ks : List Key) : List (Nat × Nat) :=
  ks.zipIdx.flatMap fun (k, i) =>
    ks.zipIdx.filterMap fun (l, j) => if i < j ∧ k = l then some (i, j) else none

end Key

end Glossary
