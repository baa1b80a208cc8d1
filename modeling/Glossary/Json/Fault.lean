import Glossary.Decimal.Layout
import Glossary.Text.Display

/-!
# Faults of a JSON document

A document that cannot be read has a fault: a cause, and a place.  The place is given by what
was left of the document when reading stopped and by how many bytes of that were already
looked at; line and column follow from it.
-/

namespace Glossary.Json

/-- A number in a document: whole numbers that fit a machine word, and binary numbers, given
by their 64 bits, for everything else. -/
inductive Number where
  /-- A whole number. -/
  | integer (n : Int)
  /-- A binary number with these bits. -/
  | binary (bits : UInt64)
deriving DecidableEq

namespace Number

/-- Binary numbers are written positionally from `0.00001` to below ten to the sixteenth, and
otherwise with a signed exponent. -/
def layout : Decimal.Layout := ⟨-5, 15⟩

/-- The text of a number. -/
def text : Number → String
  | integer n => toString n
  | binary bits =>
    (if 0x8000000000000000 ≤ bits.toNat then "-" else "") ++
      String.ofList ((Binary.ofBits bits).shortest.write layout)

example : (binary 0x3ff8000000000000).text = "1.5" := by decide +kernel

example : (binary 0x408f400000000000).text = "1000.0" := by decide +kernel

example : (binary 0x43f0000000000000).text = "1.8446744073709552e+19" := by decide +kernel

example : (binary 0x3eb0c6f7a0b5ed8d).text = "1e-6" := by decide +kernel

example : (binary 0x8000000000000000).text = "-0.0" := by decide +kernel

end Number

/-- What was found in place of an expected value. -/
inductive Found where
  /-- The word `null`. -/
  | null
  /-- A truth value. -/
  | truth (b : Bool)
  /-- A number. -/
  | number (n : Number)
  /-- A text. -/
  | text (s : String)
  /-- The start of a list. -/
  | list
  /-- The start of an object. -/
  | object
deriving DecidableEq

namespace Found

/-- How the found value is described. -/
def describe : Found → String
  | null => "null"
  | truth b => "boolean `" ++ (if b then "true" else "false") ++ "`"
  | number (.integer n) => "integer `" ++ (Number.integer n).text ++ "`"
  | number (.binary bits) => "floating point `" ++ (Number.binary bits).text ++ "`"
  | text s => "string " ++ Text.display s
  | list => "sequence"
  | object => "map"

end Found

/-- Why a document cannot be read. -/
inductive Cause where
  /-- The document ends inside a list. -/
  | endInList
  /-- The document ends inside an object. -/
  | endInObject
  /-- The document ends inside a text. -/
  | endInText
  /-- The document ends where a value should be or inside one. -/
  | endInValue
  /-- A member name is not followed by a colon. -/
  | noColon
  /-- An element is not followed by a comma or the end of its list. -/
  | noListComma
  /-- A member is not followed by a comma or the end of its object. -/
  | noObjectComma
  /-- No value starts here. -/
  | noValue
  /-- A word that is not `null`, `true` or `false`. -/
  | badWord
  /-- A backslash is followed by something else than an escape. -/
  | badEscape
  /-- A number is not well formed. -/
  | badNumber
  /-- A number is too large. -/
  | hugeNumber
  /-- A control character stands in a text. -/
  | bareControl
  /-- A member does not start with a text. -/
  | badName
  /-- Half of a surrogate pair without the other half. -/
  | loneSurrogate
  /-- The first half of a surrogate pair is not followed by an escape. -/
  | cutSurrogate
  /-- A comma before the end of a list or an object. -/
  | extraComma
  /-- Something follows where nothing may. -/
  | extraText
  /-- A member occurs twice. -/
  | duplicate (name : String)
  /-- A member that has to be there is not. -/
  | missing (name : String)
  /-- A list that stands for a record is too short. -/
  | short (count : Nat) (expected : String)
  /-- A value of another kind than expected. -/
  | mismatch (found : Found) (expected : String)
deriving DecidableEq

namespace Cause

/-- The text of a cause. -/
def message : Cause → String
  | endInList => "EOF while parsing a list"
  | endInObject => "EOF while parsing an object"
  | endInText => "EOF while parsing a string"
  | endInValue => "EOF while parsing a value"
  | noColon => "expected `:`"
  | noListComma => "expected `,` or `]`"
  | noObjectComma => "expected `,` or `\x7d`"
  | noValue => "expected value"
  | badWord => "expected ident"
  | badEscape => "invalid escape"
  | badNumber => "invalid number"
  | hugeNumber => "number out of range"
  | bareControl => "control character (\\u0000-\\u001F) found while parsing a string"
  | badName => "key must be a string"
  | loneSurrogate => "lone leading surrogate in hex escape"
  | cutSurrogate => "unexpected end of hex escape"
  | extraComma => "trailing comma"
  | extraText => "trailing characters"
  | duplicate name => "duplicate field `" ++ name ++ "`"
  | missing name => "missing field `" ++ name ++ "`"
  | short count expected => "invalid length " ++ toString count ++ ", expected " ++ expected
  | mismatch found expected => "invalid type: " ++ found.describe ++ ", expected " ++ expected

end Cause

/-- A cause and the place where it was noticed. -/
structure Fault where
  /-- Why reading stopped. -/
  cause : Cause
  /-- What was left of the document. -/
  rest : List Char
  /-- How many bytes of what was left were already looked at. -/
  ahead : Nat
deriving DecidableEq

/-- A reader takes what is left of a document, and gives a fault, or a value and what is left
after it. -/
abbrev Reader (α : Type) := List Char → Except Fault (α × List Char)

/-- The number of bytes of a text in UTF-8. -/
def byteCount (s : List Char) : Nat := s.foldl (fun n c => n + c.utf8Size) 0

namespace Fault

/-- The number of bytes of a document that lie before the place of a fault.  It never passes
the end. -/
def offset (document : String) (f : Fault) : Nat :=
  let all := byteCount document.toList
  min all (all - byteCount f.rest + f.ahead)

/-- The line, from one, and the column, in bytes, of the place after so many bytes. -/
def position (document : String) (offset : Nat) : Nat × Nat :=
  let before := document.toUTF8.toList.take offset
  (1 + before.count 10, (before.reverse.takeWhile (· ≠ 10)).length)

/-- The text of a fault of a document. -/
def text (document : String) (f : Fault) : String :=
  let (line, column) := position document (f.offset document)
  f.cause.message ++ " at line " ++ toString line ++ " column " ++ toString column

end Fault

end Glossary.Json
