/-!
# Writing JSON documents

A text is written between double quotes.  A quote, a backslash and the characters below the
blank are written as escapes, by a letter of their own where they have one and by four
hexadecimal digits otherwise; every other character stands for itself.  Objects and lists are
written without blanks.
-/

namespace Glossary.Json

/-- The hexadecimal digit of a number below sixteen, in lower case. -/
def hexDigit (n : Nat) : Char :=
  if n < 10 then Char.ofNat ('0'.toNat + n) else Char.ofNat ('a'.toNat + (n - 10))

/-- How a character is written inside quotes. -/
def quoteChar (c : Char) : List Char :=
  if c = '"' then ['\\', '"']
  else if c = '\\' then ['\\', '\\']
  else if c = '\x08' then ['\\', 'b']
  else if c = '\x0c' then ['\\', 'f']
  else if c = '\n' then ['\\', 'n']
  else if c = '\r' then ['\\', 'r']
  else if c = '\t' then ['\\', 't']
  else if c.toNat < 32 then
    ['\\', 'u', '0', '0', hexDigit (c.toNat / 16), hexDigit (c.toNat % 16)]
  else [c]

/-- How a text is written, the quotes included. -/
def quote (s : String) : List Char := '"' :: s.toList.flatMap quoteChar ++ ['"']

/-- A member of an object: its quoted name, a colon and its written value. -/
def writeMember (name : String) (value : List Char) : List Char := quote name ++ ':' :: value

/-- Written values with commas between them. -/
def writeCommas : List (List Char) → List Char
  | [] => []
  | [v] => v
  | v :: w :: rest => v ++ ',' :: writeCommas (w :: rest)

/-- An object with the given written members. -/
def writeObject (members : List (List Char)) : List Char :=
  '{' :: writeCommas members ++ ['}']

/-- A list with the given written elements. -/
def writeList (elements : List (List Char)) : List Char :=
  '[' :: writeCommas elements ++ [']']

end Glossary.Json
