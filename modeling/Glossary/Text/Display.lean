import Glossary.Text.Hidden

/-!
# Text as it is shown in messages

A text is shown between double quotes.  Quotes, backslashes and a few control characters have
escapes of their own; a character that has no visible form of its own is shown by its number.
-/

namespace Glossary.Text

/-- How a character is shown. -/
def displayChar (c : Char) : List Char :=
  if c = '\x00' then ['\\', '0']
  else if c = '\t' then ['\\', 't']
  else if c = '\r' then ['\\', 'r']
  else if c = '\n' then ['\\', 'n']
  else if c = '\\' then ['\\', '\\']
  else if c = '"' then ['\\', '"']
  else if isHidden c then '\\' :: 'u' :: '{' :: Nat.toDigits 16 c.toNat ++ ['}']
  else [c]

/-- How a text is shown, the quotes included. -/
def display (s : String) : String :=
  String.ofList ('"' :: s.toList.flatMap displayChar ++ ['"'])

end Glossary.Text
