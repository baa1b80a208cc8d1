import Glossary.Json.Reader.Container
import Glossary.Json.Reader.Number

/-!
# Values of another kind than expected

When a value of another kind stands where one was expected, the fault says what was found.
For that the value is read, except that a list or an object is only noticed.
-/

namespace Glossary.Json

/-- Reads what stands here, as far as a message needs it. -/
def found (s : List Char) : Except Fault (Found × List Char) :=
  match s with
  | [] => .error ⟨.endInValue, [], 1⟩
  | c :: rest =>
    if c = 'n' then do return (.null, ← word ['u', 'l', 'l'] rest)
    else if c = 't' then do return (.truth true, ← word ['r', 'u', 'e'] rest)
    else if c = 'f' then do return (.truth false, ← word ['a', 'l', 's', 'e'] rest)
    else if c = '-' then do
      let (n, s) ← number true rest
      return (.number n, s)
    else if c.isDigit then do
      let (n, s) ← number false s
      return (.number n, s)
    else if c = '"' then do
      let (t, s) ← textBody [] rest
      return (.text t, s)
    else if c = '[' then .ok (.list, s)
    else if c = '{' then .ok (.object, s)
    else .error ⟨.noValue, s, 1⟩

/-- The fault of a value that is not of the expected kind. -/
def mismatch (expected : String) (s : List Char) : Fault :=
  match found s with
  | .ok (f, rest) => ⟨.mismatch f expected, rest, 0⟩
  | .error f => f

/-- Reads a text. -/
def text (s : List Char) : Except Fault (String × List Char) :=
  match skipBlanks s with
  | [] => .error ⟨.endInValue, [], 1⟩
  | c :: rest =>
    if c = '"' then textBody [] rest else .error (mismatch "a string" (c :: rest))

end Glossary.Json
