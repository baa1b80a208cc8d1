import Glossary.Json.Reader.Container
import Glossary.Json.Reader.Number

/-!
# Passing over values

The value of a member that nobody asks for is passed over.  It has to be well formed, but it
may be nested to any depth, so what is open is kept on a stack of frames.
-/

namespace Glossary.Json

/-- A container that is open. -/
inductive Frame where
  /-- A list. -/
  | list
  /-- An object. -/
  | object
deriving DecidableEq

namespace Frame

/-- The bracket that closes a container. -/
def closer : Frame → Char
  | list => ']'
  | object => '}'

/-- The cause when the document ends inside a container. -/
def atEnd : Frame → Cause
  | list => .endInList
  | object => .endInObject

/-- The cause when neither a comma nor the closing bracket follows a value. -/
def noComma : Frame → Cause
  | list => .noListComma
  | object => .noObjectComma

end Frame

/-- Passes over a number, after its sign. -/
def skipNumber (s : List Char) : Except Fault (List Char) := do
  let (_, s) ← numeral .badNumber s
  return s

/-- Passes over a value that is not a container, or over an opening bracket, whose frame is
then given. -/
def skipStart (s : List Char) : Except Fault (Option Frame × List Char) :=
  match s with
  | [] => .error ⟨.endInValue, [], 1⟩
  | c :: rest =>
    if c = '[' then .ok (some .list, rest)
    else if c = '{' then .ok (some .object, rest)
    else
      (fun s => (none, s)) <$>
        if c = 'n' then word ['u', 'l', 'l'] rest
        else if c = 't' then word ['r', 'u', 'e'] rest
        else if c = 'f' then word ['a', 'l', 's', 'e'] rest
        else if c = '"' then skipText rest
        else if c = '-' then skipNumber rest
        else if c.isDigit then skipNumber s
        else .error ⟨.noValue, s, 1⟩

/-- Closes as many containers as end here.  What is given back is the stack of those that stay
open; if there are any, the next value follows.  A comma is taken only after a value. -/
def unwind : Bool → List Frame → List Char → Except Fault (List Frame × List Char)
  | _, [], s => .ok ([], s)
  | afterValue, f :: fs, s =>
    match skipBlanks s with
    | [] => .error ⟨f.atEnd, [], 1⟩
    | c :: rest =>
      if afterValue ∧ c = ',' then .ok (f :: fs, rest)
      else if c = f.closer then unwind true fs rest
      else if afterValue then .error ⟨f.noComma, c :: rest, 1⟩
      else .ok (f :: fs, c :: rest)

/-- Passes over the name of a member and its colon. -/
def skipName (s : List Char) : Except Fault (List Char) :=
  match skipBlanks s with
  | [] => .error ⟨.endInObject, [], 1⟩
  | c :: rest =>
    if c = '"' then do colon (← skipText rest) else .error ⟨.badName, c :: rest, 1⟩

/-- Passes over one value or opening bracket, the closing brackets and the comma after it, and
the name that the next value has. -/
def skipTurn (stack : List Frame) (s : List Char) : Except Fault (List Frame × List Char) := do
  let (opened, s) ← skipStart (skipBlanks s)
  let (stack, s) ← unwind opened.isNone (opened.toList ++ stack) s
  if stack.head? = some .object then return (stack, ← skipName s) else return (stack, s)

/-- At most so many turns, until nothing is open. -/
def skipUpTo : Nat → List Frame → List Char → Except Fault (List Char)
  | 0, _, s => .error ⟨.endInValue, s, 0⟩
  | n + 1, stack, s => do
    let (stack, s) ← skipTurn stack s
    if stack.isEmpty then return s else skipUpTo n stack s

/-- Passes over a value.  Each turn takes at least one character, so the number of characters
bounds the number of turns. -/
def skipValue (s : List Char) : Except Fault (List Char) := skipUpTo (s.length + 1) [] s

end Glossary.Json
