import Glossary.Json.Fault

/-!
# Reading numbers

A number is read in two steps.  `numeral` finds its parts: whole digits, digits after a point,
exponent.  `Numeral.value` then computes it.  A whole number that fits a machine word is kept
as it is.  Every other number becomes a binary one, by one multiplication or division of as
many leading digits as fit a word by a power of ten.
-/

namespace Glossary.Json

/-- The parts of a number, the sign apart. -/
structure Numeral where
  /-- The digits before the point. -/
  whole : List Char
  /-- The digits after the point, if there is one. -/
  fraction : Option (List Char)
  /-- The exponent, if there is one: whether it is negative, and its digits. -/
  exponent : Option (Bool × List Char)
deriving DecidableEq

/-- Reads the digits before the point.  A zero may not be followed by a digit. -/
def wholeDigits (atEnd : Cause) : Reader (List Char)
  | [] => .error ⟨atEnd, [], 0⟩
  | c :: rest =>
    if c = '0' then
      if (rest.head?.any Char.isDigit) then .error ⟨.badNumber, rest, 1⟩ else .ok (['0'], rest)
    else if c.isDigit then .ok (c :: rest.takeWhile Char.isDigit, rest.dropWhile Char.isDigit)
    else .error ⟨.badNumber, c :: rest, 1⟩

/-- Reads a point and the digits after it, if there is a point. -/
def fractionDigits? (atEnd : Cause) : Reader (Option (List Char))
  | [] => .ok (none, [])
  | c :: rest =>
    if c = '.' then
      match rest.takeWhile Char.isDigit with
      | [] => .error ⟨if rest.isEmpty then atEnd else .badNumber, rest, 1⟩
      | digits => .ok (some digits, rest.dropWhile Char.isDigit)
    else .ok (none, c :: rest)

/-- Reads an optional sign and tells whether it is a minus. -/
def exponentSign : List Char → Bool × List Char
  | [] => (false, [])
  | c :: rest =>
    if c = '-' then (true, rest) else if c = '+' then (false, rest) else (false, c :: rest)

/-- Reads an exponent, if there is one. -/
def exponentDigits? (atEnd : Cause) : Reader (Option (Bool × List Char))
  | [] => .ok (none, [])
  | c :: rest =>
    if c = 'e' ∨ c = 'E' then
      let (negative, rest) := exponentSign rest
      match rest with
      | [] => .error ⟨atEnd, [], 0⟩
      | d :: rest' =>
        if d.isDigit then
          .ok (some (negative, d :: rest'.takeWhile Char.isDigit), rest'.dropWhile Char.isDigit)
        else .error ⟨.badNumber, rest, 1⟩
    else .ok (none, c :: rest)

/-- Reads the parts of a number, after its sign.  The cause given for the end of the document
is the caller's. -/
def numeral (atEnd : Cause) (s : List Char) : Except Fault (Numeral × List Char) := do
  let (whole, s) ← wholeDigits atEnd s
  let (fraction, s) ← fractionDigits? atEnd s
  let (exponent, s) ← exponentDigits? atEnd s
  return (⟨whole, fraction, exponent⟩, s)

/-- The value of a decimal digit. -/
def digitValue (c : Char) : Nat := c.toNat - '0'.toNat

/-- Takes digits into a number while it stays below a bound: the number, and how many digits
it took. -/
def absorb (bound : Nat) (n : Nat) : List Char → Nat × Nat
  | [] => (n, 0)
  | d :: ds =>
    let m := n * 10 + digitValue d
    if m < bound then
      let (r, k) := absorb bound m ds
      (r, k + 1)
    else (n, 0)

/-- Ten to a power, as a binary number. -/
def powerOfTen (k : Nat) : Float := Float.ofScientific 1 false k

/-- Divides by a power of ten, in steps that a binary number can hold. -/
def scaleDown (f : Float) (k : Nat) : Float :=
  if k ≤ 308 then f / powerOfTen k
  else if f == 0 then f
  else scaleDown (f / powerOfTen 308) (k - 308)
termination_by k

/-- The binary number for `n · 10 ^ e`, if it is not too large. -/
def scale? (n : Nat) (e : Int) : Option Float :=
  let f := (UInt64.ofNat n).toFloat
  if e < 0 then some (scaleDown f e.natAbs)
  else if e ≤ 308 then
    let g := f * powerOfTen e.natAbs
    if g.isInf then none else some g
  else if f == 0 then some f
  else none

/-- The largest exponent that is told apart from larger ones, plus one. -/
def exponentBound : Nat := 0x80000000

namespace Numeral

/-- The leading digits that fit a word, as a number, and the power of ten that they count. -/
def significand (n : Numeral) : Nat × Int :=
  let (m, k) := absorb UInt64.size 0 n.whole
  let (m', k') := absorb UInt64.size m (n.fraction.getD [])
  (m', (n.whole.length - k : Int) - k')

/-- The whole number, if the numeral has neither point nor exponent and is not too large. -/
def integer? (negative : Bool) (n : Numeral) : Option Int :=
  let (m, k) := absorb UInt64.size 0 n.whole
  if n.fraction.isSome ∨ n.exponent.isSome ∨ k < n.whole.length then none
  else if negative then if 0 < m ∧ m ≤ 0x8000000000000000 then some (-m) else none
  else some m

/-- The binary number, its sign left out.  If it is too large, the number of exponent digits
that were left unread when that was noticed. -/
def magnitude (n : Numeral) : Except Nat Float :=
  let (m, e) := n.significand
  let (negative, digits) := n.exponent.getD (false, [])
  let (p, k) := absorb exponentBound 0 digits
  if k < digits.length then
    if m = 0 ∨ negative then .ok 0 else .error (digits.length - k - 1)
  else
    match scale? m (if negative then e - p else e + p) with
    | some f => .ok f
    | none => .error 0

end Numeral

/-- Reads a number, after its sign. -/
def number (negative : Bool) (s : List Char) : Except Fault (Number × List Char) := do
  let (n, rest) ← numeral .endInValue s
  match n.integer? negative with
  | some i => .ok (.integer i, rest)
  | none =>
    match n.magnitude with
    | .ok f => .ok (.binary (if negative then -f else f).toBits, rest)
    | .error unread => .error ⟨.hugeNumber, s.drop (s.length - rest.length - unread), 0⟩

end Glossary.Json
