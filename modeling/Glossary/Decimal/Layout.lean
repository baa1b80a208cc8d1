import Glossary.Decimal.Shortest

/-!
# Laying out a decimal

How a decimal becomes text: positionally while its leading digit is within bounds, and
otherwise with an exponent.
-/

namespace Glossary

namespace Decimal

/-- The decisions of a number format. -/
structure Layout where
  /-- The smallest power of ten of a leading digit that is written positionally. -/
  lowest : Int
  /-- The largest such power. -/
  highest : Int

/-- Zeros, as many as an integer says. -/
def zeros (n : Int) : List Char := List.replicate n.toNat '0'

/-- The text of an exponent with its sign. -/
def exponentText (e : Int) : List Char :=
  (if e < 0 then '-' else '+') :: Nat.toDigits 10 e.natAbs

/-- The decimal without the zeros at its end. -/
def strip : Nat → Decimal → Decimal
  | 0, d => d
  | n + 1, d => if d.digits % 10 = 0 then strip n ⟨d.digits / 10, d.exponent + 1⟩ else d

/-- The text of a decimal.  A whole number is written with a zero after the point. -/
def write (layout : Layout) (d : Decimal) : List Char :=
  let d := if d.digits = 0 then ⟨0, 0⟩ else strip d.digits d
  let digits := Nat.toDigits 10 d.digits
  let count : Int := digits.length
  let top := d.exponent + count - 1
  if layout.lowest ≤ top ∧ top ≤ layout.highest then
    if 0 ≤ d.exponent then digits ++ zeros d.exponent ++ ['.', '0']
    else if 0 ≤ top then digits.take (top + 1).toNat ++ '.' :: digits.drop (top + 1).toNat
    else '0' :: '.' :: zeros (-top - 1) ++ digits
  else
    digits.take 1 ++ (if digits.length = 1 then [] else '.' :: digits.drop 1) ++
      'e' :: exponentText top

end Decimal

end Glossary
