/-!
# The fewest digits that identify a binary number

A finite binary number of 64 bits is `m · 2 ^ q` with a natural `m`.  The reals that are
rounded to it form an interval around it, and any decimal in that interval identifies it.
`Binary.shortest` takes a decimal with the fewest digits, and among those the nearest to the
value.  All comparisons are made in natural numbers.
-/

namespace Glossary

/-- The decimal `digits · 10 ^ exponent`. -/
structure Decimal where
  /-- The digits, read as one number. -/
  digits : Nat
  /-- The power of ten that the last digit counts. -/
  exponent : Int
deriving DecidableEq

/-- The size of a finite binary number: `mantissa · 2 ^ exponent`. -/
structure Binary where
  /-- The number of units. -/
  mantissa : Nat
  /-- The power of two that is the unit. -/
  exponent : Int
  /-- Whether the next smaller number is only half a unit away. -/
  narrowBelow : Bool
deriving DecidableEq

namespace Binary

/-- The size of the number with given bits; the sign is left out. -/
def ofBits (bits : UInt64) : Binary :=
  let fraction : Nat := bits.toNat % 0x10000000000000
  let power : Nat := bits.toNat / 0x10000000000000 % 0x800
  if power = 0 then ⟨fraction, -1074, false⟩
  else ⟨0x10000000000000 + fraction, (power : Int) - 1075, fraction = 0 ∧ 1 < power⟩

/-- Scales a quotient by a power of ten. -/
def scaleTen (num den : Nat) (k : Int) : Nat × Nat :=
  if k < 0 then (num * Nat.pow 10 k.natAbs, den) else (num, den * Nat.pow 10 k.natAbs)

/-- The numerator and denominator of a quarter of the unit. -/
def quarter (b : Binary) : Nat × Nat :=
  let q := b.exponent - 2
  if q < 0 then (1, Nat.pow 2 q.natAbs) else (Nat.pow 2 q.natAbs, 1)

/-- The power of ten of the leading digit of a positive quotient. -/
def leading (num den : Nat) : Int :=
  if den ≤ num then ((Nat.toDigits 10 (num / den)).length : Int) - 1
  else -(((List.range 400).find? fun j => den ≤ num * Nat.pow 10 j).getD 0 : Int)

/-- Whether `n` steps of the grid `10 ^ k` lie in the interval of the number.  The ends belong
to the interval if the mantissa is even. -/
def reads (b : Binary) (k : Int) (n : Nat) : Bool :=
  let (num, den) := b.quarter
  let (num, den) := scaleTen num den k
  let low := (4 * b.mantissa - (if b.narrowBelow then 1 else 2)) * num
  let high := (4 * b.mantissa + 2) * num
  if b.mantissa % 2 = 0 then low ≤ n * den ∧ n * den ≤ high
  else low < n * den ∧ n * den < high

/-- The decimal on the grid `10 ^ k` that identifies the number, if one of the two neighbours
of its value does: the nearer one, and of two equally near the even one. -/
def onGrid? (b : Binary) (k : Int) : Option Decimal :=
  let (num, den) := b.quarter
  let (num, den) := scaleTen num den k
  let value := 4 * b.mantissa * num
  let below := value / den
  let twice := 2 * (value % den)
  let upward := den < twice ∨ (den = twice ∧ below % 2 = 1)
  let candidates := if upward then [below + 1, below] else [below, below + 1]
  (candidates.find? (b.reads k)).map (⟨·, k⟩)

/-- A shortest decimal that identifies the number.  Zero has no leading digit and is its own
decimal. -/
def shortest (b : Binary) : Decimal :=
  if b.mantissa = 0 then ⟨0, 0⟩
  else
    let (num, den) := b.quarter
    let top := leading (4 * b.mantissa * num) den
    ((List.range 17).findSome? fun (n : Nat) => b.onGrid? (top - n)).getD ⟨0, 0⟩

end Binary

end Glossary
