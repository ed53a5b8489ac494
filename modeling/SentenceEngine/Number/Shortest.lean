import SentenceEngine.Number.Double

/-!
# Shortest decimals

The fewest decimal digits that read back as a given double, and of those the nearest to its value.
A decimal reads back when it lies in the interval of reals that round to the double; the ends of
the interval belong to it when the significand is even. On each decimal grid only the two
neighbours of the value need a look. Two decimals of the same length can be equally near to the
value; which of them is taken is up to the notation that they are for.
-/

namespace SentenceEngine

/-- A decimal `digits * 10 ^ exponent`. -/
structure Decimal where
  digits : Nat
  exponent : Int
deriving DecidableEq, Repr

namespace Decimal

/-- The number of decimal digits of a positive number; 0 for 0. -/
def digitCount (n : Nat) : Nat := if n = 0 then 0 else (Nat.toDigits 10 n).length

/-- Drops the trailing zeros of a nonzero digit string; the first argument bounds their number. -/
def strip : Nat → Decimal → Decimal
  | 0, d => d
  | n + 1, d =>
    if d.digits ≠ 0 ∧ d.digits % 10 = 0 then strip n ⟨d.digits / 10, d.exponent + 1⟩ else d

/-- The numerator of the decimal over `denominator`, both whole numbers. -/
def numerator (d : Decimal) : Nat := d.digits * Nat.pow 10 d.exponent.toNat

/-- The denominator that goes with `numerator`. -/
def denominator (d : Decimal) : Nat := Nat.pow 10 (-d.exponent).toNat

end Decimal

namespace Double

/-- The interval of reals that round to a nonzero double, in quarters of the unit `2 ^ -1074`.
Below a power of two the neighbours are half as far apart. -/
def roundingInterval (d : Double) : Nat × Nat :=
  let step := Nat.pow 2 d.shift
  let below := if d.significand = Nat.pow 2 52 ∧ 0 < d.shift then step else 2 * step
  (4 * d.units - below, 4 * d.units + 2 * step)

/-- Whether a decimal lies in the rounding interval of a nonzero double. -/
def readsBack (d : Double) (decimal : Decimal) : Bool :=
  let (low, high) := d.roundingInterval
  let point := decimal.numerator * Nat.pow 2 1076
  let low := low * decimal.denominator
  let high := high * decimal.denominator
  if d.significand % 2 = 0 then low ≤ point && point ≤ high else low < point && point < high

/-- The exponent of the leading decimal digit of a nonzero double. -/
def decimalExponent (d : Double) : Int :=
  let one := Nat.pow 2 1074
  if one ≤ d.units then (Decimal.digitCount (d.units / one) : Int) - 1
  else -(Decimal.digitCount ((one - 1) / d.units) : Int)

/-- Of the two neighbours of a nonzero double on a decimal grid, one that reads back: the nearer
one, and of two that are equally near the one that the tie rule names. -/
def onGrid? (d : Double) (tie : Tie) (exponent : Int) : Option Decimal :=
  let num := d.units * Nat.pow 10 (-exponent).toNat
  let den := Nat.pow 2 1074 * Nat.pow 10 exponent.toNat
  let floor : Decimal := ⟨num / den, exponent⟩
  let ceiling : Decimal := ⟨num / den + 1, exponent⟩
  let nearest := if tie.round num den = floor.digits then floor else ceiling
  let other := if nearest = floor then ceiling else floor
  if d.readsBack nearest then some nearest
  else if d.readsBack other then some other
  else none

/-- Tries grids of growing fineness; seventeen digits always suffice. -/
def shortestFrom (d : Double) (tie : Tie) : Nat → Int → Decimal
  | 0, exponent => (d.onGrid? tie exponent).getD ⟨0, 0⟩
  | n + 1, exponent =>
    match d.onGrid? tie exponent with
    | some decimal => decimal
    | none => shortestFrom d tie n (exponent - 1)

/-- The shortest decimal that reads back as a double, without trailing zeros. -/
def shortest (d : Double) (tie : Tie) : Decimal :=
  if d.isZero then ⟨0, 0⟩ else (d.shortestFrom tie 17 d.decimalExponent).strip 20

end Double
end SentenceEngine
