import SentenceEngine.Number.Basic

/-!
# Numbers of decimal text

The number that an integer part, a fraction and an exponent stand for. Digits are collected in a
significand of 64 bits: digits of the integer part that no longer fit only raise the exponent, and
the fraction is cut at its first digit that no longer fits. The significand is rounded to a double
and then multiplied or divided by a power of ten.
-/

namespace SentenceEngine

namespace Double

/-- Divides by a power of ten, in steps of at most `10 ^ 308`. -/
def scaleDown (d : Double) (exponent : Nat) : Double :=
  if 308 < exponent ∧ ¬ d.isZero then
    scaleDown ((d.div? ((powerOfTen? 308).getD largest)).getD d) (exponent - 308)
  else if exponent ≤ 308 then
    (d.div? ((powerOfTen? exponent).getD largest)).getD d
  else d
termination_by exponent

/-- Multiplies by a power of ten, or nothing when the product is too large. -/
def scaleUp? (d : Double) (exponent : Nat) : Option Double :=
  if exponent ≤ 308 then (powerOfTen? exponent).bind d.mul?
  else if d.isZero then some d
  else none

/-- The double of a significand and a decimal exponent, or nothing when it is too large. -/
def ofDecimal? (negative : Bool) (significand : Nat) (exponent : Int) : Option Double :=
  let d := ofInt significand
  let scaled := if 0 ≤ exponent then d.scaleUp? exponent.toNat
    else some (d.scaleDown (-exponent).toNat)
  scaled.map (withSign negative)

end Double

namespace Number

/-- The value of a decimal digit. -/
def digit (c : Char) : Nat := c.toNat - '0'.toNat

/-- Collects the digits of an integer part: the significand and how many digits it left out. -/
def absorbInteger : Nat → List Char → Nat × Nat
  | significand, [] => (significand, 0)
  | significand, c :: rest =>
    let next := significand * 10 + digit c
    if next < integerLimit then absorbInteger next rest else (significand, rest.length + 1)

/-- Collects the digits of a fraction: the significand and how many digits it took. -/
def absorbFraction : Nat → List Char → Nat × Nat
  | significand, [] => (significand, 0)
  | significand, c :: rest =>
    let next := significand * 10 + digit c
    if next < integerLimit then
      let (result, taken) := absorbFraction next rest
      (result, taken + 1)
    else (significand, 0)

/-- The number that digits stand for; absent parts are `none`. Whole numbers of 64 bits stay exact,
and negative zero is a double. Nothing when the number is too large. -/
def ofDigits? (negative : Bool) (integer : List Char) (fraction : Option (List Char))
    (exponent : Option Int) : Option Number :=
  let (significand, omitted) := absorbInteger 0 integer
  match fraction, exponent with
  | none, none =>
    if omitted = 0 then
      if negative ∧ significand = 0 then some (.double (Double.zero.withSign true))
      else some (ofInt (if negative then -(significand : Int) else significand))
    else (Double.ofDecimal? negative significand omitted).map .double
  | _, _ =>
    let (significand, taken) := absorbFraction significand (fraction.getD [])
    let power := (omitted : Int) - taken + exponent.getD 0
    (Double.ofDecimal? negative significand power).map .double

end Number
end SentenceEngine
