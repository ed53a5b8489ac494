import SentenceEngine.Number.Rounding

/-!
# Finite doubles

The finite IEEE doubles, as a sign and a magnitude. The magnitude is the bit pattern without its
sign, so that it orders doubles of one sign by their values. Every finite double is a whole number
of units `2 ^ -1074`, which makes each operation an exact computation on natural numbers followed
by one rounding. Powers are written with `Nat.pow`, which means the same whatever instances are in
scope.
-/

namespace SentenceEngine

/-- A finite double: its sign, and the exponent and fraction fields read as one number. -/
structure Double where
  negative : Bool
  magnitude : Nat
  finite : magnitude < 0x7FF0000000000000 := by decide
deriving DecidableEq

namespace Double

/-! ## Values -/

/-- Positive zero. -/
def zero : Double := ⟨false, 0, by decide⟩

/-- The largest finite double. -/
def largest : Double := ⟨false, 0x7FEFFFFFFFFFFFFF, by decide⟩

instance : Inhabited Double := ⟨zero⟩

/-- The same magnitude under the given sign. -/
def withSign (negative : Bool) (d : Double) : Double := { d with negative }

/-- The integer that is multiplied by a power of two: 53 bits, fewer for subnormal doubles. -/
def significand (d : Double) : Nat :=
  if d.magnitude < Nat.pow 2 52 then d.magnitude
  else Nat.pow 2 52 + d.magnitude % Nat.pow 2 52

/-- The power of two that one step of the significand is worth, counted from `2 ^ -1074`. -/
def shift (d : Double) : Nat := d.magnitude / Nat.pow 2 52 - 1

/-- The absolute value as a whole number of units `2 ^ -1074`. -/
def units (d : Double) : Nat := d.significand * Nat.pow 2 d.shift

/-- Orders doubles by value; both zeros have the key 0. -/
def key (d : Double) : Int := if d.negative then -(d.magnitude : Int) else d.magnitude

/-- Equality of values: the two zeros are equal. -/
def sameValue (a b : Double) : Bool := a.key == b.key

/-- The order of values. -/
def below (a b : Double) : Bool := a.key < b.key

/-- Whether the value is zero, of either sign. -/
def isZero (d : Double) : Bool := d.magnitude == 0

/-! ## Rounding -/

/-- The magnitude nearest to a ratio, in a format without an upper limit; a half goes to the even
neighbour. -/
def roundedMagnitude (num den : Nat) : Nat :=
  let scaled := num * Nat.pow 2 1074
  let shift := (scaled / den).log2 - 52
  shift * Nat.pow 2 52 + Tie.toEven.round scaled (den * Nat.pow 2 shift)

/-- The double nearest to `num / den` with the given sign, or nothing when it is too large. -/
def ofRatio? (negative : Bool) (num den : Nat) : Option Double :=
  if h : roundedMagnitude num den < 0x7FF0000000000000 then
    some ⟨negative, roundedMagnitude num den, h⟩
  else
    none

/-- The double nearest to an integer. Integers beyond the largest double are not in use here; they
would give the largest double. -/
def ofInt (i : Int) : Double := (ofRatio? (i < 0) i.natAbs 1).getD (largest.withSign (i < 0))

/-! ## Arithmetic -/

/-- The rounded product, or nothing when it is too large. -/
def mul? (a b : Double) : Option Double :=
  ofRatio? (a.negative != b.negative) (a.units * b.units) (Nat.pow 2 2148)

/-- The rounded quotient by a double other than zero, or nothing when it is too large. -/
def div? (a b : Double) : Option Double :=
  ofRatio? (a.negative != b.negative) a.units b.units

/-- The double nearest to a power of ten, or nothing above `10 ^ 308`. -/
def powerOfTen? (exponent : Nat) : Option Double :=
  ofRatio? false (Nat.pow 10 exponent) 1

end Double
end SentenceEngine
