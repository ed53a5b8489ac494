import SentenceEngine.Number.Layout

/-!
# Numbers

A number is a whole number of 64 bits, signed or unsigned, or a finite double. Comparisons go
through doubles, so a whole number and a double of the same value are the same number.
-/

namespace SentenceEngine

/-- The least whole number of 64 bits with a sign. -/
abbrev leastInteger : Int := -9223372036854775808

/-- What the whole numbers of 64 bits without a sign stay below. -/
abbrev integerLimit : Nat := 18446744073709551616

/-- A number as a document holds it. -/
inductive Number where
  | integer (value : Int) (lower : leastInteger ≤ value) (upper : value < integerLimit)
  | double (value : Double)
deriving DecidableEq

namespace Number

/-- A whole number when it fits in 64 bits, else the nearest double. -/
def ofInt (i : Int) : Number :=
  if h : leastInteger ≤ i ∧ i < integerLimit then .integer i h.1 h.2 else .double (Double.ofInt i)

/-- A natural number. -/
def ofNat (n : Nat) : Number := ofInt n

/-- The nearest double. -/
def toDouble : Number → Double
  | .integer value _ _ => Double.ofInt value
  | .double value => value

/-- Equality of the nearest doubles. -/
def looseEq (a b : Number) : Bool := a.toDouble.sameValue b.toDouble

/-- The JSON text of a number. -/
def text : Number → String
  | .integer value _ _ => toString value
  | .double value => Layout.json.write value

end Number
end SentenceEngine
