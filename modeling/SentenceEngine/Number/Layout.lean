import SentenceEngine.Number.Shortest

/-!
# Decimal layouts

How a decimal is written down: with a point among its digits, or with an exponent. Two layouts are
in use, one for JSON text and one inside messages.
-/

namespace SentenceEngine

/-- The choices of a decimal notation. -/
structure Layout where
  /-- Whether a leading digit of this decimal exponent is written with an exponent. -/
  scientific : Int → Bool
  /-- Whether a whole number in positional form ends in a point and a zero. -/
  pointZero : Bool
  /-- Which of two decimals is written that are equally short and equally near. -/
  tie : Tie

namespace Layout

/-- JSON text: exponents from 16 on and below -5 are written out, whole numbers end in `.0`, and of
two decimals that serve the even one is written. -/
def json : Layout := ⟨fun e => 16 ≤ e || e < -5, true, .toEven⟩

/-- Messages: always positional, whole numbers without a point, and of two decimals that serve the
one with the larger magnitude is written. -/
def message : Layout := ⟨fun _ => false, false, .up⟩

/-- Digits in positional form; `point` is the number of digits before the decimal point. -/
def positional (layout : Layout) (digits : List Char) (point : Int) : List Char :=
  if point ≤ 0 then
    '0' :: '.' :: List.replicate (-point).toNat '0' ++ digits
  else if digits.length ≤ point.toNat then
    digits ++ List.replicate (point.toNat - digits.length) '0' ++
      (if layout.pointZero then ['.', '0'] else [])
  else
    digits.take point.toNat ++ '.' :: digits.drop point.toNat

/-- Digits with one of them before the point, and an exponent with its sign. -/
def withExponent (digits : List Char) (exponent : Int) : List Char :=
  let mantissa := match digits with
    | [] => []
    | [d] => [d]
    | d :: rest => d :: '.' :: rest
  let sign := if exponent < 0 then '-' else '+'
  mantissa ++ 'e' :: sign :: Nat.toDigits 10 exponent.natAbs

/-- The text of a double in a layout. -/
def write (layout : Layout) (d : Double) : String :=
  let decimal := d.shortest layout.tie
  let digits := Nat.toDigits 10 decimal.digits
  let point := (digits.length : Int) + decimal.exponent
  let body :=
    if layout.scientific (point - 1) then withExponent digits (point - 1)
    else layout.positional digits point
  String.ofList (if d.negative then '-' :: body else body)

end Layout
end SentenceEngine
