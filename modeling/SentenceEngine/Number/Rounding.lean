/-!
# Rounding

The integer nearest to a ratio of natural numbers. A half has two nearest integers; which of them is
meant is told by a tie rule.
-/

namespace SentenceEngine

/-- Where a half goes: to the even neighbour, or to the larger one. -/
inductive Tie where
  | toEven
  | up
deriving DecidableEq, Repr

/-- The nearest integer to a ratio; a half goes where the tie rule says. -/
def Tie.round (tie : Tie) (num den : Nat) : Nat :=
  let quotient := num / den
  let twice := 2 * (num % den)
  if twice < den then quotient
  else if den < twice then quotient + 1
  else match tie with
    | .toEven => quotient + quotient % 2
    | .up => quotient + 1

end SentenceEngine
