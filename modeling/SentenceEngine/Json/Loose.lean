import SentenceEngine.Json.Basic

/-!
# Loose equality and truth

Equality that identifies numbers of the same value, inside lists and objects as well, and the truth
of a value.
-/

namespace SentenceEngine.Json

mutual
/-- Equality up to the spelling of numbers. -/
def looseEq : Json → Json → Bool
  | .null, .null => true
  | .bool a, .bool b => a == b
  | .number a, .number b => a.looseEq b
  | .string a, .string b => a == b
  | .array a, .array b => looseEqItems a b
  | .object a, .object b => a.length == b.length && looseEqMembers a b
  | _, _ => false

/-- Lists of one length with loosely equal items. -/
def looseEqItems : List Json → List Json → Bool
  | [], [] => true
  | x :: xs, y :: ys => looseEq x y && looseEqItems xs ys
  | _, _ => false

/-- Every member has a loosely equal partner under the same key. -/
def looseEqMembers : List (String × Json) → Members → Bool
  | [], _ => true
  | (key, x) :: rest, others =>
    (match Dictionary.find? others key with
      | some y => looseEq x y
      | none => false) && looseEqMembers rest others
end

/-- Null, `false`, zero and the empty string are false; every other value is true. -/
def isTruthy : Json → Bool
  | .null => false
  | .bool value => value
  | .number value => !value.toDouble.isZero
  | .string text => text != ""
  | .array _ => true
  | .object _ => true

end SentenceEngine.Json
