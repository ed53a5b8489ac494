import SentenceEngine.Json.Loose

/-!
# Conditions

A condition is an object whose members all have to hold. Under `@and` and `@or` stands a condition
or a list of conditions; any other key names a variable, which has to match an expected value.

An evaluation stops at the member that decides, and at the first malformed part. Besides its result
it lists the variables that it read, so that what a condition depends on can be stated.
-/

namespace SentenceEngine.Condition

/-! ## Matching -/

/-- The index that a key stands for: decimal digits below `2 ^ 64`, after an optional plus sign. -/
def index? (key : String) : Option Nat :=
  let digits := match key.toList with
    | '+' :: rest => rest
    | chars => chars
  if digits ≠ [] ∧ digits.all Char.isDigit then
    let value := digits.foldl (fun n c => n * 10 + (c.toNat - '0'.toNat)) 0
    if value < integerLimit then some value else none
  else none

/-- The member of an object, or the item of a list under its index; null when there is none. -/
def part (value : Json) (key : String) : Json :=
  match value with
  | .object members => (Dictionary.find? members key).getD .null
  | .array items => ((index? key).bind (items[·]?)).getD .null
  | _ => .null

/-- Whether a value is a list or an object. -/
def hasParts : Json → Bool
  | .array _ => true
  | .object _ => true
  | _ => false

/-- The expected value that every true value matches. -/
def wildcard : String := "*"

mutual
/-- Whether a value matches an expected value: one of a list, each member of an object, any true
value for `"*"`, and otherwise an equal value. -/
def holdsFor (value : Json) : Json → Bool
  | .array options => holdsForSome value options
  | .object members => hasParts value && holdsForParts value members
  | .string text => if text = wildcard then value.isTruthy else Json.looseEq (.string text) value
  | expected => Json.looseEq expected value

/-- Whether a value matches one of several expected values. -/
def holdsForSome (value : Json) : List Json → Bool
  | [] => false
  | option :: rest => holdsFor value option || holdsForSome value rest

/-- Whether each part of a value matches what is expected of it. -/
def holdsForParts (value : Json) : List (String × Json) → Bool
  | [] => true
  | (key, expected) :: rest => holdsFor (part value key) expected && holdsForParts value rest
end

/-! ## Evaluation -/

/-- How the entries of a group are combined. -/
inductive Mode where
  | all
  | some
deriving DecidableEq, Repr

/-- The key that opens a group. -/
def Mode.key : Mode → String
  | .all => "@and"
  | .some => "@or"

/-- Why a condition is malformed. -/
inductive Error where
  /-- A group is neither an object nor a list. -/
  | invalidGroup (mode : Mode)
  /-- An item of a list of conditions is no object. -/
  | invalidItem (found : Json.Kind)
deriving DecidableEq, Repr

/-- The wording of an error. -/
def Error.message : Error → String
  | .invalidGroup mode => "Condition '" ++ mode.key ++ "' is not a valid array or object"
  | .invalidItem found => "Condition list item is a " ++ found.name ++ ", expected an object"

/-- A result, and the variables read on the way to it, in order. -/
structure Evaluation where
  reads : List String
  result : Except Error Bool

namespace Evaluation

/-- A result that needs no variable. -/
def pure (holds : Bool) : Evaluation := ⟨[], .ok holds⟩

/-- A malformed part. -/
def fail (error : Error) : Evaluation := ⟨[], .error error⟩

/-- Goes on to the next entry of a group unless this one decides: one that fails decides a group of
all, one that holds a group of some. -/
def orNext (mode : Mode) (entry : Evaluation) (next : Unit → Evaluation) : Evaluation :=
  match entry.result with
  | .error _ => entry
  | .ok holds =>
    if holds = (mode == .some) then entry
    else
      let after := next ()
      ⟨entry.reads ++ after.reads, after.result⟩

end Evaluation

mutual
/-- Evaluates a group; items of a list are conjunctions whatever the mode. -/
def evaluateGroup (lookup : String → Json) (mode : Mode) : Json → Evaluation
  | .array items => evaluateItems lookup mode items
  | .object members => evaluateMembers lookup mode members
  | _ => .fail (.invalidGroup mode)

/-- Evaluates the items of a list. -/
def evaluateItems (lookup : String → Json) (mode : Mode) : List Json → Evaluation
  | [] => .pure (mode == .all)
  | .object members :: rest =>
    (evaluateMembers lookup .all members).orNext mode fun _ => evaluateItems lookup mode rest
  | item :: _ => .fail (.invalidItem item.kind)

/-- Evaluates the members of an object. -/
def evaluateMembers (lookup : String → Json) (mode : Mode) : List (String × Json) → Evaluation
  | [] => .pure (mode == .all)
  | (key, expected) :: rest =>
    let entry : Evaluation :=
      if key = Mode.all.key then evaluateGroup lookup .all expected
      else if key = Mode.some.key then evaluateGroup lookup .some expected
      else ⟨[key], .ok (holdsFor (lookup key) expected)⟩
    entry.orNext mode fun _ => evaluateMembers lookup mode rest
end

/-- Evaluates a condition on the variables that `lookup` gives. -/
def evaluate (lookup : String → Json) (condition : Json) : Evaluation :=
  evaluateGroup lookup .all condition

end SentenceEngine.Condition
