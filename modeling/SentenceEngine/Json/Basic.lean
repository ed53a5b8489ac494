import SentenceEngine.Number.Basic
import SentenceEngine.Dictionary

/-!
# JSON values

The data that programs, schemas, variables and messages are made of. Objects hold their members in
increasing order of their keys, so two objects are equal when their entries are.
-/

namespace SentenceEngine

/-- A JSON value. -/
inductive Json where
  | null
  | bool (value : Bool)
  | number (value : Number)
  | string (value : String)
  | array (items : List Json)
  | object (members : List (String × Json))

/-- The members of an object, or any other dictionary of values. -/
abbrev Members := Dictionary Json

namespace Json

instance : Inhabited Json := ⟨.null⟩

/-! ## Induction -/

/-- What holds of the plain values, of a list if it holds of its items, and of an object if it holds
of the values of its members, holds of all values. -/
@[elab_as_elim]
theorem induction {motive : Json → Prop} (null : motive .null)
    (bool : ∀ value, motive (.bool value)) (number : ∀ value, motive (.number value))
    (string : ∀ value, motive (.string value))
    (array : ∀ items, (∀ item ∈ items, motive item) → motive (.array items))
    (object : ∀ members, (∀ entry ∈ members, motive entry.2) → motive (.object members))
    (value : Json) : motive value := by
  refine @Json.rec motive (fun items => ∀ item ∈ items, motive item)
    (fun members => ∀ entry ∈ members, motive entry.2) (fun entry => motive entry.2)
    null bool number string array object ?_ ?_ ?_ ?_ ?_ value
  · intro item hitem
    cases hitem
  · intro first rest hfirst hrest
    exact List.forall_mem_cons.2 ⟨hfirst, hrest⟩
  · intro entry hentry
    cases hentry
  · intro first rest hfirst hrest
    exact List.forall_mem_cons.2 ⟨hfirst, hrest⟩
  · intro key value hvalue
    exact hvalue

/-! ## Equality -/

mutual
/-- Structural equality. -/
def same : Json → Json → Bool
  | .null, .null => true
  | .bool a, .bool b => a == b
  | .number a, .number b => a == b
  | .string a, .string b => a == b
  | .array a, .array b => sameItems a b
  | .object a, .object b => sameMembers a b
  | _, _ => false

/-- Structural equality, item by item. -/
def sameItems : List Json → List Json → Bool
  | [], [] => true
  | x :: xs, y :: ys => same x y && sameItems xs ys
  | _, _ => false

/-- Structural equality, member by member. -/
def sameMembers : List (String × Json) → List (String × Json) → Bool
  | [], [] => true
  | (k, x) :: xs, (l, y) :: ys => k == l && same x y && sameMembers xs ys
  | _, _ => false
end

mutual
theorem same_iff (a b : Json) : same a b = true ↔ a = b := by
  match a, b with
  | .null, b => cases b <;> simp [same]
  | .bool _, b => cases b <;> simp [same]
  | .number _, b => cases b <;> simp [same]
  | .string _, b => cases b <;> simp [same]
  | .array xs, .array ys => simp [same, sameItems_iff xs ys]
  | .object xs, .object ys => simp [same, sameMembers_iff xs ys]
  | .array _, .null | .array _, .bool _ | .array _, .number _ | .array _, .string _
  | .array _, .object _ => simp [same]
  | .object _, .null | .object _, .bool _ | .object _, .number _ | .object _, .string _
  | .object _, .array _ => simp [same]

theorem sameItems_iff (xs ys : List Json) : sameItems xs ys = true ↔ xs = ys := by
  match xs, ys with
  | [], ys => cases ys <;> simp [sameItems]
  | _ :: _, [] => simp [sameItems]
  | x :: xs, y :: ys => simp [sameItems, same_iff x y, sameItems_iff xs ys]

theorem sameMembers_iff (xs ys : List (String × Json)) : sameMembers xs ys = true ↔ xs = ys := by
  match xs, ys with
  | [], ys => cases ys <;> simp [sameMembers]
  | _ :: _, [] => simp [sameMembers]
  | (k, x) :: xs, (l, y) :: ys =>
    simp [sameMembers, same_iff x y, sameMembers_iff xs ys, and_assoc]
end

instance : DecidableEq Json := fun a b => decidable_of_iff _ (same_iff a b)

/-! ## Kinds -/

/-- The six kinds of values. -/
inductive Kind where
  | null | boolean | number | string | array | object
deriving DecidableEq, Repr

/-- The name of a kind in messages. -/
def Kind.name : Kind → String
  | .null => "null"
  | .boolean => "boolean"
  | .number => "number"
  | .string => "string"
  | .array => "array"
  | .object => "object"

/-- The kind of a value. -/
def kind : Json → Kind
  | .null => .null
  | .bool _ => .boolean
  | .number _ => .number
  | .string _ => .string
  | .array _ => .array
  | .object _ => .object

/-! ## Building and reading -/

/-- A whole number. -/
def ofNat (n : Nat) : Json := .number (Number.ofNat n)

/-- A list of strings. -/
def ofStrings (texts : List String) : Json := .array (texts.map .string)

/-- An absent value is written as null. -/
def ofOption (value : Option Json) : Json := value.getD .null

/-- An object of entries in any order. -/
def ofEntries (entries : List (String × Json)) : Json := .object (Dictionary.ofEntries entries)

/-- The text of a string. -/
def asString? : Json → Option String
  | .string text => some text
  | _ => none

/-- The value of a member, null when it is absent or the value is no object. -/
def member (value : Json) (key : String) : Json :=
  match value with
  | .object members => (Dictionary.find? members key).getD .null
  | _ => .null

/-- Whether the value is null. -/
def isNull : Json → Bool
  | .null => true
  | _ => false

end Json
end SentenceEngine
