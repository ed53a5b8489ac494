import SentenceEngine.Schema.Basic

/-!
# Equality of schemas

Structural equality of schema trees is decidable.
-/

namespace SentenceEngine.Schema

mutual
/-- Structural equality. -/
def same : Schema → Schema → Bool
  | .node o n k, .node p m l => o == p && n == m && sameKind k l

/-- Structural equality of kinds. -/
def sameKind : SchemaKind → SchemaKind → Bool
  | .any, .any => true
  | .string a b c, .string x y z => a == x && b == y && c == z
  | .number a b, .number x y => a == x && b == y
  | .boolean, .boolean => true
  | .null, .null => true
  | .array a, .array x => same a x
  | .object a b c, .object x y z => sameFields a x && sameOption b y && c == z
  | .sentences, .sentences => true
  | .alternatives a, .alternatives x => sameList a x
  | .reference a, .reference x => a == x
  | _, _ => false

/-- Structural equality of what may be absent. -/
def sameOption : Option Schema → Option Schema → Bool
  | none, none => true
  | some a, some x => same a x
  | _, _ => false

/-- Structural equality, field by field. -/
def sameFields : List (String × Schema) → List (String × Schema) → Bool
  | [], [] => true
  | (k, a) :: as, (l, x) :: xs => k == l && same a x && sameFields as xs
  | _, _ => false

/-- Structural equality, schema by schema. -/
def sameList : List Schema → List Schema → Bool
  | [], [] => true
  | a :: as, x :: xs => same a x && sameList as xs
  | _, _ => false
end

mutual
theorem same_iff (a b : Schema) : same a b = true ↔ a = b := by
  match a, b with
  | .node _ _ k, .node _ _ l => simp [same, sameKind_iff k l, and_assoc]

theorem sameKind_iff (a b : SchemaKind) : sameKind a b = true ↔ a = b := by
  match a with
  | .any => cases b <;> simp [sameKind]
  | .string .. => cases b <;> simp [sameKind, and_assoc]
  | .number .. => cases b <;> simp [sameKind]
  | .boolean => cases b <;> simp [sameKind]
  | .null => cases b <;> simp [sameKind]
  | .array s =>
    match b with
    | .array t => simp [sameKind, same_iff s t]
    | .any | .string .. | .number .. | .boolean | .null | .object .. | .sentences
    | .alternatives _ | .reference _ => simp [sameKind]
  | .object f r _ =>
    match b with
    | .object g q _ => simp [sameKind, sameFields_iff f g, sameOption_iff r q, and_assoc]
    | .any | .string .. | .number .. | .boolean | .null | .array _ | .sentences
    | .alternatives _ | .reference _ => simp [sameKind]
  | .sentences => cases b <;> simp [sameKind]
  | .alternatives s =>
    match b with
    | .alternatives t => simp [sameKind, sameList_iff s t]
    | .any | .string .. | .number .. | .boolean | .null | .array _ | .object .. | .sentences
    | .reference _ => simp [sameKind]
  | .reference _ => cases b <;> simp [sameKind]

theorem sameOption_iff (a b : Option Schema) : sameOption a b = true ↔ a = b := by
  match a, b with
  | none, b => cases b <;> simp [sameOption]
  | some _, none => simp [sameOption]
  | some a, some b => simp [sameOption, same_iff a b]

theorem sameFields_iff (xs ys : List (String × Schema)) : sameFields xs ys = true ↔ xs = ys := by
  match xs, ys with
  | [], ys => cases ys <;> simp [sameFields]
  | _ :: _, [] => simp [sameFields]
  | (_, x) :: xs, (_, y) :: ys =>
    simp [sameFields, same_iff x y, sameFields_iff xs ys, and_assoc]

theorem sameList_iff (xs ys : List Schema) : sameList xs ys = true ↔ xs = ys := by
  match xs, ys with
  | [], ys => cases ys <;> simp [sameList]
  | _ :: _, [] => simp [sameList]
  | x :: xs, y :: ys => simp [sameList, same_iff x y, sameList_iff xs ys]
end

instance : DecidableEq Schema := fun a b => decidable_of_iff _ (same_iff a b)

end SentenceEngine.Schema
