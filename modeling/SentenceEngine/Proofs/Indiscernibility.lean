import SentenceEngine.Proofs.Comparisons
import SentenceEngine.Proofs.ShortCircuit

/-!
# Loosely equal values cannot be told apart

Loose equality looks at the keys of one object only, goes through lists side by side and compares
numbers by their nearest doubles. It is an equivalence all the same, and no condition distinguishes
loosely equal values: their truth is the same, so are their parts up to loose equality, and what one
matches the other matches.

* `Json.Alike.refl`, `Json.Alike.symm`, `Json.Alike.trans`: likeness is what the relation of the
  numbers is.
* `Json.looseEq_congr`: loosely equal values are loosely equal to the same values.
* `Condition.holdsFor_congr`: matching does not see through loose equality.
* `looseEq_indiscernible`: neither does any condition.
-/

namespace SentenceEngine

/-! ## Likeness -/

theorem forall₂_trans_of_mem {α β γ : Type} {r : α → β → Prop} {s : β → γ → Prop}
    {t : α → γ → Prop} {xs : List α} {ys : List β} {zs : List γ}
    (htrans : ∀ x ∈ xs, ∀ y z, r x y → s y z → t x z) (h : List.Forall₂ r xs ys)
    (h' : List.Forall₂ s ys zs) : List.Forall₂ t xs zs := by
  induction h generalizing zs with
  | nil =>
    cases h'
    exact .nil
  | cons hfirst _ ih =>
    rw [List.forall_mem_cons] at htrans
    cases h' with
    | cons hfirst' hrest' => exact .cons (htrans.1 _ _ hfirst hfirst') (ih htrans.2 hrest')

theorem map_eq_map_of_forall₂ {α β γ : Type} {f : α → γ} {g : β → γ} {xs : List α} {ys : List β}
    (h : List.Forall₂ (fun x y => f x = g y) xs ys) : xs.map f = ys.map g := by
  rw [← List.forall₂_eq_eq_eq, List.forall₂_map_left_iff, List.forall₂_map_right_iff]
  exact h

theorem forall₂_getElem? {α β : Type} {r : α → β → Prop} {xs : List α} {ys : List β}
    (h : List.Forall₂ r xs ys) (index : Nat) :
    (xs[index]? = none ∧ ys[index]? = none) ∨
      ∃ x y, xs[index]? = some x ∧ ys[index]? = some y ∧ r x y := by
  induction h generalizing index with
  | nil => exact .inl ⟨rfl, rfl⟩
  | cons hfirst _ ih =>
    cases index with
    | zero => exact .inr ⟨_, _, rfl, rfl, hfirst⟩
    | succ index => exact ih index

namespace Dictionary

/-- Dictionaries with the same keys and related values, entry by entry. -/
theorem forall₂_entries {α : Type} {related : α → α → Prop} {xs ys : Dictionary α}
    (hkeys : xs.keys = ys.keys)
    (hvalues : List.Forall₂ related (xs.map (·.2)) (ys.map (·.2))) :
    List.Forall₂ (fun x y => x.1 = y.1 ∧ related x.2 y.2) xs ys := by
  induction xs generalizing ys with
  | nil =>
    cases ys with
    | nil => exact .nil
    | cons => simp [keys] at hkeys
  | cons x xs ih =>
    cases ys with
    | nil => simp [keys] at hkeys
    | cons y ys =>
      rcases List.cons.inj hkeys with ⟨hkey, hrest⟩
      rw [List.map_cons, List.map_cons, List.forall₂_cons] at hvalues
      exact .cons ⟨hkey, hvalues.1⟩ (ih hrest hvalues.2)

end Dictionary

/-- Zero is known by its key, whatever its sign. -/
theorem Double.isZero_eq (d : Double) : d.isZero = (d.key == 0) := by
  rw [Bool.eq_iff_iff, isZero, key, beq_iff_eq, beq_iff_eq]
  split <;> omega

namespace Json

variable {related : Number → Number → Prop} {a b c : Json}

theorem Alike.refl (hrelated : ∀ n, related n n) (a : Json) : a.Alike related a := by
  induction a using Json.induction with
  | null => exact .null
  | bool value => exact .bool value
  | number n => exact .number (hrelated n)
  | string text => exact .string text
  | array items ih => exact .array (List.forall₂_same.2 ih)
  | object members ih =>
    exact .object rfl (List.forall₂_same.2 (List.forall_mem_map.2 ih))

theorem Alike.symm (hrelated : ∀ m n, related m n → related n m) (h : a.Alike related b) :
    b.Alike related a := by
  induction a using Json.induction generalizing b with
  | null =>
    cases h
    exact .null
  | bool value =>
    cases h
    exact .bool value
  | string text =>
    cases h
    exact .string text
  | number n =>
    cases h with
    | number h => exact .number (hrelated _ _ h)
  | array items ih =>
    cases h with
    | array hitems =>
      exact .array (List.Forall₂.flip (forall₂_imp_of_mem (fun x hx y _ => ih x hx) hitems))
  | object members ih =>
    cases h with
    | object hkeys hvalues =>
      have ih : ∀ x ∈ members.map (·.2), ∀ y, x.Alike related y → y.Alike related x :=
        List.forall_mem_map.2 fun entry hentry _ => ih entry hentry
      exact .object hkeys.symm
        (List.Forall₂.flip (forall₂_imp_of_mem (fun x hx y _ => ih x hx y) hvalues))

theorem Alike.trans (hrelated : ∀ l m n, related l m → related m n → related l n)
    (h : a.Alike related b) (h' : b.Alike related c) : a.Alike related c := by
  induction a using Json.induction generalizing b c with
  | null =>
    cases h
    exact h'
  | bool value =>
    cases h
    exact h'
  | string text =>
    cases h
    exact h'
  | number n =>
    cases h with
    | number h =>
      cases h' with
      | number h' => exact .number (hrelated _ _ _ h h')
  | array items ih =>
    cases h with
    | array hitems =>
      cases h' with
      | array hitems' =>
        have ih : ∀ x ∈ items, ∀ y z, x.Alike related y → y.Alike related z → x.Alike related z :=
          fun x hx _ _ => ih x hx
        exact .array (forall₂_trans_of_mem ih hitems hitems')
  | object members ih =>
    cases h with
    | object hkeys hvalues =>
      cases h' with
      | object hkeys' hvalues' =>
        have ih : ∀ x ∈ members.map (·.2), ∀ y z, x.Alike related y → y.Alike related z →
            x.Alike related z :=
          List.forall_mem_map.2 fun entry hentry _ _ => ih entry hentry
        exact .object (hkeys.trans hkeys') (forall₂_trans_of_mem ih hvalues hvalues')

/-! ## Loose equality -/

/-- Values that are built alike and whose numbers have nearest doubles of one value. -/
abbrev Resembles : Json → Json → Prop := Alike fun m n => m.toDouble.value = n.toDouble.value

theorem Resembles.refl (a : Json) : a.Resembles a := by
  apply Alike.refl
  intro n
  rfl

theorem Resembles.symm (h : a.Resembles b) : b.Resembles a := by
  refine Alike.symm ?_ h
  intro m n hmn
  exact hmn.symm

theorem Resembles.trans (h : a.Resembles b) (h' : b.Resembles c) : a.Resembles c := by
  refine Alike.trans ?_ h h'
  intro l m n hlm hmn
  exact hlm.trans hmn

/-- Loosely equal values are loosely equal to the same values. -/
theorem looseEq_congr {a' b' : Json} (ha : a.Tidy) (ha' : a'.Tidy) (hb : b.Tidy) (hb' : b'.Tidy)
    (h : a.Resembles a') (h' : b.Resembles b') : looseEq a b = looseEq a' b' := by
  rw [Bool.eq_iff_iff, looseEq_iff_alike ha hb, looseEq_iff_alike ha' hb']
  constructor
  · intro hab
    exact h.symm.trans (Resembles.trans hab h')
  · intro hab
    exact h.trans (Resembles.trans hab h'.symm)

/-- On tidy values loose equality is an equivalence. -/
theorem looseEq_equivalence :
    Equivalence fun a b : {value : Json // value.Tidy} => looseEq a.1 b.1 = true where
  refl := by
    rintro ⟨a, ha⟩
    exact (looseEq_iff_alike ha ha).2 (Resembles.refl a)
  symm := by
    rintro ⟨a, ha⟩ ⟨b, hb⟩ h
    exact (looseEq_iff_alike hb ha).2 (Resembles.symm ((looseEq_iff_alike ha hb).1 h))
  trans := by
    rintro ⟨a, ha⟩ ⟨b, hb⟩ ⟨c, hc⟩ h h'
    exact (looseEq_iff_alike ha hc).2
      (Resembles.trans ((looseEq_iff_alike ha hb).1 h) ((looseEq_iff_alike hb hc).1 h'))

theorem isTruthy_congr (h : a.Resembles b) : a.isTruthy = b.isTruthy := by
  cases h with
  | null | bool | string | array | object => rfl
  | number h =>
    have hkey := eq_of_beq (Double.sameValue_iff.2 h)
    rw [isTruthy, isTruthy, Double.isZero_eq, Double.isZero_eq, hkey]

end Json

/-! ## Matching -/

namespace Condition

open Json (Resembles)

variable {v v' e e' : Json}

theorem tidy_part (hv : v.Tidy) (key : String) : (part v key).Tidy := by
  cases hv with
  | @object members hsorted hmembers =>
    rw [part]
    cases hfind : Dictionary.find? members key with
    | none => exact .null
    | some found => exact hmembers key found (Dictionary.mem_of_find? hfind)
  | @array items hitems =>
    rw [part]
    cases hfind : (index? key).bind (items[·]?) with
    | none => exact .null
    | some found =>
      rcases Option.bind_eq_some_iff.1 hfind with ⟨index, -, hitem⟩
      exact hitems found (List.mem_of_getElem? hitem)
  | null | bool | number | string => exact .null

/-- Loosely equal values have loosely equal parts. -/
theorem part_congr (hv : v.Tidy) (h : v.Resembles v') (key : String) :
    (part v key).Resembles (part v' key) := by
  cases h with
  | @object xs ys hkeys hvalues =>
    rw [part, part]
    cases hv with
    | object hsorted =>
      have hmembers := (Dictionary.forall₂_of_keys_eq hsorted hkeys).2 hvalues
      cases hfind : Dictionary.find? xs key with
      | none =>
        -- what is absent is read as null on both sides
        have hnone : Dictionary.find? ys key = none := by
          rw [Dictionary.find?_eq_none, ← hkeys, ← Dictionary.find?_eq_none]
          exact hfind
        rw [hnone]
        exact .null
      | some x =>
        rcases hmembers _ (Dictionary.mem_of_find? hfind) with ⟨y, hy, hxy⟩
        rw [hy]
        exact hxy
  | @array xs ys hitems =>
    rw [part, part]
    cases index? key with
    | none => exact .null
    | some index =>
      rcases forall₂_getElem? hitems index with ⟨hx, hy⟩ | ⟨x, y, hx, hy, hxy⟩
      · rw [Option.bind_some, Option.bind_some, hx, hy]
        exact .null
      · rw [Option.bind_some, Option.bind_some, hx, hy]
        exact hxy
  | null | bool | number | string => exact .null

theorem hasParts_congr (h : v.Resembles v') : hasParts v = hasParts v' := by
  cases h <;> rfl

theorem holdsForSome_eq (value : Json) (options : List Json) :
    holdsForSome value options = (options.map (holdsFor value)).or := by
  induction options with
  | nil => rfl
  | cons option rest ih => rw [holdsForSome, ih, List.map_cons, List.or_cons]

theorem holdsForParts_eq (value : Json) (members : List (String × Json)) :
    holdsForParts value members =
      (members.map fun member => holdsFor (part value member.1) member.2).and := by
  induction members with
  | nil => rfl
  | cons member rest ih => rw [holdsForParts, ih, List.map_cons, List.and_cons]

/-- Matching does not see through loose equality, on either side. -/
theorem holdsFor_congr (hv : v.Tidy) (hv' : v'.Tidy) (h : v.Resembles v') (h' : e.Resembles e') :
    holdsFor v e = holdsFor v' e' := by
  -- the induction is on what is expected: an object of it goes on with parts of the value
  induction e using Json.induction generalizing v v' e' with
  | null =>
    cases h'
    exact Json.looseEq_congr .null .null hv hv' (Resembles.refl _) h
  | bool value =>
    cases h'
    exact Json.looseEq_congr (.bool _) (.bool _) hv hv' (Resembles.refl _) h
  | number n =>
    cases h' with
    | number hn => exact Json.looseEq_congr (.number _) (.number _) hv hv' (.number hn) h
  | string text =>
    cases h'
    rw [holdsFor, holdsFor, Json.isTruthy_congr h,
      Json.looseEq_congr (.string _) (.string _) hv hv' (Resembles.refl _) h]
  | array options ih =>
    cases h' with
    | array hoptions =>
      -- the options are loosely equal one by one
      rw [holdsFor, holdsFor, holdsForSome_eq, holdsForSome_eq, map_eq_map_of_forall₂]
      exact forall₂_imp_of_mem (fun x hx y _ hxy => ih x hx hv hv' h hxy) hoptions
  | object members ih =>
    cases h' with
    | @object _ members' hkeys hvalues =>
      have hparts : members.map (fun member => holdsFor (part v member.1) member.2) =
          members'.map fun member => holdsFor (part v' member.1) member.2 := by
        apply map_eq_map_of_forall₂
        refine forall₂_imp_of_mem ?_ (Dictionary.forall₂_entries hkeys hvalues)
        rintro x hx y - ⟨hkey, hxy⟩
        rw [← hkey]
        exact ih x hx (tidy_part hv x.1) (tidy_part hv' x.1) (part_congr hv h x.1) hxy
      rw [holdsFor, holdsFor, hasParts_congr h, holdsForParts_eq, holdsForParts_eq, hparts]

end Condition

/-! ## Conditions -/

/-- Loose equality is an equivalence of tidy values that conditions do not see through. Loosely equal
values have the same truth and match loosely equal expected values alike, and a condition evaluates
to the same on variables that are loosely equal one by one. -/
theorem looseEq_indiscernible {v v' e e' : Json} (hv : v.Tidy) (hv' : v'.Tidy) (he : e.Tidy)
    (he' : e'.Tidy) {bindings bindings' : String → Json} (hbindings : ∀ name, (bindings name).Tidy)
    (hbindings' : ∀ name, (bindings' name).Tidy) :
    (Equivalence fun a b : {value : Json // value.Tidy} => Json.looseEq a.1 b.1 = true) ∧
    (Json.looseEq v v' = true → Json.looseEq e e' = true →
      v.isTruthy = v'.isTruthy ∧ Condition.holdsFor v e = Condition.holdsFor v' e') ∧
    ((∀ name, Json.looseEq (bindings name) (bindings' name) = true) →
      ∀ condition, Condition.evaluate bindings condition = Condition.evaluate bindings' condition) := by
  refine ⟨Json.looseEq_equivalence, ?_, ?_⟩
  · intro h h'
    have hvalues := (Json.looseEq_iff_alike hv hv').1 h
    have hexpected := (Json.looseEq_iff_alike he he').1 h'
    exact ⟨Json.isTruthy_congr hvalues, Condition.holdsFor_congr hv hv' hvalues hexpected⟩
  · intro h condition
    -- a condition looks at variables through what they match only
    apply Condition.evaluateGroup_congr
    intro name _
    funext expected
    have hvalues := (Json.looseEq_iff_alike (hbindings name) (hbindings' name)).1 (h name)
    exact Condition.holdsFor_congr (hbindings name) (hbindings' name) hvalues (.refl _)

/-- The number one in both spellings and the two zeros. -/
theorem looseEq_indiscernible_zeros :
    let one : Number := .integer 1 (by decide) (by decide)
    let one' : Number := .double ⟨false, 0x3FF0000000000000, by decide⟩
    let zero : Number := .double Double.zero
    let zero' : Number := .double (Double.zero.withSign true)
    let v : Json := .array [.number one, .object [("x", .number zero)]]
    let v' : Json := .array [.number one', .object [("x", .number zero')]]
    v ≠ v' ∧ Json.looseEq v' v = true ∧
      Condition.holdsFor v (.object [("1", .object [("x", .number zero')])]) =
        Condition.holdsFor v' (.object [("1", .object [("x", .number zero)])]) ∧
      ∀ condition, Condition.evaluate (fun _ => v) condition =
        Condition.evaluate (fun _ => v') condition := by
  intro one one' zero zero' v v'
  have hlist : ∀ m n : Number, Json.Tidy (.array [.number m, .object [("x", .number n)]]) := by
    intro m n
    exact .array (List.forall_mem_cons.2
      ⟨.number m, List.forall_mem_singleton.2 (.single (.number n) _)⟩)
  have hexpected : ∀ n : Number, Json.Tidy (.object [("1", .object [("x", .number n)])]) :=
    fun n => .single (.single (.number n) _) _
  have hsame : Json.looseEq v v' = true := by decide +kernel
  have hsame' : Json.looseEq (.object [("1", .object [("x", .number zero')])])
      (.object [("1", .object [("x", .number zero)])]) = true := by decide +kernel
  rcases looseEq_indiscernible (hlist one zero) (hlist one' zero') (hexpected zero')
    (hexpected zero) (fun _ => hlist one zero) (fun _ => hlist one' zero') with
    ⟨hequivalence, hmatches, hconditions⟩
  refine ⟨by decide, ?_, (hmatches hsame hsame').2, hconditions fun _ => hsame⟩
  exact hequivalence.symm (x := ⟨v, hlist one zero⟩) (y := ⟨v', hlist one' zero'⟩) hsame

end SentenceEngine
