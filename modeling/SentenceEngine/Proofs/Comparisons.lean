import Mathlib.Data.List.Forall2
import Mathlib.Data.List.Sort
import SentenceEngine.Json.Loose
import SentenceEngine.Proofs.Nearest
import SentenceEngine.Proofs.Tidiness
import SentenceEngine.Proofs.Unfolding

/-!
# Comparing numbers

Numbers are made doubles before they are compared, in loose equality as well as with the bounds of a
schema. Loose equality carries this through lists and objects: two values are loosely equal just if
they are built alike and their numbers are. The comparison is that of the real numbers as long as
rounding leaves them alone, and an error goes one way only: equal numbers are always found equal,
and numbers within bounds are always let pass.

* `Json.Alike`: two values that differ in their numbers at most.
* `Json.looseEq_iff_alike`: loose equality, as a relation of values in the order of their keys.
* `Schema.decides_check_number`: what a node for numbers asks.
* `compared_as_doubles`: both comparisons, and where they are exact.
-/

namespace SentenceEngine

/-! ## Likeness -/

/-- Two values that are built alike and whose numbers are related. -/
inductive Json.Alike (related : Number → Number → Prop) : Json → Json → Prop
  | null : Alike related .null .null
  | bool (value : Bool) : Alike related (.bool value) (.bool value)
  | number {m n : Number} (h : related m n) : Alike related (.number m) (.number n)
  | string (text : String) : Alike related (.string text) (.string text)
  | array {xs ys : List Json} (h : List.Forall₂ (Alike related) xs ys) :
      Alike related (.array xs) (.array ys)
  | object {xs ys : Members} (hkeys : xs.keys = ys.keys)
      (hvalues : List.Forall₂ (Alike related) (xs.map (·.2)) (ys.map (·.2))) :
      Alike related (.object xs) (.object ys)

/-- All numbers in a value have a property. -/
inductive Json.EachNumber (holds : Number → Prop) : Json → Prop
  | null : EachNumber holds .null
  | bool (value : Bool) : EachNumber holds (.bool value)
  | number {n : Number} (h : holds n) : EachNumber holds (.number n)
  | string (text : String) : EachNumber holds (.string text)
  | array {items : List Json} (hitems : ∀ item ∈ items, EachNumber holds item) :
      EachNumber holds (.array items)
  | object {members : Members} (hmembers : ∀ value ∈ members.map (·.2), EachNumber holds value) :
      EachNumber holds (.object members)

/-! ## Lists and dictionaries -/

theorem forall₂_imp_of_mem {α β : Type} {r s : α → β → Prop} {xs : List α} {ys : List β}
    (himp : ∀ x ∈ xs, ∀ y ∈ ys, r x y → s x y) (h : List.Forall₂ r xs ys) :
    List.Forall₂ s xs ys := by
  rw [List.forall₂_iff_zip] at h ⊢
  refine ⟨h.1, ?_⟩
  intro x y hmem
  have hboth := List.of_mem_zip hmem
  exact himp x hboth.1 y hboth.2 (h.2 hmem)

namespace Dictionary

variable {α : Type} {related : α → α → Prop} {xs ys : Dictionary α}

theorem forall_mem_values {holds : α → Prop} :
    (∀ value ∈ xs.map (·.2), holds value) ↔ ∀ key value, (key, value) ∈ xs → holds value := by
  simp only [List.mem_map, Prod.exists, exists_eq_right, forall_exists_index]
  exact forall_comm

/-- In the order of their keys, dictionaries of one size have the same keys if one has those of the
other. -/
theorem keys_eq_of_subset (hxs : xs.Sorted) (hys : ys.Sorted) (hlength : xs.length = ys.length)
    (hsubset : xs.keys ⊆ ys.keys) : xs.keys = ys.keys := by
  rw [sorted_iff_keys] at hxs hys
  have hperm : xs.keys.Perm ys.keys := by
    refine (List.subperm_of_subset (nodup_of_increasing id hxs) hsubset).perm_of_length_le ?_
    simp [keys, hlength]
  exact eq_of_increasing id hxs hys fun key => hperm.mem_iff

/-- Looking up each entry is going through two dictionaries side by side. -/
theorem forall₂_of_keys_eq (hxs : xs.Sorted) (hkeys : xs.keys = ys.keys) :
    (∀ entry ∈ xs, ∃ y, ys.find? entry.1 = some y ∧ related entry.2 y) ↔
      List.Forall₂ related (xs.map (·.2)) (ys.map (·.2)) := by
  induction xs generalizing ys with
  | nil =>
    cases ys with
    | nil => simp
    | cons => simp [keys] at hkeys
  | cons entry xs ih =>
    obtain ⟨k, x⟩ := entry
    cases ys with
    | nil => simp [keys] at hkeys
    | cons entry ys =>
      obtain ⟨l, y⟩ := entry
      obtain ⟨rfl, hrest⟩ : k = l ∧ keys xs = keys ys := by simpa [keys] using hkeys
      obtain ⟨hfirst, hsorted⟩ := List.pairwise_cons.1 hxs
      have hothers : ∀ entry ∈ xs, find? ((k, y) :: ys) entry.1 = find? ys entry.1 := by
        intro entry hmem
        have hne : k ≠ entry.1 := fun heq => String.lt_irrefl _ (heq ▸ hfirst _ hmem)
        simp [find?, hne]
      rw [List.forall_mem_cons, List.map_cons, List.map_cons, List.forall₂_cons, ← ih hsorted hrest]
      refine and_congr (by simp [find?]) (forall₂_congr ?_)
      intro entry hmem
      rw [hothers entry hmem]

end Dictionary

/-! ## Loose equality -/

namespace Json

theorem looseEqItems_iff {xs ys : List Json} :
    looseEqItems xs ys = true ↔ List.Forall₂ (fun x y => looseEq x y = true) xs ys := by
  induction xs generalizing ys with
  | nil => cases ys <;> simp [looseEqItems]
  | cons x xs ih => cases ys <;> simp [looseEqItems, ih]

theorem looseEqMembers_iff {xs : List (String × Json)} {others : Members} :
    looseEqMembers xs others = true ↔
      ∀ entry ∈ xs, ∃ y, others.find? entry.1 = some y ∧ looseEq entry.2 y = true := by
  induction xs with
  | nil => simp [looseEqMembers]
  | cons entry xs ih =>
    rw [looseEqMembers, Bool.and_eq_true, ih, List.forall_mem_cons]
    cases hfind : others.find? entry.1 <;> simp

/-- Objects in the order of their keys are loosely equal member by member. -/
theorem looseEq_object_iff {xs ys : Members} (hxs : xs.Sorted) (hys : ys.Sorted) :
    looseEq (.object xs) (.object ys) = true ↔ xs.keys = ys.keys ∧
      List.Forall₂ (fun x y => looseEq x y = true) (xs.map (·.2)) (ys.map (·.2)) := by
  rw [looseEq, Bool.and_eq_true, beq_iff_eq, looseEqMembers_iff]
  constructor
  · rintro ⟨hlength, hmembers⟩
    have hkeys : xs.keys = ys.keys := by
      refine Dictionary.keys_eq_of_subset hxs hys hlength ?_
      intro key hkey
      obtain ⟨entry, hentry, rfl⟩ := List.mem_map.1 hkey
      obtain ⟨y, hfind, -⟩ := hmembers entry hentry
      exact List.mem_map.2 ⟨_, Dictionary.mem_of_find? hfind, rfl⟩
    exact ⟨hkeys, (Dictionary.forall₂_of_keys_eq hxs hkeys).1 hmembers⟩
  · rintro ⟨hkeys, hvalues⟩
    refine ⟨?_, (Dictionary.forall₂_of_keys_eq hxs hkeys).2 hvalues⟩
    simpa [Dictionary.keys] using congrArg List.length hkeys

/-- Likeness depends only on how the numbers in the two values are related. -/
theorem Alike.imp {r s : Number → Number → Prop} {holds : Number → Prop} {a b : Json}
    (himp : ∀ m n, holds m → holds n → r m n → s m n) (ha : a.EachNumber holds)
    (hb : b.EachNumber holds) (h : a.Alike r b) : a.Alike s b := by
  induction ha generalizing b with
  | null =>
    cases h
    exact .null
  | bool value =>
    cases h
    exact .bool value
  | string text =>
    cases h
    exact .string text
  | number hm =>
    cases h with
    | number hrelated =>
      cases hb with
      | number hn => exact .number (himp _ _ hm hn hrelated)
  | array _ ih =>
    cases h with
    | array hitems =>
      cases hb with
      | array hb => exact .array (forall₂_imp_of_mem (fun x hx y hy => ih x hx (hb y hy)) hitems)
  | object _ ih =>
    cases h with
    | object hkeys hvalues =>
      cases hb with
      | object hb =>
        exact .object hkeys (forall₂_imp_of_mem (fun x hx y hy => ih x hx (hb y hy)) hvalues)

theorem Tidy.eachNumber {a : Json} (ha : a.Tidy) : a.EachNumber fun _ => True := by
  induction ha with
  | null => exact .null
  | bool value => exact .bool value
  | number n => exact .number trivial
  | string text => exact .string text
  | array _ ih => exact .array ih
  | object _ _ ih => exact .object (Dictionary.forall_mem_values.2 ih)

/-- Loosely equal values are built alike, and their numbers have the same nearest doubles. -/
theorem looseEq_iff_alike {a b : Json} (ha : a.Tidy) (hb : b.Tidy) :
    looseEq a b = true ↔ a.Alike (fun m n => m.toDouble.value = n.toDouble.value) b := by
  induction ha generalizing b with
  | null =>
    constructor
    · intro h
      cases b <;> simp [looseEq] at h
      exact .null
    · rintro ⟨⟩
      simp [looseEq]
  | bool value =>
    constructor
    · intro h
      cases b <;> simp [looseEq] at h
      exact h ▸ .bool _
    · rintro ⟨⟩
      simp [looseEq]
  | string text =>
    constructor
    · intro h
      cases b <;> simp [looseEq] at h
      exact h ▸ .string _
    · rintro ⟨⟩
      simp [looseEq]
  | number value =>
    constructor
    · intro h
      cases b <;> simp [looseEq] at h
      exact .number (Number.looseEq_iff.1 h)
    · rintro (_ | _ | h)
      rw [looseEq]
      exact Number.looseEq_iff.2 h
  | array hxs ih =>
    constructor
    · intro h
      cases hb <;> simp only [looseEq, Bool.false_eq_true, looseEqItems_iff] at h
      next ys hys =>
        exact .array (forall₂_imp_of_mem (fun x hx y hy => (ih x hx (hys y hy)).1) h)
    · intro h
      cases h with
      | array hitems =>
        cases hb with
        | array hys =>
          rw [looseEq, looseEqItems_iff]
          exact forall₂_imp_of_mem (fun x hx y hy => (ih x hx (hys y hy)).2) hitems
  | object hxs _ ih =>
    have ih := Dictionary.forall_mem_values.2 @ih
    constructor
    · intro h
      cases hb <;> simp only [looseEq, Bool.false_eq_true] at h
      next ys hys hmembers =>
        obtain ⟨hkeys, hvalues⟩ := (looseEq_object_iff hxs hys).1 (by rwa [looseEq])
        have hmembers := Dictionary.forall_mem_values.2 hmembers
        exact .object hkeys
          (forall₂_imp_of_mem (fun x hx y hy => (ih x hx (hmembers y hy)).1) hvalues)
    · intro h
      cases h with
      | object hkeys hvalues =>
        cases hb with
        | object hys hmembers =>
          have hmembers := Dictionary.forall_mem_values.2 hmembers
          exact (looseEq_object_iff hxs hys).2 ⟨hkeys,
            forall₂_imp_of_mem (fun x hx y hy => (ih x hx (hmembers y hy)).2) hvalues⟩

/-- Values that are alike up to the values of their numbers are loosely equal. -/
theorem looseEq_of_alike {a b : Json} (ha : a.Tidy) (hb : b.Tidy)
    (h : a.Alike (fun m n => m.value = n.value) b) : looseEq a b = true := by
  refine (looseEq_iff_alike ha hb).2 (h.imp ?_ ha.eachNumber hb.eachNumber)
  intro m n _ _ hvalue
  exact Number.toDouble_value_congr hvalue

/-- Where all numbers are exact, loose equality is likeness up to the values of numbers. -/
theorem looseEq_iff_of_exact {a b : Json} (ha : a.Tidy) (hb : b.Tidy)
    (hexact : a.EachNumber Number.Exact) (hexact' : b.EachNumber Number.Exact) :
    looseEq a b = true ↔ a.Alike (fun m n => m.value = n.value) b := by
  refine ⟨?_, looseEq_of_alike ha hb⟩
  intro h
  refine ((looseEq_iff_alike ha hb).1 h).imp ?_ hexact hexact'
  intro m n hm hn hnearest
  rw [← hm.toDouble_value, hnearest, hn.toDouble_value]

end Json

/-! ## Bounds -/

/-- A real number lies within inclusive bounds. -/
def InBounds (min max : Option Double) (x : ℚ) : Prop :=
  (∀ bound, min = some bound → bound.value ≤ x) ∧ ∀ bound, max = some bound → x ≤ bound.value

namespace Double

theorem Nearest.inBounds {d : Double} {x : ℚ} (h : d.Nearest x) {min max : Option Double}
    (hx : InBounds min max x) : InBounds min max d.value := by
  constructor
  · intro bound hmin
    exact h.le_of_le (hx.1 bound hmin)
  · intro bound hmax
    exact h.ge_of_ge (hx.2 bound hmax)

end Double

namespace Schema

variable {node : Schema} {min max : Option Double} {n : Number}

theorem closedIn_of_number (hkind : node.kind = .number min max) : node.ClosedIn [] := by
  obtain ⟨optional, name, kind⟩ := node
  change kind = _ at hkind
  subst hkind
  constructor
  · simp [nodes, SchemaKind.nodes, kind, SchemaKind.isPlain]
  · cases name <;> simp [nodes, SchemaKind.nodes, namesOf, name?]
  · simp [nodes, SchemaKind.nodes, kind, SchemaKind.resolves]

/-- A node for numbers, wherever it stands, accepts a number whose nearest double is within the
bounds. -/
theorem decides_check_number (hkind : node.kind = .number min max)
    (analyze : Path → Sentence → Check Unit) (handler : String) (depth : Nat)
    (enclosing : List Schema) (path : Path) :
    Check.Decides (Check.check analyze handler (depth + 1) enclosing node path (.number n))
      (InBounds min max n.toDouble.value) := by
  simp only [Check.check, hkind]
  refine Check.decides_checkNumber.congr ?_
  simp only [InBounds, Double.below_eq_false_iff]

/-- A script that asks for one number is given it just if the number is within the bounds. -/
theorem validate_number_iff {lookup : SchemaLookup} {i : Instruction} {key : String}
    (hkind : node.kind = .number min max) (hlookup : lookup i.handler = some [(key, node)])
    (hparam : i.params.find? key = some (.number n)) :
    (∃ report, validate lookup (.instruction i) = .ok report) ↔
      InBounds min max n.toDouble.value := by
  rw [validate_instruction_iff hlookup (by simpa using closedIn_of_number hkind)]
  simp [belongs_number_iff hkind, hparam, InBounds, maxSchemaDepth, Double.below_eq_false_iff]

end Schema

/-! ## Comparisons -/

/-- Numbers are compared by their nearest doubles. Two values are loosely equal if they are built
alike and their numbers have nearest doubles of one value, so values that differ only in how their
numbers are written are; and a node for numbers asks whether the nearest double lies within its
bounds, so a number within them is let pass. Where numbers are exact, that is for all doubles and
for whole numbers of at most 53 binary digits, this is the comparison of the real numbers. -/
theorem compared_as_doubles {a b : Json} (ha : a.Tidy) (hb : b.Tidy) {node : Schema}
    {min max : Option Double} (hkind : node.kind = .number min max) {lookup : SchemaLookup}
    {i : Instruction} {key : String} {n : Number} (hlookup : lookup i.handler = some [(key, node)])
    (hparam : i.params.find? key = some (.number n)) :
    (∀ m : Number, m.toDouble.Nearest m.value) ∧
    (∀ d : Double, Number.Exact (.double d)) ∧
    (∀ (whole : Int) (hlower : leastInteger ≤ whole) (hupper : whole < integerLimit),
      whole.natAbs ≤ 9007199254740992 → Number.Exact (.integer whole hlower hupper)) ∧
    (Json.looseEq a b = true ↔ a.Alike (fun x y => x.toDouble.value = y.toDouble.value) b) ∧
    (a.Alike (fun x y => x.value = y.value) b → Json.looseEq a b = true) ∧
    (a.EachNumber Number.Exact → b.EachNumber Number.Exact →
      (Json.looseEq a b = true ↔ a.Alike (fun x y => x.value = y.value) b)) ∧
    (∀ analyze handler depth enclosing path, Check.Decides
      (Check.check analyze handler (depth + 1) enclosing node path (.number n))
      (InBounds min max n.toDouble.value)) ∧
    ((∃ report, validate lookup (.instruction i) = .ok report) ↔
      InBounds min max n.toDouble.value) ∧
    (InBounds min max n.value → ∃ report, validate lookup (.instruction i) = .ok report) ∧
    (n.Exact → ((∃ report, validate lookup (.instruction i) = .ok report) ↔
      InBounds min max n.value)) := by
  have hvalid := Schema.validate_number_iff hkind hlookup hparam
  refine ⟨Number.nearest_toDouble, Number.exact_double, fun _ => Number.exact_integer,
    Json.looseEq_iff_alike ha hb, Json.looseEq_of_alike ha hb, Json.looseEq_iff_of_exact ha hb,
    Schema.decides_check_number hkind, hvalid, ?_, ?_⟩
  · intro hbounds
    exact hvalid.2 (n.nearest_toDouble.inBounds hbounds)
  · intro hexact
    rw [hvalid, hexact.toDouble_value]

/-- Past 53 binary digits two whole numbers share their nearest double: they are loosely equal, and
the larger one passes a node whose greatest number is the smaller one. -/
theorem compared_past_53_digits :
    let odd : Number := .integer 9007199254740993 (by decide) (by decide)
    let even : Number := .integer 9007199254740992 (by decide) (by decide)
    let bound : Double := ⟨false, 0x4340000000000000, by decide⟩
    (Json.looseEq (.number odd) (.number even) = true ∧ odd.value ≠ even.value) ∧
    ((∃ report, validate (fun _ => some [("value", .ofKind (.number none (some bound)))])
        (.instruction ⟨"sample", [("value", .number odd)]⟩) = .ok report) ∧
      bound.value = even.value ∧ ¬ InBounds none (some bound) odd.value) := by
  intro odd even bound
  have hsame : odd.toDouble = even.toDouble := by decide +kernel
  have hbound : bound.value = even.value := by
    have hexact : even.Exact := Number.exact_integer (by decide) (by decide) (by decide)
    rw [← hexact.toDouble_value, show even.toDouble = bound by decide +kernel]
  have hless : even.value < odd.value := by norm_num [odd, even, Number.value]
  refine ⟨⟨?_, hless.ne'⟩, ?_, hbound, ?_⟩
  · rw [Json.looseEq]
    exact Number.looseEq_iff.2 (congrArg Double.value hsame)
  · refine (Schema.validate_number_iff rfl rfl rfl).2 ⟨nofun, ?_⟩
    rintro _ ⟨⟩
    rw [hsame, show even.toDouble = bound by decide +kernel]
  · intro hbounds
    have hle := hbounds.2 bound rfl
    rw [hbound] at hle
    exact absurd hless hle.not_gt

/-- A whole number and a double of one value, and the two zeros. -/
theorem compared_one_and_zeros :
    let one : Number := .integer 1 (by decide) (by decide)
    let a : Json := .array [.number one, .object [("x", .number (.double Double.zero))]]
    let b : Json := .array [.number (.double ⟨false, 0x3FF0000000000000, by decide⟩),
      .object [("x", .number (.double (Double.zero.withSign true)))]]
    a.Alike (fun x y => x.value = y.value) b ∧
      ∃ report, validate (fun _ => some [("share", .ofKind (.number (some Double.zero) none))])
        (.instruction ⟨"sample", [("share", .number one)]⟩) = .ok report := by
  intro one a b
  have hone : one.Exact := Number.exact_integer (by decide) (by decide) (by decide)
  have htidy (m : Number) (d : Double) :
      Json.Tidy (.array [.number m, .object [("x", .number (.double d))]]) := by
    refine .array ?_
    simp only [List.forall_mem_cons, List.not_mem_nil, false_imp_iff, implies_true, and_true]
    exact ⟨.number m, .single (.number _) _⟩
  have hexact {m : Number} (hm : m.Exact) (d : Double) : Json.EachNumber Number.Exact
      (.array [.number m, .object [("x", .number (.double d))]]) := by
    refine .array ?_
    simp only [List.forall_mem_cons, List.not_mem_nil, false_imp_iff, implies_true, and_true]
    exact ⟨.number hm, .object (by simpa using .number (Number.exact_double d))⟩
  obtain ⟨-, -, -, -, -, hloose, -, hvalid, -, -⟩ :=
    @compared_as_doubles a b (htidy _ _) (htidy _ _)
      (.ofKind (.number (some Double.zero) none)) (some Double.zero) none rfl
      (fun _ => some [("share", .ofKind (.number (some Double.zero) none))])
      ⟨"sample", [("share", .number one)]⟩ "share" one rfl rfl
  refine ⟨(hloose (hexact hone _) (hexact (Number.exact_double _) _)).1 (by decide +kernel),
    hvalid.2 ⟨?_, nofun⟩⟩
  rintro _ ⟨⟩
  rw [← Double.below_eq_false_iff]
  decide +kernel

end SentenceEngine
