/-!
# Dictionaries

Finite maps from strings, as lists of entries with strictly increasing keys. Strings are ordered by
code points, which is also the order of their UTF-8 bytes. Whatever visits a dictionary visits its
entries in this order. Every dictionary that the library builds is made by `insert` and `erase`.
-/

namespace SentenceEngine

/-- Entries with strictly increasing keys. -/
abbrev Dictionary (α : Type) := List (String × α)

namespace Dictionary

variable {α : Type}

/-- The value stored under a key. -/
def find? : Dictionary α → String → Option α
  | [], _ => none
  | (k, v) :: rest, key => if k = key then some v else find? rest key

/-- Whether a key is present. -/
def hasKey (d : Dictionary α) (key : String) : Bool := (find? d key).isSome

/-- Stores a value under a key, in place of an earlier one. -/
def insert : Dictionary α → String → α → Dictionary α
  | [], key, value => [(key, value)]
  | (k, v) :: rest, key, value =>
    if key < k then (key, value) :: (k, v) :: rest
    else if key = k then (key, value) :: rest
    else (k, v) :: insert rest key value

/-- Removes a key. -/
def erase : Dictionary α → String → Dictionary α
  | [], _ => []
  | (k, v) :: rest, key => if k = key then rest else (k, v) :: erase rest key

/-- The keys, in increasing order. -/
def keys (d : Dictionary α) : List String := d.map (·.1)

/-- Copies every entry of `overrides` over `base`, in place of entries with the same key. -/
def merge (base overrides : Dictionary α) : Dictionary α :=
  overrides.foldl (fun d entry => insert d entry.1 entry.2) base

/-- The dictionary of a list of entries; of two entries with one key the later one counts. -/
def ofEntries (entries : List (String × α)) : Dictionary α := merge [] entries

/-! ## Looking up -/

theorem find?_eq_none {d : Dictionary α} {key : String} : find? d key = none ↔ key ∉ keys d := by
  fun_induction find? d key with
  | case1 => simp [keys]
  | case2 => simp [keys]
  | case3 _ _ _ _ hne ih => simp_all [keys, eq_comm]

/-- What is stored under a key is found there, and nothing changes elsewhere. -/
theorem find?_insert (d : Dictionary α) (key : String) (value : α) (other : String) :
    find? (insert d key value) other = if other = key then some value else find? d other := by
  fun_induction insert d key value with
  | case1 => simp [find?, eq_comm]
  | case2 => grind [find?]
  | case3 => grind [find?]
  | case4 => grind [find?]

/-! ## The order of keys -/

/-- In a list in strictly increasing order of its keys nothing occurs twice. -/
theorem nodup_of_increasing {β : Type} (key : β → String) {l : List β}
    (h : l.Pairwise fun x y => key x < key y) : l.Nodup := by
  refine h.imp ?_
  rintro x y hlt rfl
  exact String.lt_irrefl _ hlt

/-- Such a list is determined by what occurs in it. -/
theorem eq_of_increasing {β : Type} (key : β → String) {l l' : List β}
    (h : l.Pairwise fun x y => key x < key y) (h' : l'.Pairwise fun x y => key x < key y)
    (hmem : ∀ x, x ∈ l ↔ x ∈ l') : l = l' := by
  have hperm : l.Perm l' := (List.perm_ext_iff_of_nodup (nodup_of_increasing key h)
    (nodup_of_increasing key h')).2 hmem
  refine hperm.eq_of_pairwise ?_ h h'
  intro x y _ _ hxy hyx
  exact absurd (String.lt_trans hxy hyx) (String.lt_irrefl _)

/-- Keys strictly increase, so no key occurs twice. -/
def Sorted (d : Dictionary α) : Prop := d.Pairwise (·.1 < ·.1)

theorem sorted_iff_keys {d : Dictionary α} : Sorted d ↔ (keys d).Pairwise (· < ·) := by
  simp [Sorted, keys, List.pairwise_map]

theorem mem_keys_insert {d : Dictionary α} {key : String} {value : α} {k : String} :
    k ∈ keys (insert d key value) ↔ k = key ∨ k ∈ keys d := by
  fun_induction insert d key value with
  | case1 => simp [keys]
  | case2 => simp [keys]
  | case3 => simp [keys]
  | case4 _ _ _ _ _ _ _ ih => simp only [keys, List.map_cons, List.mem_cons] at ih ⊢; grind

theorem Sorted.insert {d : Dictionary α} (h : Sorted d) (key : String) (value : α) :
    Sorted (insert d key value) := by
  rw [sorted_iff_keys] at h ⊢
  fun_induction Dictionary.insert d key value with
  | case1 => simp [keys]
  | case2 k v rest key value hlt =>
    simp only [keys, List.map_cons, List.pairwise_cons, List.mem_cons] at h ⊢
    refine ⟨?_, h⟩
    rintro x (rfl | hx)
    · exact hlt
    · exact String.lt_trans hlt (h.1 x hx)
  | case3 => simpa [keys] using h
  | case4 k v rest key value hlt hne ih =>
    simp only [keys, List.map_cons, List.pairwise_cons] at h ⊢
    refine ⟨?_, ih h.2⟩
    intro x hx
    rcases mem_keys_insert.1 hx with rfl | hx
    · exact Std.lt_of_le_of_ne (Std.not_lt.1 hlt) (Ne.symm hne)
    · exact h.1 x hx

theorem erase_sublist (d : Dictionary α) (key : String) : (erase d key).Sublist d := by
  fun_induction erase d key with
  | case1 => exact .slnil
  | case2 => exact List.sublist_cons_self _ _
  | case3 _ _ _ _ _ ih => exact ih.cons_cons _

theorem Sorted.erase {d : Dictionary α} (h : Sorted d) (key : String) : Sorted (erase d key) :=
  List.Pairwise.sublist (erase_sublist d key) h

theorem Sorted.merge {base : Dictionary α} (h : Sorted base) (overrides : Dictionary α) :
    Sorted (merge base overrides) := by
  induction overrides generalizing base with
  | nil => exact h
  | cons entry rest ih => exact ih (h.insert entry.1 entry.2)

theorem sorted_ofEntries (entries : List (String × α)) : Sorted (ofEntries entries) :=
  Sorted.merge List.Pairwise.nil entries

/-- A removed key is gone, and nothing changes elsewhere. -/
theorem find?_erase {d : Dictionary α} (h : Sorted d) (key other : String) :
    find? (erase d key) other = if other = key then none else find? d other := by
  fun_induction erase d key with
  | case1 => simp [find?]
  | case2 v rest key =>
    have hk : find? rest key = none := by
      rw [find?_eq_none]
      intro hmem
      rw [sorted_iff_keys] at h
      exact String.lt_irrefl _ ((List.pairwise_cons.1 h).1 _ hmem)
    grind [find?]
  | case3 k v rest key hne ih =>
    have := ih (List.pairwise_cons.1 h).2
    grind [find?]

end Dictionary
end SentenceEngine
