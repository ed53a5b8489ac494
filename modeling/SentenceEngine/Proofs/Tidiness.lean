import SentenceEngine.Json.Reader
import SentenceEngine.Proofs.Remaining

/-!
# Tidy values

No key occurs twice in an object, because every dictionary is made by storing one entry after the
other. Here this is followed from the text of a document to the programs that are read from it, and
to instructions that are put together parameter by parameter.

* `Json.Tidy`: no object in a value has a key twice.
* `Json.tidies_readValue`: whatever is read is tidy.
* `Sentence.tidy_ofJson`: programs of tidy values.
-/

namespace SentenceEngine

/-- The members of all objects in a value stand in the order of their keys, each key once. -/
inductive Json.Tidy : Json → Prop
  | null : Tidy .null
  | bool (value : Bool) : Tidy (.bool value)
  | number (value : Number) : Tidy (.number value)
  | string (text : String) : Tidy (.string text)
  | array {items : List Json} (hitems : ∀ item ∈ items, Tidy item) : Tidy (.array items)
  | object {members : Members} (hsorted : members.Sorted)
      (hmembers : ∀ key value, (key, value) ∈ members → Tidy value) : Tidy (.object members)

namespace Dictionary

theorem mem_of_find? {α : Type} {d : Dictionary α} {key : String} {value : α}
    (h : d.find? key = some value) : (key, value) ∈ d := by
  induction d with
  | nil => cases h
  | cons entry rest ih =>
    obtain ⟨k, v⟩ := entry
    simp only [find?] at h
    split at h
    next hkey =>
      cases h
      rw [hkey]
      exact List.mem_cons_self
    next => exact List.mem_cons_of_mem _ (ih h)

theorem find?_of_mem {α : Type} {d : Dictionary α} (hsorted : d.Sorted) {key : String} {value : α}
    (h : (key, value) ∈ d) : d.find? key = some value := by
  induction d with
  | nil => cases h
  | cons entry rest ih =>
    obtain ⟨k, v⟩ := entry
    obtain ⟨hfirst, hrest⟩ := List.pairwise_cons.1 hsorted
    rcases List.mem_cons.1 h with heq | hmem
    · cases heq
      simp [find?]
    · have hne : k ≠ key := by
        intro hkey
        have hlt := hfirst _ hmem
        rw [hkey] at hlt
        exact String.lt_irrefl _ hlt
      simp only [find?, if_neg hne]
      exact ih hrest hmem

theorem mem_iff_find? {α : Type} {d : Dictionary α} (hsorted : d.Sorted) {key : String}
    {value : α} : (key, value) ∈ d ↔ d.find? key = some value :=
  ⟨find?_of_mem hsorted, mem_of_find?⟩

theorem Sorted.nodup_keys {α : Type} {d : Dictionary α} (h : d.Sorted) : d.keys.Nodup :=
  nodup_of_increasing id (sorted_iff_keys.1 h)

/-- What lies on top is found first. -/
theorem find?_merge {α : Type} {base overrides : Dictionary α} (hkeys : overrides.keys.Nodup)
    (key : String) :
    (base.merge overrides).find? key = (overrides.find? key <|> base.find? key) := by
  induction overrides generalizing base with
  | nil => rfl
  | cons entry rest ih =>
    obtain ⟨k, value⟩ := entry
    obtain ⟨hfirst, hrest⟩ := List.nodup_cons.1 hkeys
    have hmerge : (base.merge ((k, value) :: rest)).find? key =
        (find? rest key <|> (base.insert k value).find? key) := ih hrest
    rw [hmerge, find?_insert]
    by_cases hkey : key = k
    · simp [hkey, find?_eq_none.2 hfirst, find?]
    · simp [hkey, Ne.symm hkey, find?]

/-- In the order of their keys, dictionaries that answer alike are the same. -/
theorem eq_of_find? {α : Type} {d d' : Dictionary α} (h : d.Sorted) (h' : d'.Sorted)
    (heq : ∀ key, d.find? key = d'.find? key) : d = d' := by
  refine eq_of_increasing Prod.fst h h' ?_
  rintro ⟨key, value⟩
  rw [mem_iff_find? h, mem_iff_find? h', heq]

end Dictionary

theorem Json.Tidy.find? {members : Members} (h : Json.Tidy (.object members)) {key : String}
    {value : Json} (hfind : members.find? key = some value) : value.Tidy := by
  cases h with
  | object hsorted hmembers => exact hmembers key value (Dictionary.mem_of_find? hfind)

theorem Json.Tidy.erase {members : Members} (h : Json.Tidy (.object members)) (key : String) :
    Json.Tidy (.object (members.erase key)) := by
  cases h with
  | object hsorted hmembers =>
    refine .object (hsorted.erase key) ?_
    intro other value hmem
    exact hmembers other value ((Dictionary.erase_sublist members key).subset hmem)

theorem Json.Tidy.insert {members : Members} (h : Json.Tidy (.object members)) (key : String)
    {value : Json} (hvalue : value.Tidy) : Json.Tidy (.object (members.insert key value)) := by
  cases h with
  | object hsorted hmembers =>
    refine .object (hsorted.insert key value) ?_
    intro other found hmem
    have hfind := Dictionary.find?_of_mem (hsorted.insert key value) hmem
    rw [Dictionary.find?_insert] at hfind
    split at hfind
    · cases hfind
      exact hvalue
    · exact hmembers other found (Dictionary.mem_of_find? hfind)

theorem Json.tidy_empty : Json.Tidy (.object []) := .object .nil (by simp)

theorem Json.Tidy.single {value : Json} (h : value.Tidy) (key : String) :
    Json.Tidy (.object [(key, value)]) :=
  Json.tidy_empty.insert key h

theorem Json.Tidy.merge {base overrides : Members} (h : Json.Tidy (.object base))
    (hoverrides : ∀ entry ∈ overrides, entry.2.Tidy) :
    Json.Tidy (.object (Dictionary.merge base overrides)) := by
  induction overrides generalizing base with
  | nil => exact h
  | cons entry rest ih =>
    rcases List.forall_mem_cons.1 hoverrides with ⟨hentry, hrest⟩
    exact ih (h.insert entry.1 hentry) hrest

/-- Two steps that succeed one after the other. -/
theorem exists_ok_of_bind {ε α β : Type} {first : Except ε α} {next : α → Except ε β} {b : β}
    (h : first >>= next = .ok b) : ∃ a, first = .ok a ∧ next a = .ok b := by
  cases first with
  | error error => cases h
  | ok a => exact ⟨a, rfl, h⟩

theorem exists_ok_of_map {ε α β : Type} {f : α → β} {first : Except ε α} {b : β}
    (h : first.map f = .ok b) : ∃ a, first = .ok a ∧ f a = b := by
  cases first with
  | error error => cases h
  | ok a => exact ⟨a, rfl, Except.ok.inj h⟩

/-! ## Documents -/

namespace Json

/-- A reader gives tidy values only. -/
def Tidies (item : Reader Json) : Prop :=
  ∀ text value rest, item text = .ok (value, rest) → value.Tidy

theorem tidy_readItems {item : Reader Json} (hitem : Tidies item) {size : Nat} {first : Bool}
    {text : List Char} {items : List Json} {rest : List Char}
    (h : readItems item size first text = .ok (items, rest)) : ∀ value ∈ items, value.Tidy := by
  induction size generalizing first text items rest with
  | zero => cases h
  | succ size ih =>
    unfold readItems at h
    obtain ⟨next, -, h⟩ := exists_ok_of_bind h
    cases next with
    | close after =>
      cases h
      simp
    | entry text =>
      obtain ⟨⟨value, after⟩, hvalue, h⟩ := exists_ok_of_bind h
      obtain ⟨⟨values, after'⟩, hvalues, h⟩ := exists_ok_of_bind h
      cases h
      intro other hother
      rcases List.mem_cons.1 hother with rfl | hother
      · exact hitem _ _ _ hvalue
      · exact ih hvalues other hother

theorem tidy_readMembers {limit : Nat} {item : Reader Json} (hitem : Tidies item) {size : Nat}
    {first : Bool} {members members' : Members} {text rest : List Char}
    (hmembers : Tidy (.object members))
    (h : readMembers limit item size first members text = .ok (members', rest)) :
    Tidy (.object members') := by
  induction size generalizing first members text with
  | zero => cases h
  | succ size ih =>
    unfold readMembers at h
    obtain ⟨next, -, h⟩ := exists_ok_of_bind h
    cases next with
    | close after =>
      cases h
      exact hmembers
    | entry text =>
      obtain ⟨⟨key, after⟩, -, h⟩ := exists_ok_of_bind h
      obtain ⟨after', -, h⟩ := exists_ok_of_bind h
      obtain ⟨⟨value, after''⟩, hvalue, h⟩ := exists_ok_of_bind h
      exact ih (hmembers.insert key (hitem _ _ _ hvalue)) h

/-- Every value that is read is tidy, however deep it is nested. -/
theorem tidies_readValue (size depth : Nat) : Tidies (readValue size depth) := by
  induction depth using Nat.strongRecOn with
  | ind depth ih =>
    intro text value rest h
    unfold readValue at h
    -- one case for each character that a value can start with
    split at h
    · cases h
    · obtain ⟨_, -, h⟩ := exists_ok_of_bind h
      cases h
      exact .null
    · obtain ⟨_, -, h⟩ := exists_ok_of_bind h
      cases h
      exact .bool true
    · obtain ⟨_, -, h⟩ := exists_ok_of_bind h
      cases h
      exact .bool false
    · obtain ⟨_, -, h⟩ := exists_ok_of_bind h
      cases h
      exact .string _
    · obtain ⟨_, -, h⟩ := exists_ok_of_bind h
      cases h
      exact .number _
    · -- the items are nested one level deeper
      cases depth with
      | zero => cases h
      | succ depth =>
        obtain ⟨⟨items, after⟩, hitems, h⟩ := exists_ok_of_bind h
        cases h
        exact .array (tidy_readItems (ih depth (Nat.lt_succ_self depth)) hitems)
    · -- so are the members, which are stored one after the other
      cases depth with
      | zero => cases h
      | succ depth =>
        obtain ⟨⟨members, after⟩, hmembers, h⟩ := exists_ok_of_bind h
        cases h
        exact tidy_readMembers (ih depth (Nat.lt_succ_self depth)) tidy_empty hmembers
    · split at h
      · obtain ⟨_, -, h⟩ := exists_ok_of_bind h
        cases h
        exact .number _
      · cases h

/-- A document is tidy. -/
theorem tidy_read {text : String} {value : Json} (h : read text = .ok value) : value.Tidy := by
  unfold read readWithin at h
  obtain ⟨⟨found, rest⟩, hfound, h⟩ := exists_ok_of_bind h
  obtain ⟨_, -, h⟩ := exists_ok_of_bind h
  cases h
  exact tidies_readValue _ _ _ _ _ hfound

end Json

/-! ## Programs -/

/-- The parameters of all instructions of a sentence are tidy. -/
def Sentence.Tidy (program : Sentence) : Prop :=
  ∀ i ∈ program.instructions, Json.Tidy (.object i.params)

mutual
/-- A program that is read from a tidy value is tidy. -/
theorem Sentence.tidy_ofJson {value : Json} {sentence : Sentence} (htidy : value.Tidy)
    (h : Sentence.ofJson value = .ok sentence) : sentence.Tidy := by
  match value with
  | .string text =>
    cases h
    intro i hi
    cases hi
  | .object members =>
    simp only [Sentence.ofJson, Instruction.ofMembers] at h
    split at h
    · cases h
      intro i hi
      rw [List.mem_singleton.1 hi]
      exact htidy.erase _
    · cases h
  | .array items =>
    simp only [Sentence.ofJson] at h
    rcases hitems : Sentence.ofItems items with error | sentences
    · rw [hitems] at h
      cases h
    · rw [hitems] at h
      cases h
      cases htidy with
      | array hall => exact Sentence.tidy_ofItems hall hitems
  | .null => cases h
  | .bool _ => cases h
  | .number _ => cases h

theorem Sentence.tidy_ofItems {items : List Json} {sentences : List Sentence}
    (htidy : ∀ item ∈ items, item.Tidy) (h : Sentence.ofItems items = .ok sentences) :
    ∀ i ∈ Sequence.instructions sentences, Json.Tidy (.object i.params) := by
  match items with
  | [] =>
    cases h
    intro i hi
    cases hi
  | item :: rest =>
    simp only [Sentence.ofItems] at h
    obtain ⟨sentence, hitem, h⟩ := exists_ok_of_bind h
    obtain ⟨more, hrest, h⟩ := exists_ok_of_bind h
    cases h
    intro i hi
    rcases List.mem_append.1 hi with hfirst | hmore
    · exact Sentence.tidy_ofJson (htidy item List.mem_cons_self) hitem i hfirst
    · refine Sentence.tidy_ofItems ?_ hrest i hmore
      intro other hother
      exact htidy other (List.mem_cons_of_mem _ hother)
end

/-- A program that is read from a document is tidy. -/
theorem Sentence.tidy_read {text : String} {value : Json} {program : Sentence}
    (hread : Json.read text = .ok value) (hparse : Sentence.ofJson value = .ok program) :
    program.Tidy :=
  Sentence.tidy_ofJson (Json.tidy_read hread) hparse

/-- A parameter that is added to an instruction leaves it tidy. -/
theorem Json.Tidy.withParam {i : Instruction} (h : Json.Tidy (.object i.params)) (key : String)
    {value : Json} (hvalue : value.Tidy) : Json.Tidy (.object (i.withParam key value).params) :=
  h.insert key hvalue

end SentenceEngine
