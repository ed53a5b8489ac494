import Mathlib.Data.List.Basic
import SentenceEngine.Condition.Basic

/-!
# Short-circuit evaluation

An evaluation goes through the entries of a group, stops at the one that decides the group or is
malformed, and does the same inside each group that it comes to. Here this is set against what a
condition says when all of its entries are looked at together.

Below, a value is a group by its entries: the members of an object or the items of a list. An entry
that holds leaves a group of all open, one that fails a group of some; every other outcome ends it.

* `Condition.Branch`, `Condition.Holds`: well-formed conditions, and what they say.
* `Condition.Breaks`: a malformed part that comes before the entry that decides.
* `Condition.Comes`: the outcome with the variables that are met on the way.
* `Condition.comes_iff`, `Condition.breaks_iff`: the evaluator has these outcomes and these errors.
* `Condition.evaluate_reading`: all of it together.
-/

namespace SentenceEngine.Condition

/-! ## Entries -/

/-- An entry of a group. -/
inductive Entry where
  /-- A variable and what it is compared with. -/
  | comparison (name : String) (expected : Json)
  /-- A group inside the group. -/
  | group (mode : Mode) (value : Json)
  /-- An item of a list that is no condition. -/
  | stray (item : Json)

/-- The entry of an item: a conjunction, whatever the list is. -/
def Entry.ofItem : Json → Entry
  | .object members => .group .all (.object members)
  | item => .stray item

/-- The entry of a member. -/
def Entry.ofMember (member : String × Json) : Entry :=
  if member.1 = Mode.all.key then .group .all member.2
  else if member.1 = Mode.some.key then .group .some member.2
  else .comparison member.1 member.2

/-- The entries of a group, in the order of its items or keys. -/
def entries? : Json → Option (List Entry)
  | .array items => some (items.map .ofItem)
  | .object members => some (members.map .ofMember)
  | _ => none

theorem mem_of_ofItem {item inner : Json} {mode : Mode} (h : Entry.ofItem item = .group mode inner) :
    mode = .all ∧ inner = item := by
  cases item with
  | object members =>
    cases h
    exact ⟨rfl, rfl⟩
  | null | bool | number | string | array => cases h

theorem ofMember_key (mode : Mode) (value : Json) :
    Entry.ofMember (mode.key, value) = .group mode value := by
  cases mode <;> simp [Entry.ofMember, Mode.key]

theorem ofMember_of_ne {member : String × Json} (h : ∀ mode : Mode, member.1 ≠ mode.key) :
    Entry.ofMember member = .comparison member.1 member.2 := by
  rw [Entry.ofMember, if_neg (h .all), if_neg (h .some)]

/-- A member stands under the key of a group, or it names a variable. -/
theorem ofMember_cases (member : String × Json) :
    (∃ mode : Mode, member.1 = mode.key ∧ Entry.ofMember member = .group mode member.2) ∨
      ((∀ mode : Mode, member.1 ≠ mode.key) ∧
        Entry.ofMember member = .comparison member.1 member.2) := by
  by_cases hkey : ∃ mode : Mode, member.1 = mode.key
  · rcases hkey with ⟨mode, hkey⟩
    have hentry := ofMember_key mode member.2
    rw [← hkey] at hentry
    exact .inl ⟨mode, hkey, hentry⟩
  · have hne : ∀ mode : Mode, member.1 ≠ mode.key := fun mode heq => hkey ⟨mode, heq⟩
    exact .inr ⟨hne, ofMember_of_ne hne⟩

/-- What holds of a value if it holds of the groups among its entries holds of all values. -/
theorem group_induction {motive : Json → Prop}
    (step : ∀ value, (∀ entries, entries? value = some entries →
      ∀ mode inner, .group mode inner ∈ entries → motive inner) → motive value)
    (value : Json) : motive value := by
  induction value using Json.induction with
  | array items ih =>
    apply step
    intro entries hentries mode inner hmem
    cases hentries
    rcases List.mem_map.1 hmem with ⟨item, hitem, heq⟩
    -- a group among items is the item itself
    rw [(mem_of_ofItem heq).2]
    exact ih item hitem
  | object members ih =>
    apply step
    intro entries hentries mode inner hmem
    cases hentries
    rcases List.mem_map.1 hmem with ⟨member, hmember, heq⟩
    -- a group among members is the value of its member
    have hinner : member.2 = inner := by
      rcases ofMember_cases member with ⟨_, -, hgroup⟩ | ⟨-, hcomparison⟩
      · rw [hgroup] at heq
        exact (Entry.group.inj heq).2
      · rw [hcomparison] at heq
        cases heq
    rw [← hinner]
    exact ih member hmember
  | null => exact step _ nofun
  | bool => exact step _ nofun
  | number => exact step _ nofun
  | string => exact step _ nofun

/-! ## One entry after the other -/

/-- The outcome of an entry that leaves its group open. -/
def Mode.neutral (mode : Mode) : Except Error Bool := .ok (mode == .all)

/-- Every entry of a group of all, or some entry of a group of some. -/
def Mode.Joins {α : Type} (mode : Mode) (holds : α → Prop) (entries : List α) : Prop :=
  match mode with
  | .all => ∀ entry ∈ entries, holds entry
  | .some => ∃ entry ∈ entries, holds entry

theorem Mode.joins_map {α β : Type} {mode : Mode} {holds : β → Prop} {f : α → β}
    {entries : List α} :
    mode.Joins holds (entries.map f) ↔ mode.Joins (fun entry => holds (f entry)) entries := by
  cases mode <;> simp [Joins]

theorem Mode.joins_congr {α : Type} {mode : Mode} {holds holds' : α → Prop} {entries : List α}
    (h : ∀ entry ∈ entries, (holds entry ↔ holds' entry)) :
    mode.Joins holds entries ↔ mode.Joins holds' entries := by
  cases mode with
  | all => exact forall₂_congr h
  | some =>
    refine exists_congr fun entry => ?_
    exact and_congr_right (h entry)

namespace Evaluation

variable {mode : Mode} {entry : Evaluation} {next : Unit → Evaluation}
  {before after entries : List Evaluation}

theorem orNext_of_neutral (h : entry.result = mode.neutral) :
    entry.orNext mode next = ⟨entry.reads ++ (next ()).reads, (next ()).result⟩ := by
  rw [orNext, h]
  cases mode <;> rfl

theorem orNext_of_ne (h : entry.result ≠ mode.neutral) : entry.orNext mode next = entry := by
  rw [orNext]
  cases hresult : entry.result with
  | error error => rfl
  | ok holds =>
    have hdecides : holds = (mode == .some) := by
      rw [hresult, Mode.neutral] at h
      cases mode <;> cases holds <;> simp_all
    exact if_pos hdecides

/-- Entries one after the other, up to the first one that does not leave the group open. -/
def inOrder (mode : Mode) : List Evaluation → Evaluation
  | [] => .pure (mode == .all)
  | entry :: rest => entry.orNext mode fun _ => inOrder mode rest

theorem inOrder_append (hbefore : ∀ entry ∈ before, entry.result = mode.neutral) :
    inOrder mode (before ++ after) =
      ⟨before.flatMap (·.reads) ++ (inOrder mode after).reads, (inOrder mode after).result⟩ := by
  induction before with
  | nil => rfl
  | cons entry rest ih =>
    rw [List.forall_mem_cons] at hbefore
    rw [List.cons_append, inOrder, orNext_of_neutral hbefore.1, ih hbefore.2, List.flatMap_cons,
      List.append_assoc]

theorem inOrder_of_neutral (h : ∀ entry ∈ entries, entry.result = mode.neutral) :
    inOrder mode entries = ⟨entries.flatMap (·.reads), mode.neutral⟩ := by
  rw [← List.append_nil entries, inOrder_append h]
  simp [inOrder, Evaluation.pure, Mode.neutral]

theorem inOrder_of_first (hbefore : ∀ entry ∈ before, entry.result = mode.neutral)
    (hentry : entry.result ≠ mode.neutral) :
    inOrder mode (before ++ entry :: after) =
      ⟨before.flatMap (·.reads) ++ entry.reads, entry.result⟩ := by
  rw [inOrder_append hbefore, inOrder, orNext_of_ne hentry]

/-- No entry ends the group, or there is a first one that does. -/
theorem exists_first {α : Type} (outcome : α → Evaluation) (mode : Mode) (entries : List α) :
    (∀ entry ∈ entries, (outcome entry).result = mode.neutral) ∨
      ∃ before entry after, entries = before ++ entry :: after ∧
        (∀ earlier ∈ before, (outcome earlier).result = mode.neutral) ∧
        (outcome entry).result ≠ mode.neutral := by
  induction entries with
  | nil => exact .inl (List.forall_mem_nil _)
  | cons entry rest ih =>
    by_cases hentry : (outcome entry).result = mode.neutral
    · rcases ih with hrest | ⟨before, first, after, hsplit, hbefore, hfirst⟩
      · exact .inl (List.forall_mem_cons.2 ⟨hentry, hrest⟩)
      · refine .inr ⟨entry :: before, first, after, ?_, ?_, hfirst⟩
        · rw [hsplit, List.cons_append]
        · exact List.forall_mem_cons.2 ⟨hentry, hbefore⟩
    · exact .inr ⟨[], entry, rest, rfl, List.forall_mem_nil _, hentry⟩

/-- Entries that all come to a truth value give their group one, the one that it has if all of them
are looked at. -/
theorem inOrder_joins {α : Type} {outcome : α → Evaluation} {holds : α → Prop} {entries : List α}
    (h : ∀ entry ∈ entries, ∃ truth, (outcome entry).result = .ok truth ∧
      (truth = true ↔ holds entry)) :
    ∃ truth, (inOrder mode (entries.map outcome)).result = .ok truth ∧
      (truth = true ↔ mode.Joins holds entries) := by
  induction entries with
  | nil =>
    refine ⟨mode == .all, rfl, ?_⟩
    cases mode <;> simp [Mode.Joins]
  | cons entry rest ih =>
    rw [List.forall_mem_cons] at h
    rcases h with ⟨⟨truth, hresult, htruth⟩, hrest⟩
    rw [List.map_cons, inOrder]
    by_cases hneutral : (outcome entry).result = mode.neutral
    · -- the rest decides
      rw [orNext_of_neutral hneutral]
      rcases ih hrest with ⟨others, hothers, hjoins⟩
      refine ⟨others, hothers, hjoins.trans ?_⟩
      rw [hresult, Mode.neutral, Except.ok.injEq] at hneutral
      cases mode with
      | all => simp [Mode.Joins, htruth.1 hneutral]
      | some =>
        have hfails : ¬ holds entry := fun hholds => by simp [htruth.2 hholds] at hneutral
        simp [Mode.Joins, hfails]
    · -- this entry decides
      rw [orNext_of_ne hneutral]
      refine ⟨truth, hresult, htruth.trans ?_⟩
      rw [hresult, Mode.neutral, Except.ok.injEq] at hneutral
      cases mode with
      | all =>
        have hfails : ¬ holds entry := fun hholds => hneutral (htruth.2 hholds)
        simp [Mode.Joins, hfails]
      | some =>
        have hholds : holds entry := htruth.1 (eq_true_of_ne_false hneutral)
        simp [Mode.Joins, hholds]

/-- Only the variables that are read make a difference. -/
theorem inOrder_congr {α : Type} {outcome outcome' : α → Evaluation} {entries : List α}
    {agrees : String → Prop}
    (hentry : ∀ entry ∈ entries, (∀ name ∈ (outcome entry).reads, agrees name) →
      outcome' entry = outcome entry)
    (hreads : ∀ name ∈ (inOrder mode (entries.map outcome)).reads, agrees name) :
    inOrder mode (entries.map outcome') = inOrder mode (entries.map outcome) := by
  induction entries with
  | nil => rfl
  | cons entry rest ih =>
    rw [List.forall_mem_cons] at hentry
    rw [List.map_cons, inOrder] at hreads
    rw [List.map_cons, List.map_cons, inOrder, inOrder]
    by_cases hneutral : (outcome entry).result = mode.neutral
    · rw [orNext_of_neutral hneutral, List.forall_mem_append] at hreads
      rw [hentry.1 hreads.1, ih hentry.2 hreads.2]
    · rw [orNext_of_ne hneutral] at hreads
      rw [hentry.1 hreads, orNext_of_ne hneutral, orNext_of_ne hneutral]

end Evaluation

open Evaluation (inOrder)

section Evaluating

variable {bindings : String → Json} {mode : Mode} {value : Json} {entries : List Entry}

/-- The outcome of an entry. -/
def evaluateEntry (bindings : String → Json) : Entry → Evaluation
  | .comparison name expected => ⟨[name], .ok (holdsFor (bindings name) expected)⟩
  | .group mode value => evaluateGroup bindings mode value
  | .stray item => .fail (.invalidItem item.kind)

theorem evaluateItems_eq (items : List Json) :
    evaluateItems bindings mode items =
      inOrder mode ((items.map Entry.ofItem).map (evaluateEntry bindings)) := by
  induction items with
  | nil => rfl
  | cons item rest ih =>
    cases item with
    | object members =>
      rw [evaluateItems, ih]
      rfl
    | null | bool | number | string | array => rfl

theorem evaluateMembers_eq (members : List (String × Json)) :
    evaluateMembers bindings mode members =
      inOrder mode ((members.map Entry.ofMember).map (evaluateEntry bindings)) := by
  induction members with
  | nil => rfl
  | cons member rest ih =>
    have hentry : evaluateEntry bindings (Entry.ofMember member) =
        if member.1 = Mode.all.key then evaluateGroup bindings .all member.2
        else if member.1 = Mode.some.key then evaluateGroup bindings .some member.2
        else ⟨[member.1], .ok (holdsFor (bindings member.1) member.2)⟩ := by
      rw [Entry.ofMember]
      split
      · rfl
      · split <;> rfl
    rw [evaluateMembers, ih, List.map_cons, List.map_cons, inOrder, hentry]

/-- A group is evaluated entry by entry. -/
theorem evaluateGroup_of_entries (h : entries? value = some entries) :
    evaluateGroup bindings mode value = inOrder mode (entries.map (evaluateEntry bindings)) := by
  cases value with
  | array items =>
    cases h
    rw [evaluateGroup, evaluateItems_eq]
  | object members =>
    cases h
    rw [evaluateGroup, evaluateMembers_eq]
  | null | bool | number | string => cases h

theorem evaluateGroup_of_none (h : entries? value = none) :
    evaluateGroup bindings mode value = .fail (.invalidGroup mode) := by
  cases value with
  | array | object => cases h
  | null | bool | number | string => rfl

/-- No entry ends the group. -/
theorem evaluateGroup_throughout (hentries : entries? value = some entries)
    (h : ∀ entry ∈ entries, (evaluateEntry bindings entry).result = mode.neutral) :
    evaluateGroup bindings mode value =
      ⟨entries.flatMap fun entry => (evaluateEntry bindings entry).reads, mode.neutral⟩ := by
  rw [evaluateGroup_of_entries hentries,
    Evaluation.inOrder_of_neutral (List.forall_mem_map.2 h), List.flatMap_map]

/-- The first entry that ends the group gives its result. -/
theorem evaluateGroup_upTo {before after : List Entry} {entry : Entry}
    (hentries : entries? value = some (before ++ entry :: after))
    (hbefore : ∀ earlier ∈ before, (evaluateEntry bindings earlier).result = mode.neutral)
    (hentry : (evaluateEntry bindings entry).result ≠ mode.neutral) :
    evaluateGroup bindings mode value =
      ⟨(before.flatMap fun earlier => (evaluateEntry bindings earlier).reads) ++
        (evaluateEntry bindings entry).reads, (evaluateEntry bindings entry).result⟩ := by
  rw [evaluateGroup_of_entries hentries, List.map_append, List.map_cons,
    Evaluation.inOrder_of_first (List.forall_mem_map.2 hbefore) hentry, List.flatMap_map]

/-- Only the variables that are read make a difference, and only by what they match. -/
theorem evaluateGroup_congr {bindings' : String → Json}
    (h : ∀ name ∈ (evaluateGroup bindings mode value).reads,
      holdsFor (bindings' name) = holdsFor (bindings name)) :
    evaluateGroup bindings' mode value = evaluateGroup bindings mode value := by
  induction value using group_induction generalizing mode with
  | step value ih =>
    cases hentries : entries? value with
    | none => rw [evaluateGroup_of_none hentries, evaluateGroup_of_none hentries]
    | some entries =>
      rw [evaluateGroup_of_entries hentries] at h
      rw [evaluateGroup_of_entries hentries, evaluateGroup_of_entries hentries]
      -- the variables of an entry that is come to are among those that are read
      refine Evaluation.inOrder_congr ?_ h
      intro entry hmem hreads
      cases entry with
      | comparison name expected =>
        rw [evaluateEntry, evaluateEntry, hreads name List.mem_cons_self]
      | group inner value => exact ih entries hentries inner value hmem hreads
      | stray item => rfl

end Evaluating

/-! ## Outcomes -/

mutual
/-- A group comes to a result, after these variables. It is no group at all, or none of its entries
ends it, or the first one that does gives its result. -/
inductive Comes (bindings : String → Json) : Mode → Json → List String → Except Error Bool → Prop
  | malformed {mode : Mode} {value : Json} (hentries : entries? value = none) :
      Comes bindings mode value [] (.error (.invalidGroup mode))
  | throughout {mode : Mode} {value : Json} {entries : List Entry} {reads : Entry → List String}
      (hentries : entries? value = some entries)
      (hall : ∀ entry ∈ entries, EntryComes bindings entry (reads entry) mode.neutral) :
      Comes bindings mode value (entries.flatMap reads) mode.neutral
  | upTo {mode : Mode} {value : Json} {before after : List Entry} {entry : Entry}
      {reads : Entry → List String} {names : List String} {result : Except Error Bool}
      (hentries : entries? value = some (before ++ entry :: after))
      (hbefore : ∀ earlier ∈ before, EntryComes bindings earlier (reads earlier) mode.neutral)
      (hentry : EntryComes bindings entry names result) (hresult : result ≠ mode.neutral) :
      Comes bindings mode value (before.flatMap reads ++ names) result

/-- An entry comes to a result, after these variables. -/
inductive EntryComes (bindings : String → Json) : Entry → List String → Except Error Bool → Prop
  | comparison (name : String) (expected : Json) :
      EntryComes bindings (.comparison name expected) [name]
        (.ok (holdsFor (bindings name) expected))
  | group {mode : Mode} {value : Json} {names : List String} {result : Except Error Bool}
      (h : Comes bindings mode value names result) :
      EntryComes bindings (.group mode value) names result
  | stray (item : Json) : EntryComes bindings (.stray item) [] (.error (.invalidItem item.kind))
end

section Outcomes

variable {bindings : String → Json} {mode : Mode} {value : Json} {names : List String}
  {result : Except Error Bool}

/-- An entry comes to its outcome if it does so as a group. -/
theorem entryComes_iff_of_group {entry : Entry}
    (hgroup : ∀ mode inner, entry = .group mode inner → ∀ names result,
      Comes bindings mode inner names result ↔ evaluateGroup bindings mode inner = ⟨names, result⟩) :
    EntryComes bindings entry names result ↔ evaluateEntry bindings entry = ⟨names, result⟩ := by
  cases entry with
  | comparison name expected =>
    constructor
    · intro h
      cases h
      rfl
    · intro h
      cases h
      exact .comparison name expected
  | group mode inner =>
    have hinner := hgroup mode inner rfl names result
    constructor
    · intro h
      cases h with
      | group h => exact hinner.1 h
    · intro h
      exact .group (hinner.2 h)
  | stray item =>
    constructor
    · intro h
      cases h
      rfl
    · intro h
      cases h
      exact .stray item

/-- The evaluator comes to the outcomes of groups, and to no others. -/
theorem comes_iff :
    Comes bindings mode value names result ↔ evaluateGroup bindings mode value = ⟨names, result⟩ := by
  induction value using group_induction generalizing mode names result with
  | step value ih =>
    have hentry : ∀ {entries}, entries? value = some entries → ∀ entry ∈ entries,
        ∀ {names result}, EntryComes bindings entry names result ↔
          evaluateEntry bindings entry = ⟨names, result⟩ := by
      intro entries hentries entry hmem names result
      apply entryComes_iff_of_group
      intro mode inner heq names result
      exact ih entries hentries mode inner (heq ▸ hmem)
    -- what each of the entries before the end reads is what the evaluator reads there
    have hreads : ∀ {entries} {before : List Entry} {reads : Entry → List String},
        entries? value = some entries → before ⊆ entries →
        (∀ entry ∈ before, EntryComes bindings entry (reads entry) mode.neutral) →
        (∀ entry ∈ before, (evaluateEntry bindings entry).result = mode.neutral) ∧
          before.flatMap reads = before.flatMap fun entry => (evaluateEntry bindings entry).reads := by
      intro entries before reads hentries hsubset hbefore
      have heval : ∀ entry ∈ before, evaluateEntry bindings entry = ⟨reads entry, mode.neutral⟩ :=
        fun entry hmem => (hentry hentries entry (hsubset hmem)).1 (hbefore entry hmem)
      constructor
      · intro entry hmem
        rw [heval entry hmem]
      · apply List.flatMap_congr
        intro entry hmem
        rw [heval entry hmem]
    constructor
    · intro h
      cases h with
      | malformed hentries => exact evaluateGroup_of_none hentries
      | throughout hentries hall =>
        rcases hreads hentries (List.Subset.refl _) hall with ⟨hneutral, hnames⟩
        rw [evaluateGroup_throughout hentries hneutral, hnames]
      | @upTo _ _ before after entry _ _ _ hentries hbefore hlast hresult =>
        have hlast := (hentry hentries entry (List.mem_append_right _ List.mem_cons_self)).1 hlast
        rcases hreads hentries (List.subset_append_left _ _) hbefore with ⟨hneutral, hnames⟩
        rw [evaluateGroup_upTo hentries hneutral (by rw [hlast]; exact hresult), hnames, hlast]
    · intro h
      cases hentries : entries? value with
      | none =>
        rw [evaluateGroup_of_none hentries] at h
        cases h
        exact .malformed hentries
      | some entries =>
        have hcomes : ∀ entry ∈ entries, EntryComes bindings entry
            (evaluateEntry bindings entry).reads (evaluateEntry bindings entry).result :=
          fun entry hmem => (hentry hentries entry hmem).2 rfl
        rcases Evaluation.exists_first (evaluateEntry bindings) mode entries with
          hneutral | ⟨before, entry, after, hsplit, hneutral, hlast⟩
        · rw [evaluateGroup_throughout hentries hneutral] at h
          cases h
          refine .throughout hentries ?_
          intro entry hmem
          rw [← hneutral entry hmem]
          exact hcomes entry hmem
        · rw [hsplit] at hentries hcomes
          rw [evaluateGroup_upTo hentries hneutral hlast] at h
          cases h
          rw [List.forall_mem_append, List.forall_mem_cons] at hcomes
          refine .upTo hentries ?_ hcomes.2.1 hlast
          intro earlier hmem
          rw [← hneutral earlier hmem]
          exact hcomes.1 earlier hmem

theorem entryComes_iff {entry : Entry} :
    EntryComes bindings entry names result ↔ evaluateEntry bindings entry = ⟨names, result⟩ :=
  entryComes_iff_of_group fun _ _ _ _ _ => comes_iff

end Outcomes

/-! ## Malformed parts -/

/-- An entry leaves its group open: in a group of all it holds, in a group of some it does not. -/
def Passes (bindings : String → Json) (mode : Mode) (entry : Entry) : Prop :=
  ∃ names, EntryComes bindings entry names (.ok (mode == .all))

/-- A malformed part comes before the entry that decides its group, and so for each group around
it. -/
inductive Breaks (bindings : String → Json) : Mode → Json → Error → Prop
  | group {mode : Mode} {value : Json} (hentries : entries? value = none) :
      Breaks bindings mode value (.invalidGroup mode)
  | item {mode : Mode} {value item : Json} {before after : List Entry}
      (hentries : entries? value = some (before ++ .stray item :: after))
      (hbefore : ∀ earlier ∈ before, Passes bindings mode earlier) :
      Breaks bindings mode value (.invalidItem item.kind)
  | within {mode inner : Mode} {value part : Json} {before after : List Entry} {error : Error}
      (hentries : entries? value = some (before ++ .group inner part :: after))
      (hbefore : ∀ earlier ∈ before, Passes bindings mode earlier)
      (hpart : Breaks bindings inner part error) : Breaks bindings mode value error

section Breaking

variable {bindings : String → Json} {mode : Mode} {value : Json} {error : Error}

theorem passes_iff {entry : Entry} :
    Passes bindings mode entry ↔ (evaluateEntry bindings entry).result = mode.neutral := by
  constructor
  · rintro ⟨names, h⟩
    rw [entryComes_iff.1 h]
    rfl
  · intro h
    refine ⟨(evaluateEntry bindings entry).reads, entryComes_iff.2 ?_⟩
    rw [← Mode.neutral, ← h]

theorem error_ne_neutral : .error error ≠ mode.neutral := by
  intro h
  cases h

theorem breaks_iff :
    Breaks bindings mode value error ↔ (evaluateGroup bindings mode value).result = .error error := by
  induction value using group_induction generalizing mode error with
  | step value ih =>
    constructor
    · intro h
      cases h with
      | group hentries => rw [evaluateGroup_of_none hentries, Evaluation.fail]
      | item hentries hbefore =>
        rw [evaluateGroup_upTo hentries (fun entry hmem => passes_iff.1 (hbefore entry hmem))
          error_ne_neutral]
        rfl
      | @within _ inner _ part _ _ _ hentries hbefore hpart =>
        have hresult : (evaluateEntry bindings (.group inner part)).result = .error error :=
          (ih _ hentries inner part (by simp)).1 hpart
        rw [evaluateGroup_upTo hentries (fun entry hmem => passes_iff.1 (hbefore entry hmem))
          (by rw [hresult]; exact error_ne_neutral), hresult]
    · intro h
      cases hentries : entries? value with
      | none =>
        rw [evaluateGroup_of_none hentries] at h
        cases h
        exact .group hentries
      | some entries =>
        rcases Evaluation.exists_first (evaluateEntry bindings) mode entries with
          hneutral | ⟨before, entry, after, hsplit, hneutral, hlast⟩
        · rw [evaluateGroup_throughout hentries hneutral] at h
          cases h
        · rw [hsplit] at hentries
          rw [evaluateGroup_upTo hentries hneutral hlast] at h
          -- the first entry that ends the group is the malformed one, or contains it
          have hpasses : ∀ earlier ∈ before, Passes bindings mode earlier :=
            fun earlier hmem => passes_iff.2 (hneutral earlier hmem)
          cases entry with
          | comparison name expected => cases h
          | group inner part =>
            exact .within hentries hpasses ((ih _ hentries inner part (by simp)).2 h)
          | stray item =>
            cases h
            exact .item hentries hpasses

end Breaking

/-! ## The plain reading -/

mutual
/-- A well-formed condition: under `@and` and `@or` stand conditions or lists of conditions. -/
inductive Tree : Json → Prop
  | object {members : Members}
      (hgroups : ∀ (mode : Mode) (value : Json), (mode.key, value) ∈ members → Branch value) :
      Tree (.object members)

/-- A well-formed condition or a list of them. -/
inductive Branch : Json → Prop
  | one {value : Json} (h : Tree value) : Branch value
  | list {items : List Json} (hitems : ∀ item ∈ items, Tree item) : Branch (.array items)
end

mutual
/-- What a group says when all of its entries are looked at: every one of them holds, or some one
does. An item of a list is a conjunction whatever the list is. -/
inductive Holds (bindings : String → Json) : Mode → Json → Prop
  | everyItem {items : List Json} (hitems : ∀ item ∈ items, Holds bindings .all item) :
      Holds bindings .all (.array items)
  | someItem {items : List Json} {item : Json} (hmem : item ∈ items)
      (hitem : Holds bindings .all item) : Holds bindings .some (.array items)
  | everyMember {members : Members}
      (hmembers : ∀ key value, (key, value) ∈ members → MemberHolds bindings key value) :
      Holds bindings .all (.object members)
  | someMember {members : Members} {key : String} {value : Json} (hmem : (key, value) ∈ members)
      (hmember : MemberHolds bindings key value) : Holds bindings .some (.object members)

/-- What a member says: a group under its key, and else that the variable matches. -/
inductive MemberHolds (bindings : String → Json) : String → Json → Prop
  | group {mode : Mode} {value : Json} (h : Holds bindings mode value) :
      MemberHolds bindings mode.key value
  | comparison {key : String} {value : Json} (hkey : ∀ mode : Mode, key ≠ mode.key)
      (hmatches : holdsFor (bindings key) value = true) : MemberHolds bindings key value
end

section Reading

variable {bindings : String → Json} {mode : Mode} {value : Json} {entries : List Entry}

/-- What an entry says. -/
def EntryHolds (bindings : String → Json) : Entry → Prop
  | .comparison name expected => holdsFor (bindings name) expected = true
  | .group mode value => Holds bindings mode value
  | .stray _ => False

theorem key_injective {mode mode' : Mode} (h : mode.key = mode'.key) : mode = mode' := by
  cases mode <;> cases mode' <;> simp_all [Mode.key]

theorem memberHolds_iff {member : String × Json} :
    MemberHolds bindings member.1 member.2 ↔ EntryHolds bindings (.ofMember member) := by
  rcases ofMember_cases member with ⟨mode, hkey, hentry⟩ | ⟨hkey, hentry⟩
  · rw [hentry, EntryHolds]
    constructor
    · generalize hfound : member.1 = key
      intro h
      cases h with
      | group h =>
        rw [key_injective (hkey.symm.trans hfound)]
        exact h
      | comparison hne => exact absurd (hfound.symm.trans hkey) (hne mode)
    · intro h
      rw [hkey]
      exact .group h
  · rw [hentry, EntryHolds]
    constructor
    · generalize hfound : member.1 = key
      intro h
      cases h with
      | group h => exact absurd hfound (hkey _)
      | comparison _ hmatches => exact hmatches
    · intro h
      exact .comparison hkey h

theorem holds_array_iff {items : List Json} :
    Holds bindings mode (.array items) ↔ mode.Joins (Holds bindings .all) items := by
  constructor
  · intro h
    cases h with
    | everyItem h => exact h
    | someItem hmem h => exact ⟨_, hmem, h⟩
  · intro h
    cases mode with
    | all => exact .everyItem h
    | some =>
      rcases h with ⟨item, hmem, h⟩
      exact .someItem hmem h

theorem holds_object_iff {members : Members} :
    Holds bindings mode (.object members) ↔
      mode.Joins (fun member => MemberHolds bindings member.1 member.2) members := by
  constructor
  · intro h
    cases h with
    | everyMember h => exact fun member => h member.1 member.2
    | someMember hmem h => exact ⟨_, hmem, h⟩
  · intro h
    cases mode with
    | all => exact .everyMember fun key value => h (key, value)
    | some =>
      rcases h with ⟨member, hmem, h⟩
      exact .someMember hmem h

/-- A group says what its entries say together. -/
theorem holds_iff (hentries : entries? value = some entries)
    (hitems : ∀ item, .stray item ∉ entries) :
    Holds bindings mode value ↔ mode.Joins (EntryHolds bindings) entries := by
  cases value with
  | array items =>
    cases hentries
    rw [holds_array_iff, Mode.joins_map]
    apply Mode.joins_congr
    intro item hmem
    cases item with
    | object members => rfl
    | null | bool | number | string | array =>
      exact absurd (List.mem_map_of_mem hmem) (hitems _)
  | object members =>
    cases hentries
    rw [holds_object_iff, Mode.joins_map]
    apply Mode.joins_congr
    intro member _
    exact memberHolds_iff
  | null | bool | number | string => cases hentries

/-- A well-formed group has entries, none of them malformed, and the groups among them are well
formed. -/
theorem Branch.exists_entries (h : Branch value) :
    ∃ entries, entries? value = some entries ∧ (∀ item, .stray item ∉ entries) ∧
      ∀ mode inner, .group mode inner ∈ entries → Branch inner := by
  cases h with
  | one h =>
    cases h with
    | @object members hgroups =>
      refine ⟨_, rfl, ?_, ?_⟩
      · intro item hmem
        rcases List.mem_map.1 hmem with ⟨member, -, hentry⟩
        rcases ofMember_cases member with ⟨mode, -, heq⟩ | ⟨-, heq⟩
        · rw [heq] at hentry
          cases hentry
        · rw [heq] at hentry
          cases hentry
      · intro mode inner hmem
        rcases List.mem_map.1 hmem with ⟨⟨key, value⟩, hmember, hentry⟩
        rcases ofMember_cases (key, value) with ⟨mode', hkey, heq⟩ | ⟨-, heq⟩
        · rw [heq] at hentry
          cases hentry
          rw [show key = mode.key from hkey] at hmember
          exact hgroups mode _ hmember
        · rw [heq] at hentry
          cases hentry
  | list hitems =>
    refine ⟨_, rfl, ?_, ?_⟩
    · intro item hmem
      rcases List.mem_map.1 hmem with ⟨found, hfound, hentry⟩
      cases hitems found hfound with
      | object => cases hentry
    · intro mode inner hmem
      rcases List.mem_map.1 hmem with ⟨found, hfound, hentry⟩
      rw [(mem_of_ofItem hentry).2]
      exact .one (hitems found hfound)

/-- A well-formed condition evaluates to what it says. -/
theorem evaluateGroup_of_branch (h : Branch value) :
    ∃ truth, (evaluateGroup bindings mode value).result = .ok truth ∧
      (truth = true ↔ Holds bindings mode value) := by
  induction value using group_induction generalizing mode with
  | step value ih =>
    rcases h.exists_entries with ⟨entries, hentries, hitems, hgroups⟩
    rw [evaluateGroup_of_entries hentries, holds_iff hentries hitems]
    -- no entry is an error, so where the scan stops makes no difference
    apply Evaluation.inOrder_joins
    intro entry hmem
    cases entry with
    | comparison name expected => exact ⟨_, rfl, Iff.rfl⟩
    | group inner part => exact ih entries hentries inner part hmem (hgroups inner part hmem)
    | stray item => exact absurd hmem (hitems item)

end Reading

/-! ## Evaluation -/

/-- Stopping early changes nothing but what is read. A well-formed condition evaluates to what it
says when all of its entries are looked at. Any value gives an error just if a malformed part comes
before the entry that decides its group. Result and variables are those of the entries up to the one
that decides or fails, and no other variable makes a difference. -/
theorem evaluate_reading (bindings : String → Json) (condition : Json) :
    (Branch condition → ∃ truth, (evaluate bindings condition).result = .ok truth ∧
      (truth = true ↔ Holds bindings .all condition)) ∧
    (∀ error, (evaluate bindings condition).result = .error error ↔
      Breaks bindings .all condition error) ∧
    (∀ names result, evaluate bindings condition = ⟨names, result⟩ ↔
      Comes bindings .all condition names result) ∧
    (∀ bindings' : String → Json,
      (∀ name ∈ (evaluate bindings condition).reads, bindings' name = bindings name) →
      evaluate bindings' condition = evaluate bindings condition) := by
  refine ⟨evaluateGroup_of_branch, fun _ => breaks_iff.symm, fun _ _ => comes_iff.symm, ?_⟩
  intro bindings' hsame
  apply evaluateGroup_congr
  intro name hmem
  rw [hsame name hmem]

/-- A variable that is true decides before the item that is no condition, a false one does not. -/
example :
    let condition : Json := .object [("@or", .array [.object [("a", .string "*")], .null])]
    evaluate (fun _ => .bool true) condition = ⟨["a"], .ok true⟩ ∧
      evaluate (fun _ => .bool false) condition = ⟨["a"], .error (.invalidItem .null)⟩ :=
  ⟨rfl, rfl⟩

end SentenceEngine.Condition
