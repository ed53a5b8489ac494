import Mathlib.Data.List.Dedup
import SentenceEngine.Proofs.Scopes

/-!
# What a report accounts for

A candidate that fails is taken back by restoring the labels and cutting the warnings off where
they ended before. This comes to the same as checking every candidate on a copy of its own and
keeping the copy of the first one that succeeds, because a pass only ever adds to its warnings. Here
the pass on copies is written down, with nothing but the declarations that count as what is copied,
and a report is read off them.

* `Plan.keep`: the pass on copies.
* `repeats`: the declarations of labels that were declared before.
* `Pass.Accounts`: a pass that holds just what is read off the declarations that count.
* `Plan.run_keeps`: the validator and the pass on copies go on in step.
* `validate_accounts`: they give the same result.
-/

namespace SentenceEngine

/-! ## The pass on copies -/

namespace Plan

/-- Carries out a plan on the declarations that count so far, each candidate on a copy of them. -/
def keep : Plan → List Declaration → Except ValidationError (List Declaration)
  | settled outcome, kept => outcome.map fun _ => kept
  | refer reference, kept =>
    match (Check.checkString reference.handler reference.path reference.minLength
      reference.maxLength false reference.text Pass.start).1 with
    | .error error => .error error
    | .ok _ =>
      if reference.text ∈ kept.map (·.label) then .ok kept
      else .error ⟨reference.path, reference.handler, .unresolvedLabel reference.text⟩
  | within scope body, kept => body.keep (kept ++ scope.declarations)
  | andThen first next, kept =>
    match first.keep kept with
    | .ok middle => next.keep middle
    | .error error => .error error
  | attempt candidate otherwise, kept =>
    match candidate.keep kept with
    | .ok after => .ok after
    | .error _ => otherwise.keep kept

end Plan

/-- The declarations of labels that were declared before, or are among the labels given. -/
def repeatsAfter (earlier : List String) : List Declaration → List DuplicateLabel
  | [] => []
  | first :: rest =>
    (if first.label ∈ earlier then [⟨first.label, first.path⟩] else []) ++
      repeatsAfter (earlier ++ [first.label]) rest

/-- The declarations of labels that were declared before, in their order. -/
def repeats (declarations : List Declaration) : List DuplicateLabel := repeatsAfter [] declarations

theorem repeatsAfter_append (earlier : List String) (first second : List Declaration) :
    repeatsAfter earlier (first ++ second) =
      repeatsAfter earlier first ++ repeatsAfter (earlier ++ first.map (·.label)) second := by
  induction first generalizing earlier with
  | nil => simp [repeatsAfter]
  | cons declaration rest ih => simp [repeatsAfter, ih]

theorem repeats_snoc (declarations : List Declaration) (last : Declaration) :
    repeats (declarations ++ [last]) = repeats declarations ++
      if last.label ∈ declarations.map (·.label) then [⟨last.label, last.path⟩] else [] := by
  rw [repeats, repeatsAfter_append]
  simp [repeats, repeatsAfter]

/-! ## A pass and the declarations that count -/

/-- What a pass holds is read off the declarations that count. -/
structure Pass.Accounts (pass : Pass) (kept : List Declaration) : Prop where
  sorted : pass.labels.Pairwise (· < ·)
  labels : ∀ text, text ∈ pass.labels ↔ text ∈ kept.map (·.label)
  warnings : pass.warnings = repeats kept
  count : pass.warnings.length + pass.labels.length = kept.length

variable {pass after : Pass} {kept : List Declaration}

theorem Pass.accounts_start : Pass.start.Accounts [] := ⟨.nil, by simp [start], rfl, rfl⟩

/-- The notices are of no account. -/
theorem Pass.Accounts.congr (h : pass.Accounts kept) (hlabels : after.labels = pass.labels)
    (hwarnings : after.warnings = pass.warnings) : after.Accounts kept := by
  constructor
  · rw [hlabels]
    exact h.sorted
  · rw [hlabels]
    exact h.labels
  · rw [hwarnings]
    exact h.warnings
  · rw [hwarnings, hlabels]
    exact h.count

theorem length_insertLabel (label : String) (labels : List String) :
    (insertLabel label labels).length = labels.length + 1 := by
  fun_induction insertLabel label labels with
  | case1 => rfl
  | case2 => rfl
  | case3 l rest hlt ih => simp [ih]

namespace Check

/-- A declaration is accounted for by a label or by a warning. -/
theorem accounts_declare (h : pass.Accounts kept) (declaration : Declaration) :
    ∃ after, declare declaration.path declaration.label pass = (.ok (), after) ∧
      after.Accounts (kept ++ [declaration]) ∧ pass.warnings <+: after.warnings := by
  refine ⟨_, rfl, ?_⟩
  dsimp only
  by_cases hmem : declaration.label ∈ pass.labels
  · rw [if_pos hmem]
    have hkept := (h.labels _).1 hmem
    refine ⟨⟨h.sorted, ?_, ?_, ?_⟩, List.prefix_append _ _⟩
    · intro text
      dsimp only
      rw [h.labels, List.map_append, List.mem_append, List.map_singleton, List.mem_singleton]
      constructor
      · exact .inl
      · rintro (htext | rfl)
        · exact htext
        · exact hkept
    · dsimp only
      rw [repeats_snoc, if_pos hkept, h.warnings]
    · have := h.count
      simp only [List.length_append, List.length_singleton]
      omega
  · rw [if_neg hmem]
    have hnew := mt (h.labels _).2 hmem
    refine ⟨⟨sorted_insertLabel h.sorted hmem, ?_, ?_, ?_⟩, List.prefix_refl _⟩
    · intro text
      dsimp only
      rw [mem_insertLabel, h.labels, List.map_append, List.mem_append, List.map_singleton,
        List.mem_singleton, or_comm]
    · dsimp only
      rw [repeats_snoc, if_neg hnew, h.warnings, List.append_nil]
    · have := h.count
      simp only [length_insertLabel, List.length_append, List.length_singleton]
      omega

theorem accounts_declareAll (h : pass.Accounts kept) (declarations : List Declaration) :
    ∃ after, declareAll declarations pass = (.ok (), after) ∧
      after.Accounts (kept ++ declarations) ∧ pass.warnings <+: after.warnings := by
  induction declarations generalizing pass kept with
  | nil => exact ⟨pass, rfl, by rwa [List.append_nil], List.prefix_refl _⟩
  | cons first rest ih =>
    obtain ⟨middle, hfirst, hmiddle, hstart⟩ := accounts_declare h first
    obtain ⟨after, hrest, hafter, hend⟩ := ih hmiddle
    refine ⟨after, ?_, ?_, hstart.trans hend⟩
    · rw [declareAll, bind_apply, hfirst]
      exact hrest
    · rwa [List.append_assoc] at hafter

/-- Rolling back restores what counts, since a pass only adds to its warnings. -/
theorem accounts_rollBack (h : pass.Accounts kept) (hinitial : pass.warnings <+: after.warnings) :
    (rollBack pass after).Accounts kept :=
  h.congr rfl (List.prefix_iff_eq_take.1 hinitial).symm

end Check

/-! ## In step -/

/-- How a step of the validator that started from a pass compares with the pass on copies: both
fail with the same error, or both succeed, and the declarations kept account for what is
collected. -/
inductive Pass.InStep (pass : Pass) :
    Except ValidationError (List Declaration) → Except ValidationError Unit × Pass → Prop
  | kept {kept : List Declaration} {after : Pass} (haccounts : after.Accounts kept)
      (hinitial : pass.warnings <+: after.warnings) : InStep pass (.ok kept) (.ok (), after)
  | failed {error : ValidationError} {after : Pass} (hinitial : pass.warnings <+: after.warnings) :
      InStep pass (.error error) (.error error, after)

theorem Pass.InStep.of_initial {middle : Pass} {copied : Except ValidationError (List Declaration)}
    {result : Except ValidationError Unit × Pass} (hinitial : pass.warnings <+: middle.warnings)
    (h : middle.InStep copied result) : pass.InStep copied result := by
  cases h with
  | kept haccounts hafter => exact .kept haccounts (hinitial.trans hafter)
  | failed hafter => exact .failed (hinitial.trans hafter)

namespace Plan

/-- A string finds its label in the pass just if it finds it among the declarations. -/
theorem resolve_keeps (h : pass.Accounts kept) (reference : LabelReference) :
    pass.InStep ((refer reference).keep kept) (Check.resolve reference pass) := by
  have hbounds : IsSettled (Check.checkString reference.handler reference.path reference.minLength
      reference.maxLength false reference.text) := isSettled_checkString
  rw [keep, Check.resolve, Check.checkString_eq, Check.bind_apply, hbounds pass]
  rcases (Check.checkString reference.handler reference.path reference.minLength
    reference.maxLength false reference.text Pass.start).1 with error | done
  · exact .failed (List.prefix_refl _)
  · dsimp only
    rw [Check.named_apply]
    by_cases hmem : reference.text ∈ pass.labels
    · rw [if_pos hmem, if_pos ((h.labels _).1 hmem)]
      exact .kept h (List.prefix_refl _)
    · rw [if_neg hmem, if_neg (mt (h.labels _).2 hmem)]
      exact .failed (List.prefix_refl _)

/-- The validator goes on in step with the pass on copies. -/
theorem run_keeps (plan : Plan) (h : pass.Accounts kept) :
    pass.InStep (plan.keep kept) (plan.run pass) := by
  induction plan generalizing pass kept with
  | settled outcome =>
    cases outcome with
    | error error => exact .failed (List.prefix_refl _)
    | ok done => exact .kept h (List.prefix_refl _)
  | refer reference => exact resolve_keeps h reference
  | within scope body ih =>
    obtain ⟨opened, hdeclare, hopened, hinitial⟩ := Check.accounts_declareAll h scope.declarations
    rw [keep, run, Check.bind_apply, hdeclare]
    exact (ih hopened).of_initial hinitial
  | andThen first next ihFirst ihNext =>
    have hfirst := ihFirst h
    rw [keep, run_andThen_apply]
    revert hfirst
    generalize first.keep kept = copied
    generalize first.run pass = result
    intro hfirst
    cases hfirst with
    | kept hmiddle hinitial => exact (ihNext hmiddle).of_initial hinitial
    | failed hinitial => exact .failed hinitial
  | attempt candidate otherwise ihCandidate ihOtherwise =>
    have hcandidate := ihCandidate h
    rw [keep, run_attempt_apply]
    revert hcandidate
    generalize candidate.keep kept = copied
    generalize candidate.run pass = result
    intro hcandidate
    cases hcandidate with
    | kept hafter hinitial => exact .kept hafter hinitial
    | failed hinitial =>
      -- what the candidate declared is forgotten, and the next one starts from the same copy
      have hrestored := Check.accounts_rollBack h hinitial
      have hsame := h.warnings.trans hrestored.warnings.symm
      exact (ihOtherwise hrestored).of_initial (hsame ▸ List.prefix_refl _)

end Plan

/-! ## Reports -/

/-- A report accounts for the declarations that count: its labels are theirs, in order and each
once, and its warnings are those declarations whose label an earlier one had declared, in order. -/
structure ValidationReport.Accounts (report : ValidationReport)
    (kept : List Declaration) : Prop where
  sorted : report.labels.Pairwise (· < ·)
  labels : ∀ text, text ∈ report.labels ↔ text ∈ kept.map (·.label)
  warnings : report.warnings = repeats kept
  count : report.warnings.length = kept.length - (kept.map (·.label)).dedup.length

theorem Pass.Accounts.report (h : pass.Accounts kept) :
    ValidationReport.Accounts ⟨pass.labels, pass.warnings⟩ kept := by
  refine ⟨h.sorted, h.labels, h.warnings, ?_⟩
  have hnodup : pass.labels.Nodup := Dictionary.nodup_of_increasing id h.sorted
  have hperm : pass.labels.Perm (kept.map (·.label)).dedup := by
    rw [List.perm_ext_iff_of_nodup hnodup (List.nodup_dedup _)]
    intro text
    rw [List.mem_dedup, h.labels]
  have hcount := h.count
  rw [hperm.length_eq] at hcount
  dsimp only
  omega

/-- A validation gives the same result as the pass that checks every candidate on a copy of its own:
the same error, or a report that accounts for the declarations of the copies kept. -/
theorem validate_accounts (lookup : SchemaLookup) (program : Sentence) :
    (∀ error, validate lookup program = .error error ↔
      (Plan.ofProgram lookup program).keep [] = .error error) ∧
    (∀ report, validate lookup program = .ok report →
      ∃ kept, (Plan.ofProgram lookup program).keep [] = .ok kept ∧ report.Accounts kept) ∧
    ∀ kept, (Plan.ofProgram lookup program).keep [] = .ok kept →
      ∃ report, validate lookup program = .ok report ∧ report.Accounts kept := by
  have hstep := (Plan.ofProgram lookup program).run_keeps Pass.accounts_start
  rw [Plan.run_ofProgram] at hstep
  unfold validate examine
  revert hstep
  generalize (Plan.ofProgram lookup program).keep [] = copied
  generalize Pass.over lookup program = result
  intro hstep
  cases hstep with
  | kept haccounts hinitial =>
    refine ⟨by simp, ?_, ?_⟩
    · rintro _ ⟨⟩
      exact ⟨_, rfl, haccounts.report⟩
    · rintro _ ⟨⟩
      exact ⟨_, rfl, haccounts.report⟩
  | failed hinitial => exact ⟨by simp, by simp, by simp⟩

/-- A choice that is offered a program next to something that is no number: the first candidate
declares a label before it fails. -/
def offer : Sentence :=
  .instruction ⟨"choose", [("body", .object [("p", .string "a"), ("q", .string "b")])]⟩

/-- The candidates of the choice. -/
def chooseFields : SchemaLookup := fun _ =>
  some [("body", .alternatives
    [.ofKind (.object [("p", .sentences), ("q", .number)] none false), .any])]

/-- The label of the failed candidate does not count, and of the other two the second one is
reported. -/
theorem validate_accounts_offer :
    ∃ report, validate chooseFields (.sequence [offer, .label "a", .label "a"]) = .ok report ∧
      report.Accounts [⟨Path.root.item 1, "a"⟩, ⟨Path.root.item 2, "a"⟩] ∧
      report.warnings = [⟨"a", Path.root.item 2⟩] := by
  obtain ⟨-, -, hkept⟩ :=
    validate_accounts chooseFields (.sequence [offer, .label "a", .label "a"])
  have hcopies : (Plan.ofProgram chooseFields (.sequence [offer, .label "a", .label "a"])).keep [] =
      .ok [⟨Path.root.item 1, "a"⟩, ⟨Path.root.item 2, "a"⟩] := by
    simp only [Plan.ofProgram, Plan.ofSentence, Plan.ofSentences, offer]
    rfl
  obtain ⟨report, hreport, haccounts⟩ := hkept _ hcopies
  exact ⟨report, hreport, haccounts, haccounts.warnings⟩

end SentenceEngine
