import SentenceEngine.Proofs.Plan

/-!
# The scopes of labels

A string that has to name a label is compared with one list of labels, to which every scope adds
its own and from which failed candidates are taken back. Here a validation is watched while it goes
on: which scopes have been entered, which of them are around, and what became of each string.

* `Check.declareAll_apply`, `Check.resolve_apply`: what a scope adds, and what a string needs.
* `Plan.watch`: carries out a plan and keeps a record of it.
* `Watch.Sound`: a record in which the labels are those of the scopes entered.
* `Plan.sound_watch`: every record is sound.
-/

namespace SentenceEngine

/-- The labels of a scope. -/
def Scope.labels (scope : Scope) : List String := scope.declarations.map (·.label)

/-- The text is as long as it may be. -/
def LabelReference.InBounds (reference : LabelReference) : Prop :=
  (∀ bound, reference.minLength = some bound → bound ≤ reference.text.length) ∧
    ∀ bound, reference.maxLength = some bound → reference.text.length ≤ bound

/-- A string that has to name a label, as it was met: the scopes around it, all scopes entered by
then, and whether it was accepted. Scopes that only a failed candidate entered are left out. -/
structure Sighting where
  reference : LabelReference
  enclosing : List Scope
  entered : List Scope
  accepted : Bool

/-- A pass with a record of it, the scopes in the order in which they were entered, the last one
first. -/
structure Watch where
  pass : Pass
  entered : List Scope
  sightings : List Sighting

/-- The start of a watched pass. -/
def Watch.start : Watch := ⟨.start, [], []⟩

/-! ## What a pass collects -/

namespace Check

theorem mem_insertLabel {label text : String} {labels : List String} :
    text ∈ insertLabel label labels ↔ text = label ∨ text ∈ labels := by
  fun_induction insertLabel label labels with
  | case1 => simp
  | case2 l rest hlt => simp
  | case3 l rest hlt ih =>
    simp only [List.mem_cons, ih]
    constructor
    · rintro (h | h | h)
      · exact .inr (.inl h)
      · exact .inl h
      · exact .inr (.inr h)
    · rintro (h | h | h)
      · exact .inr (.inl h)
      · exact .inl h
      · exact .inr (.inr h)

theorem sorted_insertLabel {label : String} {labels : List String}
    (h : labels.Pairwise (· < ·)) (hnew : label ∉ labels) :
    (insertLabel label labels).Pairwise (· < ·) := by
  fun_induction insertLabel label labels with
  | case1 => exact List.pairwise_singleton _ _
  | case2 l rest hlt =>
    have hfirst := (List.pairwise_cons.1 h).1
    refine List.pairwise_cons.2 ⟨?_, h⟩
    intro other hother
    rcases List.mem_cons.1 hother with heq | hmem
    · rw [heq]
      exact hlt
    · exact String.lt_trans hlt (hfirst other hmem)
  | case3 l rest hlt ih =>
    rw [List.mem_cons, not_or] at hnew
    rcases List.pairwise_cons.1 h with ⟨hfirst, hrest⟩
    refine List.pairwise_cons.2 ⟨?_, ih hrest hnew.2⟩
    intro other hother
    rcases mem_insertLabel.1 hother with heq | hmem
    · rw [heq]
      exact Std.lt_of_le_of_ne (Std.not_lt.1 hlt) (Ne.symm hnew.1)
    · exact hfirst other hmem

/-- A declaration adds a label and keeps the labels in order. -/
theorem declare_apply (path : Path) (label : String) (pass : Pass) :
    ∃ after, declare path label pass = (.ok (), after) ∧
      (∀ text, text ∈ after.labels ↔ text = label ∨ text ∈ pass.labels) ∧
      (pass.labels.Pairwise (· < ·) → after.labels.Pairwise (· < ·)) := by
  refine ⟨_, rfl, ?_⟩
  dsimp only
  by_cases hmem : label ∈ pass.labels
  · rw [if_pos hmem]
    constructor
    · intro text
      constructor
      · exact .inr
      · rintro (heq | h)
        · rw [heq]
          exact hmem
        · exact h
    · exact id
  · rw [if_neg hmem]
    constructor
    · intro text
      exact mem_insertLabel
    · intro hsorted
      exact sorted_insertLabel hsorted hmem

theorem declareAll_apply (declarations : List Declaration) (pass : Pass) :
    ∃ after, declareAll declarations pass = (.ok (), after) ∧
      (∀ text, text ∈ after.labels ↔ text ∈ declarations.map (·.label) ∨ text ∈ pass.labels) ∧
      (pass.labels.Pairwise (· < ·) → after.labels.Pairwise (· < ·)) := by
  induction declarations generalizing pass with
  | nil => exact ⟨pass, rfl, by simp, id⟩
  | cons first rest ih =>
    rcases declare_apply first.path first.label pass with ⟨middle, hstep, hmiddle, hkeeps⟩
    rcases ih middle with ⟨after, hrest, hafter, hkeepsRest⟩
    rw [declareAll, bind_apply, hstep]
    refine ⟨after, hrest, ?_, ?_⟩
    · intro text
      rw [hafter, hmiddle, List.map_cons, List.mem_cons]
      constructor
      · rintro (h | h | h)
        · exact .inl (.inr h)
        · exact .inl (.inl h)
        · exact .inr h
      · rintro ((h | h) | h)
        · exact .inr (.inl h)
        · exact .inl h
        · exact .inr (.inr h)
    · intro hsorted
      exact hkeepsRest (hkeeps hsorted)

theorem fail_bind {handler : String} {path : Path} {violation : Violation}
    {next : Unit → Check Unit} :
    fail handler path violation >>= next = fail handler path violation := by
  rfl

/-- The part of a check that looks for a label comes last. -/
theorem checkString_eq (handler : String) (path : Path) (min max : Option Nat) (text : String) :
    checkString handler path min max true text =
      (do
        checkString handler path min max false text
        if text ∉ (← get).labels then fail handler path (.unresolvedLabel text)) := by
  unfold checkString
  rcases min with _ | min <;> rcases max with _ | max
  · rfl
  · by_cases hmax : max < text.length
    · simp [hmax]
    · simp [hmax]
  · by_cases hmin : text.length < min
    · simp [hmin]
    · simp [hmin]
  · by_cases hmin : text.length < min
    · simp [hmin, fail_bind]
    · by_cases hmax : max < text.length
      · simp [hmin, hmax]
      · simp [hmin, hmax]

theorem named_apply (handler : String) (path : Path) (text : String) (pass : Pass) :
    (do if text ∉ (← get).labels then fail handler path (.unresolvedLabel text) : Check Unit) pass =
      if text ∈ pass.labels then (.ok (), pass)
      else (.error ⟨path, handler, .unresolvedLabel text⟩, pass) := by
  show (if text ∉ pass.labels then fail handler path (.unresolvedLabel text) else pure ()) pass = _
  by_cases hmem : text ∈ pass.labels
  · rw [if_pos hmem, if_neg (by simp [hmem])]
    rfl
  · rw [if_neg hmem, if_pos hmem]
    rfl

/-- Whether a string is accepted that has to name a label. -/
theorem resolve_apply (reference : LabelReference) (pass : Pass) :
    (resolve reference pass).2 = pass ∧
      ((resolve reference pass).1.isOk = true ↔
        reference.InBounds ∧ reference.text ∈ pass.labels) := by
  unfold resolve
  rw [checkString_eq, bind_apply]
  have hbounds : Decides (checkString reference.handler reference.path reference.minLength
      reference.maxLength false reference.text) reference.InBounds := decides_checkString
  rcases hbounds pass with ⟨hin, hstep⟩ | ⟨hout, error, hstep⟩
  · rw [hstep]
    dsimp only
    rw [named_apply]
    by_cases hmem : reference.text ∈ pass.labels
    · rw [if_pos hmem]
      exact ⟨rfl, by simp [hin, hmem, Except.isOk, Except.toBool]⟩
    · rw [if_neg hmem]
      exact ⟨rfl, by simp [hmem, Except.isOk, Except.toBool]⟩
  · rw [hstep]
    refine ⟨rfl, ?_⟩
    simp [hout, Except.isOk, Except.toBool]

end Check

namespace Plan

theorem run_within_apply (scope : Scope) (body : Plan) (pass : Pass) :
    ∃ opened, Check.declareAll scope.declarations pass = (.ok (), opened) ∧
      (within scope body).run pass = body.run opened ∧
      (∀ text, text ∈ opened.labels ↔ text ∈ scope.labels ∨ text ∈ pass.labels) ∧
      (pass.labels.Pairwise (· < ·) → opened.labels.Pairwise (· < ·)) := by
  rcases Check.declareAll_apply scope.declarations pass with ⟨opened, hstep, hlabels, hsorted⟩
  refine ⟨opened, hstep, ?_, hlabels, hsorted⟩
  rw [run, Check.bind_apply, hstep]

theorem run_andThen_apply (first next : Plan) (pass : Pass) :
    (andThen first next).run pass =
      match first.run pass with
      | (.ok _, middle) => next.run middle
      | (.error error, middle) => (.error error, middle) := by
  rw [run, Check.bind_apply]
  rcases first.run pass with ⟨error | done, middle⟩
  · rfl
  · rfl

theorem run_attempt_apply (candidate otherwise : Plan) (pass : Pass) :
    (attempt candidate otherwise).run pass =
      match candidate.run pass with
      | (.ok _, after) => (.ok (), after)
      | (.error _, after) => otherwise.run (Check.rollBack pass after) := by
  rw [run, Check.bind_apply, Check.succeeds]
  rcases candidate.run pass with ⟨error | done, after⟩
  · rfl
  · rfl

/-! ## Watching -/

/-- Carries out a plan inside the scopes `enclosing` and keeps a record of it. -/
def watch (enclosing : List Scope) : Plan → Watch → Except ValidationError Unit × Watch
  | settled outcome, w => (outcome, w)
  | refer reference, w =>
    let (outcome, pass) := Check.resolve reference w.pass
    (outcome, ⟨pass, w.entered, w.sightings ++ [⟨reference, enclosing, w.entered, outcome.isOk⟩]⟩)
  | within scope body, w =>
    body.watch (scope :: enclosing)
      ⟨(Check.declareAll scope.declarations w.pass).2, scope :: w.entered, w.sightings⟩
  | andThen first next, w =>
    match first.watch enclosing w with
    | (.ok _, middle) => next.watch enclosing middle
    | (.error error, middle) => (.error error, middle)
  | attempt candidate otherwise, w =>
    match candidate.watch enclosing w with
    | (.ok _, after) => (.ok (), after)
    | (.error _, after) =>
      otherwise.watch enclosing ⟨Check.rollBack w.pass after.pass, w.entered, after.sightings⟩

/-- Watching a pass does not change it. -/
theorem watch_eq_run (plan : Plan) (enclosing : List Scope) (w : Watch) :
    ((plan.watch enclosing w).1, (plan.watch enclosing w).2.pass) = plan.run w.pass := by
  induction plan generalizing enclosing w with
  | settled outcome => rfl
  | refer reference => rfl
  | within scope body ih =>
    rcases run_within_apply scope body w.pass with ⟨opened, hstep, hrun, -⟩
    rw [hrun, watch, hstep]
    exact ih _ _
  | andThen first next ihFirst ihNext =>
    have hfirst := ihFirst enclosing w
    rw [run_andThen_apply, ← hfirst, watch]
    rcases first.watch enclosing w with ⟨error | done, middle⟩
    · rfl
    · exact ihNext enclosing middle
  | attempt candidate otherwise ihCandidate ihOtherwise =>
    have hcandidate := ihCandidate enclosing w
    rw [run_attempt_apply, ← hcandidate, watch]
    rcases candidate.watch enclosing w with ⟨error | done, after⟩
    · exact ihOtherwise enclosing _
    · rfl

end Plan

/-! ## Sound records -/

/-- A string was accepted just if it was within its bounds and a label of a scope entered by then,
and the scopes around it had been entered. -/
structure Sighting.Lawful (sighting : Sighting) : Prop where
  accepted_iff : sighting.accepted = true ↔ sighting.reference.InBounds ∧
    ∃ scope ∈ sighting.entered, sighting.reference.text ∈ scope.labels
  entered : ∀ scope ∈ sighting.enclosing, scope ∈ sighting.entered

/-- The labels of a pass are those of the scopes entered. -/
structure Watch.Sound (w : Watch) : Prop where
  labels : ∀ text, text ∈ w.pass.labels ↔ ∃ scope ∈ w.entered, text ∈ scope.labels
  sightings : ∀ sighting ∈ w.sightings, sighting.Lawful

namespace Plan

/-- Scopes stay entered. -/
theorem entered_suffix (plan : Plan) (enclosing : List Scope) (w : Watch) :
    w.entered <:+ (plan.watch enclosing w).2.entered := by
  induction plan generalizing enclosing w with
  | settled outcome => exact List.suffix_refl _
  | refer reference => exact List.suffix_refl _
  | within scope body ih =>
    rw [watch]
    have hbody := ih (scope :: enclosing)
      ⟨(Check.declareAll scope.declarations w.pass).2, scope :: w.entered, w.sightings⟩
    exact (List.suffix_cons scope w.entered).trans hbody
  | andThen first next ihFirst ihNext =>
    have hfirst := ihFirst enclosing w
    rw [watch]
    rcases hwatch : first.watch enclosing w with ⟨error | done, middle⟩
    · rw [hwatch] at hfirst
      exact hfirst
    · rw [hwatch] at hfirst
      exact hfirst.trans (ihNext enclosing middle)
  | attempt candidate otherwise ihCandidate ihOtherwise =>
    have hcandidate := ihCandidate enclosing w
    rw [watch]
    rcases hwatch : candidate.watch enclosing w with ⟨error | done, after⟩
    · exact ihOtherwise enclosing ⟨Check.rollBack w.pass after.pass, w.entered, after.sightings⟩
    · rw [hwatch] at hcandidate
      exact hcandidate

/-- A record stays sound. -/
theorem sound_watch (plan : Plan) {enclosing : List Scope} {w : Watch} (h : w.Sound)
    (henclosing : ∀ scope ∈ enclosing, scope ∈ w.entered) :
    (plan.watch enclosing w).2.Sound := by
  induction plan generalizing enclosing w with
  | settled outcome => exact h
  | refer reference =>
    rcases Check.resolve_apply reference w.pass with ⟨hsame, haccepted⟩
    constructor
    · intro text
      show text ∈ (Check.resolve reference w.pass).2.labels ↔
        ∃ scope ∈ w.entered, text ∈ scope.labels
      rw [hsame]
      exact h.labels text
    · intro sighting hmem
      rcases List.mem_append.1 hmem with hold | hnew
      · exact h.sightings sighting hold
      · rw [List.mem_singleton.1 hnew]
        constructor
        · rw [← h.labels]
          exact haccepted
        · exact henclosing
  | within scope body ih =>
    rcases Check.declareAll_apply scope.declarations w.pass with ⟨opened, hstep, hlabels, -⟩
    rw [watch, hstep]
    apply ih
    · constructor
      · intro text
        rw [hlabels, h.labels]
        simp [Scope.labels]
      · exact h.sightings
    · intro other hother
      rcases List.mem_cons.1 hother with heq | hmem
      · rw [heq]
        exact List.mem_cons_self
      · exact List.mem_cons_of_mem _ (henclosing other hmem)
  | andThen first next ihFirst ihNext =>
    have hfirst := ihFirst h henclosing
    have hkept := entered_suffix first enclosing w
    rw [watch]
    rcases hwatch : first.watch enclosing w with ⟨error | done, middle⟩
    · rw [hwatch] at hfirst
      exact hfirst
    · rw [hwatch] at hfirst hkept
      apply ihNext hfirst
      intro scope hscope
      exact hkept.subset (henclosing scope hscope)
  | attempt candidate otherwise ihCandidate ihOtherwise =>
    have hcandidate := ihCandidate h henclosing
    rw [watch]
    rcases hwatch : candidate.watch enclosing w with ⟨error | done, after⟩
    · rw [hwatch] at hcandidate
      -- the scopes of a failed candidate are forgotten together with its labels
      apply ihOtherwise
      · exact ⟨h.labels, hcandidate.sightings⟩
      · exact henclosing
    · rw [hwatch] at hcandidate
      exact hcandidate

end Plan

end SentenceEngine
