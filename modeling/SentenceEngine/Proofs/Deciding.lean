import SentenceEngine.Validation.Pass

/-!
# Steps that decide

Checking a value that has nothing to do with programs and labels leaves a pass as it found it, and
what the pass has collected is of no account for the outcome. Such a step decides a proposition
about the value: it succeeds if the proposition holds and fails otherwise.

* `Check.Decides`: a step that decides a proposition.
* `Check.Decides.andThen`, `Check.Decides.unless`: sequences of steps, and guards.
* `Check.decides_checkFields` and the like: the functions that check the parts of a value.
-/

namespace SentenceEngine

namespace Check

theorem bind_apply {α β : Type} (step : Check α) (next : α → Check β) (before : Pass) :
    (step >>= next) before =
      match step before with
      | (.ok a, middle) => next a middle
      | (.error error, middle) => (.error error, middle) := by
  show (match step before with | (a, middle) => ExceptT.bindCont next a middle) = _
  rcases step before with ⟨error | a, middle⟩ <;> rfl

/-- A step of a pass that leaves the pass as it is, and succeeds just if something holds. -/
def Decides (step : Check Unit) (holds : Prop) : Prop :=
  ∀ before, (holds ∧ step before = (.ok (), before)) ∨
    (¬ holds ∧ ∃ error, step before = (.error error, before))

theorem decides_pure {p : Prop} (h : p) : Decides (pure ()) p := fun _ => .inl ⟨h, rfl⟩

theorem decides_fail {handler : String} {path : Path} {violation : Violation} {p : Prop}
    (h : ¬ p) : Decides (fail handler path violation) p := fun _ => .inr ⟨h, _, rfl⟩

theorem Decides.congr {step : Check Unit} {p q : Prop} (h : Decides step p) (hiff : p ↔ q) :
    Decides step q := by
  intro before
  rw [← hiff]
  exact h before

theorem Decides.andThen {step : Check Unit} {next : Unit → Check Unit} {p q : Prop}
    (h : Decides step p) (hnext : Decides (next ()) q) : Decides (step >>= next) (p ∧ q) := by
  intro before
  rw [bind_apply]
  rcases h before with ⟨hp, hstep⟩ | ⟨hp, error, hstep⟩
  · rw [hstep]
    rcases hnext before with ⟨hq, hafter⟩ | ⟨hq, error, hafter⟩
    · exact .inl ⟨⟨hp, hq⟩, hafter⟩
    · refine .inr ⟨?_, error, hafter⟩
      intro hboth
      exact hq hboth.2
  · rw [hstep]
    refine .inr ⟨?_, error, rfl⟩
    intro hboth
    exact hp hboth.1

/-- A step that fails under a condition, and otherwise goes on. -/
theorem Decides.unless {handler : String} {path : Path} {violation : Violation}
    {next : Check Unit} {p : Prop} (refused : Prop) [Decidable refused] (h : Decides next p) :
    Decides (if refused then fail handler path violation >>= fun _ => next else next)
      (¬ refused ∧ p) := by
  by_cases hrefused : refused
  · rw [if_pos hrefused]
    refine (Decides.andThen (decides_fail id) h).congr ?_
    simp [hrefused]
  · rw [if_neg hrefused]
    refine h.congr ?_
    simp [hrefused]

/-- Whether such a step succeeds is what it decides; if it fails there is nothing to roll back. -/
theorem Decides.succeeds {step : Check Unit} {p : Prop} (h : Decides step p) (before : Pass) :
    (p ∧ Check.succeeds step before = (.ok true, before)) ∨
      (¬ p ∧ Check.succeeds step before = (.ok false, before)) := by
  unfold Check.succeeds
  rcases h before with ⟨hp, hstep⟩ | ⟨hp, error, hstep⟩
  · rw [hstep]
    exact .inl ⟨hp, rfl⟩
  · rw [hstep]
    refine .inr ⟨hp, ?_⟩
    simp [rollBack]

/-! ## Plain values -/

theorem decides_checkString {handler : String} {path : Path} {min max : Option Nat}
    {text : String} : Decides (checkString handler path min max false text)
      ((∀ bound, min = some bound → bound ≤ text.length) ∧
        ∀ bound, max = some bound → text.length ≤ bound) := by
  unfold checkString
  have hdone : Decides (pure ()) True := decides_pure trivial
  rcases min with _ | min <;> rcases max with _ | max
  · simpa using hdone
  · refine (hdone.unless (max < text.length)).congr ?_
    simp
  · refine (hdone.unless (text.length < min)).congr ?_
    simp
  · have hupper : Decides (if max < text.length then
        fail handler path (.tooLong max text.length) >>= fun _ => pure () else pure ())
        (¬ max < text.length ∧ True) := hdone.unless _
    refine (hupper.unless (text.length < min)).congr ?_
    simp

theorem decides_checkNumber {handler : String} {path : Path} {min max : Option Double}
    {value : Double} : Decides (checkNumber handler path min max value)
      ((∀ bound, min = some bound → value.below bound = false) ∧
        ∀ bound, max = some bound → bound.below value = false) := by
  unfold checkNumber
  have hdone : Decides (pure ()) True := decides_pure trivial
  rcases min with _ | min <;> rcases max with _ | max
  · simpa using hdone
  · refine (hdone.unless (max.below value = true)).congr ?_
    simp
  · refine (hdone.unless (value.below min = true)).congr ?_
    simp
  · have hupper : Decides (if max.below value = true then
        fail handler path (.aboveMaximum max value) >>= fun _ => pure () else pure ())
        (¬ max.below value = true ∧ True) := hdone.unless _
    refine (hupper.unless (value.below min = true)).congr ?_
    simp

/-! ## Lists, objects and alternatives -/

theorem decides_checkItems {check : Path → Json → Check Unit} {path : Path} {position : Nat}
    {items : List Json} {accepted : Json → Prop}
    (h : ∀ item ∈ items, ∀ path, Decides (check path item) (accepted item)) :
    Decides (checkItems check path position items) (∀ item ∈ items, accepted item) := by
  induction items generalizing position with
  | nil => exact decides_pure (by simp)
  | cons item rest ih =>
    have hrest : Decides (checkItems check path (position + 1) rest)
        (∀ other ∈ rest, accepted other) := by
      apply ih
      intro other hother
      exact h other (List.mem_cons_of_mem _ hother)
    exact ((h item List.mem_cons_self _).andThen hrest).congr (by simp)

/-- The fields of an object: those that are there match, and the others are optional. -/
theorem decides_checkFields {check : Checker} {handler : String} {path : Path} {members : Members}
    {fields : List (String × Schema)} {accepted : Schema → Json → Prop}
    (h : ∀ entry ∈ fields, ∀ path value, Decides (check entry.2 path value)
      (accepted entry.2 value)) :
    Decides (checkFields check handler path members fields)
      (∀ entry ∈ fields, (∀ value, members.find? entry.1 = some value → accepted entry.2 value) ∧
        (members.find? entry.1 = none → entry.2.isOptional = true)) := by
  induction fields with
  | nil => exact decides_pure (by simp)
  | cons entry rest ih =>
    have hrest := ih fun other hother => h other (List.mem_cons_of_mem _ hother)
    have hfirst := h entry List.mem_cons_self
    rcases entry with ⟨key, field⟩
    rcases hfind : members.find? key with _ | value
    · cases hopt : field.isOptional with
      | true =>
        simp only [checkFields, hfind, hopt, if_true]
        refine hrest.congr ?_
        rw [List.forall_mem_cons]
        simp [hfind, hopt]
      | false =>
        simp only [checkFields, hfind, hopt]
        refine ((decides_fail id).andThen hrest).congr ?_
        rw [List.forall_mem_cons]
        simp [hfind, hopt]
    · simp only [checkFields, hfind]
      refine ((hfirst _ value).andThen hrest).congr ?_
      rw [List.forall_mem_cons]
      simp [hfind]

/-- The other members of an object. -/
theorem decides_checkOthers {check : Checker} {handler : String} {path : Path} {fields : Fields}
    {rest : Option Schema} {dynamicKeys : Bool} {members : List (String × Json)}
    {accepted : Schema → Json → Prop}
    (h : ∀ other, rest = some other → ∀ path value,
      Decides (check other path value) (accepted other value)) :
    Decides (checkOthers check handler path fields rest dynamicKeys members)
      (∀ member ∈ members, fields.hasKey member.1 = false →
        (∀ other, rest = some other → accepted other member.2) ∧
        (rest = none → dynamicKeys = true)) := by
  induction members with
  | nil => exact decides_pure (by simp)
  | cons member others ih =>
    rcases member with ⟨key, value⟩
    rw [List.forall_mem_cons]
    cases hkey : fields.hasKey key with
    | true =>
      simp only [checkOthers, hkey]
      exact ih.congr (by simp)
    | false =>
      rcases rest with _ | other
      · cases dynamicKeys with
        | true =>
          simp only [checkOthers, hkey]
          exact ih.congr (by simp)
        | false =>
          simp only [checkOthers, hkey]
          exact ((decides_fail id).andThen ih).congr (by simp)
      · simp only [checkOthers, hkey]
        exact ((h other rfl _ value).andThen ih).congr (by simp)

theorem someCandidate_apply {check : Schema → Check Unit} {candidates : List Schema}
    {accepted : Schema → Prop}
    (h : ∀ candidate ∈ candidates, Decides (check candidate) (accepted candidate)) (before : Pass) :
    ((∃ candidate ∈ candidates, accepted candidate) ∧
      someCandidate check candidates before = (.ok true, before)) ∨
    ((¬ ∃ candidate ∈ candidates, accepted candidate) ∧
      someCandidate check candidates before = (.ok false, before)) := by
  induction candidates with
  | nil => exact .inr ⟨by simp, rfl⟩
  | cons candidate rest ih =>
    have hrest := ih fun other hother => h other (List.mem_cons_of_mem _ hother)
    rw [someCandidate, bind_apply]
    rcases (h candidate List.mem_cons_self).succeeds before with ⟨hp, hfound⟩ | ⟨hp, hfound⟩
    · rw [hfound]
      exact .inl ⟨⟨candidate, List.mem_cons_self, hp⟩, rfl⟩
    · rw [hfound]
      simpa [hp] using hrest

/-- One of the candidates matches. -/
theorem decides_alternatives {check : Schema → Check Unit} {candidates : List Schema}
    {handler : String} {path : Path} {violation : Violation} {accepted : Schema → Prop}
    (h : ∀ candidate ∈ candidates, Decides (check candidate) (accepted candidate)) :
    Decides (do if !(← someCandidate check candidates) then fail handler path violation)
      (∃ candidate ∈ candidates, accepted candidate) := by
  intro before
  rw [bind_apply]
  rcases someCandidate_apply h before with ⟨hp, hfound⟩ | ⟨hp, hfound⟩
  · rw [hfound]
    exact .inl ⟨hp, rfl⟩
  · rw [hfound]
    exact .inr ⟨hp, _, rfl⟩

/-! ## Programs -/

/-- A program of one instruction is valid if that is what checking the instruction decides. -/
theorem Decides.validate_iff {lookup : SchemaLookup} {i : Instruction} {p : Prop}
    (h : Decides (checkInstruction lookup (Json.membersHeight i.params + 1) .root i) p) :
    (∃ report, validate lookup (.instruction i) = .ok report) ↔ p := by
  have hpass : Pass.over lookup (.instruction i) =
      checkInstruction lookup (Json.membersHeight i.params + 1) .root i Pass.start := by rfl
  unfold validate examine
  rw [hpass]
  rcases h Pass.start with ⟨hp, hstep⟩ | ⟨hp, error, hstep⟩
  · rw [hstep]
    exact ⟨fun _ => hp, fun _ => ⟨_, rfl⟩⟩
  · rw [hstep]
    constructor
    · rintro ⟨report, hreport⟩
      cases hreport
    · intro hall
      exact absurd hall hp

end Check

end SentenceEngine
