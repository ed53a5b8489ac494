import SentenceEngine.Proofs.Coverage
import SentenceEngine.Proofs.Reentrance
import SentenceEngine.Proofs.Scopes

/-!
# Validity while scripts are registered

What a validation finds depends on the scripts that are registered. A script that is registered
later can only matter where a validation failed for want of it. Such a failure makes the program
invalid, unless it befell a candidate among alternatives: then a later candidate may have been taken
in its place. With the script the first candidate may pass, and declare other labels than the later
one did. A program that was valid therefore stays valid, as long as no candidate waits for one of
the new scripts, or every string that has to name a label still finds it.

* `Plan.missing`, `Plan.overlooked`: the handlers for want of which a plan fails, and where.
* `Plan.Grows`: what further scripts can do to a plan.
* `Registry.Unsettles`: when further scripts can make a valid program invalid.
* `Machine.Certified`: the default program passed a validation at one of the stages of a run.
* `Machine.Run.created_valid`: programs stay valid over a run, and those of new threads are.
-/

namespace SentenceEngine

namespace Plan

/-- The handlers for want of which a plan fails somewhere. -/
def missing : Plan → List String
  | settled (.error ⟨_, _, .unknownHandler handler⟩) => [handler]
  | settled _ => []
  | refer _ => []
  | within _ body => body.missing
  | andThen first next => first.missing ++ next.missing
  | attempt candidate otherwise => candidate.missing ++ otherwise.missing

/-- The handlers for want of which a candidate fails somewhere, so that another one is tried. -/
def overlooked : Plan → List String
  | settled _ => []
  | refer _ => []
  | within _ body => body.overlooked
  | andThen first next => first.overlooked ++ next.overlooked
  | attempt candidate otherwise => candidate.missing ++ otherwise.overlooked

/-- What further scripts can do to a plan: where it fails for want of one of them, it may do
anything instead. -/
inductive Grows (fresh : String → Prop) : Plan → Plan → Prop
  | settled (outcome : Except ValidationError Unit) :
      Grows fresh (.settled outcome) (.settled outcome)
  | refer (reference : LabelReference) : Grows fresh (.refer reference) (.refer reference)
  | found {handler : String} {path : Path} (plan : Plan) (hfresh : fresh handler) :
      Grows fresh (refuse handler path (.unknownHandler handler)) plan
  | within {scope : Scope} {body body' : Plan} (hbody : Grows fresh body body') :
      Grows fresh (.within scope body) (.within scope body')
  | andThen {first first' next next' : Plan} (hfirst : Grows fresh first first')
      (hnext : Grows fresh next next') : Grows fresh (.andThen first next) (.andThen first' next')
  | attempt {candidate candidate' otherwise otherwise' : Plan}
      (hcandidate : Grows fresh candidate candidate')
      (hotherwise : Grows fresh otherwise otherwise') :
      Grows fresh (.attempt candidate otherwise) (.attempt candidate' otherwise')

variable {fresh : String → Prop}

theorem Grows.refl (plan : Plan) : Grows fresh plan plan := by
  induction plan with
  | settled outcome => exact .settled outcome
  | refer reference => exact .refer reference
  | within scope body ih => exact .within ih
  | andThen first next ihFirst ihNext => exact .andThen ihFirst ihNext
  | attempt candidate otherwise ihCandidate ihOtherwise => exact .attempt ihCandidate ihOtherwise

/-! ## Carrying out plans that grow -/

/-- A plan that lacks none of the further scripts stays as it is. -/
theorem Grows.eq {plan plan' : Plan} (h : Grows fresh plan plan')
    (hmissing : ∀ handler ∈ plan.missing, ¬ fresh handler) : plan = plan' := by
  induction h with
  | settled outcome => rfl
  | refer reference => rfl
  | @found handler path plan hfresh =>
    exact absurd hfresh (hmissing handler (List.mem_singleton_self _))
  | within hbody ih => rw [ih hmissing]
  | andThen hfirst hnext ihFirst ihNext =>
    rw [ihFirst fun handler hmem => hmissing handler (List.mem_append_left _ hmem),
      ihNext fun handler hmem => hmissing handler (List.mem_append_right _ hmem)]
  | attempt hcandidate hotherwise ihCandidate ihOtherwise =>
    rw [ihCandidate fun handler hmem => hmissing handler (List.mem_append_left _ hmem),
      ihOtherwise fun handler hmem => hmissing handler (List.mem_append_right _ hmem)]

/-- If no candidate waits for one of the further scripts, what succeeded comes to the same. -/
theorem Grows.run_eq {plan plan' : Plan} (h : Grows fresh plan plan')
    (hoverlooked : ∀ handler ∈ plan.overlooked, ¬ fresh handler) {pass : Pass}
    (hok : (plan.run pass).1.isOk = true) : plan'.run pass = plan.run pass := by
  induction h generalizing pass with
  | settled outcome => rfl
  | refer reference => rfl
  | found plan hfresh => cases hok
  | @within scope body body' hbody ih =>
    rcases run_within_apply scope body pass with ⟨opened, hdeclare, hrun, -⟩
    rcases run_within_apply scope body' pass with ⟨opened', hdeclare', hrun', -⟩
    cases hdeclare.symm.trans hdeclare'
    rw [hrun] at hok
    rw [hrun, hrun', ih hoverlooked hok]
  | @andThen first first' next next' hfirst hnext ihFirst ihNext =>
    have hseen : ∀ handler ∈ first.overlooked, ¬ fresh handler :=
      fun handler hmem => hoverlooked handler (List.mem_append_left _ hmem)
    rw [run_andThen_apply] at hok
    rw [run_andThen_apply, run_andThen_apply]
    rcases hrun : first.run pass with ⟨error | done, middle⟩
    · rw [hrun] at hok
      cases hok
    · rw [hrun] at hok
      rw [ihFirst hseen (by rw [hrun]; rfl), hrun]
      exact ihNext (fun handler hmem => hoverlooked handler (List.mem_append_right _ hmem)) hok
  | @attempt candidate candidate' otherwise otherwise' hcandidate hotherwise _ ihOtherwise =>
    -- the candidate is the same as before, whether it succeeds or not
    have hsame := hcandidate.eq fun handler hmem =>
      hoverlooked handler (List.mem_append_left _ hmem)
    subst hsame
    rw [run_attempt_apply] at hok
    rw [run_attempt_apply, run_attempt_apply]
    rcases hrun : candidate.run pass with ⟨error | done, after⟩
    · rw [hrun] at hok
      exact ihOtherwise (fun handler hmem => hoverlooked handler (List.mem_append_right _ hmem)) hok
    · rfl

/-- What was met stays in the record. -/
theorem sightings_subset (plan : Plan) (enclosing : List Scope) (w : Watch) :
    w.sightings ⊆ (plan.watch enclosing w).2.sightings := by
  induction plan generalizing enclosing w with
  | settled outcome => exact List.Subset.refl _
  | refer reference => exact List.subset_append_left _ _
  | within scope body ih =>
    exact ih (scope :: enclosing)
      ⟨(Check.declareAll scope.declarations w.pass).2, scope :: w.entered, w.sightings⟩
  | andThen first next ihFirst ihNext =>
    have hfirst := ihFirst enclosing w
    rw [watch]
    rcases hwatch : first.watch enclosing w with ⟨error | done, middle⟩
    · rwa [hwatch] at hfirst
    · rw [hwatch] at hfirst
      exact List.Subset.trans hfirst (ihNext enclosing middle)
  | attempt candidate otherwise ihCandidate ihOtherwise =>
    have hcandidate := ihCandidate enclosing w
    rw [watch]
    rcases hwatch : candidate.watch enclosing w with ⟨error | done, after⟩
    · rw [hwatch] at hcandidate
      exact List.Subset.trans hcandidate
        (ihOtherwise enclosing ⟨Check.rollBack w.pass after.pass, w.entered, after.sightings⟩)
    · rwa [hwatch] at hcandidate

/-- If a plan fails that succeeded, whatever labels had been declared when it did, a string in it
is refused that names none of those declared now. -/
theorem Grows.exists_refused {plan plan' : Plan} (h : Grows fresh plan plan') {pass : Pass}
    (hok : (plan.run pass).1.isOk = true) {enclosing : List Scope} {w : Watch}
    (hfailed : (plan'.watch enclosing w).1.isOk = false) :
    ∃ sighting ∈ (plan'.watch enclosing w).2.sightings,
      sighting.reference.InBounds ∧ sighting.accepted = false := by
  -- the pass that succeeded and the one that fails may differ in all they have declared
  induction h generalizing pass enclosing w with
  | settled outcome => exact absurd (hok.symm.trans hfailed) Bool.noConfusion
  | refer reference =>
    have hbounds := ((Check.resolve_apply reference pass).2.1 hok).1
    exact ⟨_, List.mem_append_right _ (List.mem_singleton_self _), hbounds, hfailed⟩
  | found plan hfresh => cases hok
  | @within scope body body' hbody ih =>
    rcases run_within_apply scope body pass with ⟨opened, -, hrun, -⟩
    rw [hrun] at hok
    exact ih hok hfailed
  | @andThen first first' next next' hfirst hnext ihFirst ihNext =>
    rw [run_andThen_apply] at hok
    rw [watch] at hfailed ⊢
    rcases hrun : first.run pass with ⟨error | done, middle⟩
    · rw [hrun] at hok
      cases hok
    · have hfirst : (first.run pass).1.isOk = true := by rw [hrun]; rfl
      rw [hrun] at hok
      rcases hwatch : first'.watch enclosing w with ⟨error | done, reached⟩
      · have hrefused := ihFirst hfirst (by rw [hwatch]; rfl)
        rwa [hwatch] at hrefused
      · rw [hwatch] at hfailed
        exact ihNext hok hfailed
  | @attempt candidate candidate' otherwise otherwise' hcandidate hotherwise ihCandidate
      ihOtherwise =>
    rw [run_attempt_apply] at hok
    rw [watch] at hfailed ⊢
    rcases hwatch : candidate'.watch enclosing w with ⟨error | done, reached⟩
    · rw [hwatch] at hfailed
      rcases hrun : candidate.run pass with ⟨error | done, after⟩
      · rw [hrun] at hok
        exact ihOtherwise hok hfailed
      · -- the candidate that was taken fails, and its refusals stay in the record
        have hrefused := ihCandidate (by rw [hrun]; rfl) (by rw [hwatch]; rfl)
        rw [hwatch] at hrefused
        obtain ⟨sighting, hmem, hsighting⟩ := hrefused
        exact ⟨sighting, sightings_subset _ _ _ hmem, hsighting⟩
    · rw [hwatch] at hfailed
      cases hfailed

/-! ## The plans of a program -/

section Places

variable {plan plan' : Schema → Path → Json → Plan} {handler : String} {path : Path}

theorem grows_ofItems {plan plan' : Path → Json → Plan}
    (h : ∀ path item, Grows fresh (plan path item) (plan' path item)) (position : Nat)
    (items : List Json) :
    Grows fresh (ofItems plan path position items) (ofItems plan' path position items) := by
  induction items generalizing position with
  | nil => exact .refl _
  | cons item rest ih => exact .andThen (h _ item) (ih _)

theorem grows_ofFields
    (h : ∀ schema path value, Grows fresh (plan schema path value) (plan' schema path value))
    (members : Members) (fields : List (String × Schema)) :
    Grows fresh (ofFields plan handler path members fields)
      (ofFields plan' handler path members fields) := by
  induction fields with
  | nil => exact .refl _
  | cons field rest ih =>
    rcases field with ⟨key, schema⟩
    refine .andThen ?_ ih
    rcases members.find? key with _ | value
    · exact .refl _
    · exact h schema _ value

theorem grows_ofOthers
    (h : ∀ schema path value, Grows fresh (plan schema path value) (plan' schema path value))
    (fields : Fields) (rest : Option Schema) (dynamicKeys : Bool)
    (members : List (String × Json)) :
    Grows fresh (ofOthers plan handler path fields rest dynamicKeys members)
      (ofOthers plan' handler path fields rest dynamicKeys members) := by
  induction members with
  | nil => exact .refl _
  | cons member others ih =>
    rcases member with ⟨key, value⟩
    refine .andThen ?_ ih
    cases fields.hasKey key with
    | true => exact .refl _
    | false =>
      rcases rest with _ | schema
      · exact .refl _
      · exact h schema _ value

theorem grows_ofCandidates {plan plan' : Schema → Plan} {failure : Plan}
    (h : ∀ schema, Grows fresh (plan schema) (plan' schema)) (candidates : List Schema) :
    Grows fresh (ofCandidates plan failure candidates)
      (ofCandidates plan' failure candidates) := by
  induction candidates with
  | nil => exact .refl _
  | cons candidate rest ih => exact .attempt (h candidate) ih

end Places

/-- Only the programs inside a value depend on the scripts. -/
theorem grows_ofValue {analyze analyze' : Path → Sentence → Plan} {handler : String}
    (h : ∀ path sentence, Grows fresh (analyze path sentence) (analyze' path sentence))
    (depth : Nat) (enclosing : List Schema) (schema : Schema) (path : Path) (value : Json) :
    Grows fresh (ofValue analyze handler depth enclosing schema path value)
      (ofValue analyze' handler depth enclosing schema path value) := by
  induction depth generalizing enclosing schema path value with
  | zero => exact .refl _
  | succ depth ih =>
    have hinner : ∀ inner path value,
        Grows fresh (ofValue analyze handler depth (schema :: enclosing) inner path value)
          (ofValue analyze' handler depth (schema :: enclosing) inner path value) :=
      fun inner path value => ih (schema :: enclosing) inner path value
    cases hkind : schema.kind with
    | array content =>
      cases value with
      | array items =>
        simp only [ofValue, hkind]
        exact grows_ofItems (hinner content) 0 items
      | _ =>
        simp only [ofValue, hkind]
        exact .refl _
    | object fields rest dynamicKeys =>
      cases value with
      | object members =>
        simp only [ofValue, hkind]
        exact .andThen (grows_ofFields hinner members fields)
          (grows_ofOthers hinner fields rest dynamicKeys members)
      | _ =>
        simp only [ofValue, hkind]
        exact .refl _
    | sentences =>
      simp only [ofValue, hkind]
      rcases Sentence.ofJson value with error | sentence
      · exact .refl _
      · exact h path sentence
    | alternatives candidates =>
      simp only [ofValue, hkind]
      split
      · exact .refl _
      · exact grows_ofCandidates (fun candidate => hinner candidate path value) candidates
    | reference target =>
      simp only [ofValue, hkind]
      split
      · exact hinner _ path value
      · exact .refl _
    | string minLength maxLength labelReference =>
      cases value with
      | string text =>
        cases labelReference with
        | true =>
          simp only [ofValue, hkind]
          exact .refl _
        | false =>
          simp only [ofValue, hkind]
          exact .refl _
      | _ =>
        simp only [ofValue, hkind]
        exact .refl _
    | _ =>
      simp only [ofValue, hkind]
      exact .refl _

theorem grows_ofSentences {instruction instruction' : Path → Instruction → Plan}
    (h : ∀ path i, Grows fresh (instruction path i) (instruction' path i)) (path : Path)
    (position : Nat) (items : List Sentence) :
    Grows fresh (ofSentences instruction path position items)
      (ofSentences instruction' path position items) := by
  fun_induction ofSentences instruction path position items with
  | case1 =>
    rw [ofSentences]
    exact .refl _
  | case2 path position text rest ih =>
    rw [ofSentences]
    exact ih
  | case3 path position i rest ih =>
    rw [ofSentences]
    exact .andThen (h _ i) ih
  | case4 path position items rest ihItems ihRest =>
    rw [ofSentences]
    exact .andThen (.within ihItems) ihRest

theorem grows_ofSentence {instruction instruction' : Path → Instruction → Plan}
    (h : ∀ path i, Grows fresh (instruction path i) (instruction' path i)) (path : Path)
    (sentence : Sentence) :
    Grows fresh (ofSentence instruction path sentence)
      (ofSentence instruction' path sentence) := by
  cases sentence with
  | label text => exact .refl _
  | instruction i => exact h path i
  | sequence items => exact .within (grows_ofSentences h path 0 items)

/-- An instruction whose script is there keeps it; one whose script was missing may find it. -/
theorem grows_ofInstruction {lookup lookup' : SchemaLookup}
    (hextends : ∀ handler fields, lookup handler = some fields → lookup' handler = some fields)
    (nesting : Nat) (path : Path) (i : Instruction) :
    Grows (fun handler => lookup handler = none ∧ lookup' handler ≠ none)
      (ofInstruction lookup nesting path i) (ofInstruction lookup' nesting path i) := by
  induction nesting generalizing path i with
  | zero => exact .refl _
  | succ nesting ih =>
    rcases hlookup : lookup i.handler with _ | fields
    · simp only [ofInstruction, hlookup]
      rcases hlookup' : lookup' i.handler with _ | fields'
      · exact .refl _
      · exact .found _ ⟨hlookup, by simp [hlookup']⟩
    · simp only [ofInstruction, hlookup, hextends _ _ hlookup]
      apply grows_ofFields
      intro schema path value
      exact grows_ofValue (fun path sentence => grows_ofSentence ih path sentence) _ _ _ _ _

theorem grows_ofProgram {lookup lookup' : SchemaLookup}
    (hextends : ∀ handler fields, lookup handler = some fields → lookup' handler = some fields)
    (program : Sentence) :
    Grows (fun handler => lookup handler = none ∧ lookup' handler ≠ none)
      (ofProgram lookup program) (ofProgram lookup' program) :=
  grows_ofSentence (fun path i => grows_ofInstruction hextends program.nesting path i) .root program

end Plan

theorem Watch.sound_start : Watch.start.Sound where
  labels := by simp [start, Pass.start]
  sightings := by simp [start]

/-! ## Registries -/

namespace Registry

variable {registry grown : Registry} {program : Sentence}

/-- The program is valid with the scripts of the registry. -/
def Accepts (registry : Registry) (program : Sentence) : Prop :=
  ∃ report, validate registry.fields? program = .ok report

/-- What it takes for the scripts of a larger registry to make a program invalid. -/
structure Unsettles (registry grown : Registry) (program : Sentence) : Prop where
  /-- A candidate among alternatives waits for a script that only the larger registry has. -/
  candidate : ∃ handler ∈ (Plan.ofProgram registry.fields? program).overlooked,
    registry.fields? handler = none ∧ grown.fields? handler ≠ none
  /-- With the scripts of the larger registry, a string that has to name a label names none that
  was declared by then. -/
  reference : ∃ sighting ∈ ((Plan.ofProgram grown.fields? program).watch [] .start).2.sightings,
    sighting.reference.InBounds ∧
      ∀ scope ∈ sighting.entered, sighting.reference.text ∉ scope.labels

theorem accepts_iff : registry.Accepts program ↔
    ((Plan.ofProgram registry.fields? program).run Pass.start).1.isOk = true := by
  unfold Accepts validate examine
  rw [Plan.run_ofProgram]
  rcases Pass.over registry.fields? program with ⟨error | done, pass⟩
  · simp [Except.isOk, Except.toBool]
  · simp [Except.isOk, Except.toBool]

theorem Extends.fields? (h : registry.Extends grown) {handler : String} {fields : Fields}
    (hfields : registry.fields? handler = some fields) : grown.fields? handler = some fields := by
  obtain ⟨entry, hfind, rfl⟩ := fields?_eq_some hfields
  simp [Registry.fields?, h handler entry hfind]

/-- A program that is valid stays valid when scripts are registered, unless they unsettle it. -/
theorem Extends.accepts_or_unsettles (h : registry.Extends grown)
    (haccepts : registry.Accepts program) :
    grown.Accepts program ∨ registry.Unsettles grown program := by
  have hextends : ∀ handler fields, registry.fields? handler = some fields →
      grown.fields? handler = some fields := fun handler fields hfields => h.fields? hfields
  have hgrows := Plan.grows_ofProgram hextends program
  have hok := accepts_iff.1 haccepts
  by_cases hcandidate : ∃ handler ∈ (Plan.ofProgram registry.fields? program).overlooked,
      registry.fields? handler = none ∧ grown.fields? handler ≠ none
  · cases hgrown : ((Plan.ofProgram grown.fields? program).run Pass.start).1.isOk with
    | true => exact .inl (accepts_iff.2 hgrown)
    | false =>
      have hwatch := Plan.watch_eq_run (Plan.ofProgram grown.fields? program) [] .start
      have hfailed : ((Plan.ofProgram grown.fields? program).watch [] .start).1.isOk = false := by
        rw [congrArg Prod.fst hwatch]
        exact hgrown
      obtain ⟨sighting, hmem, hbounds, hrefused⟩ := hgrows.exists_refused hok hfailed
      -- a string within its bounds is refused just if no scope entered by then has it
      have hsound : ((Plan.ofProgram grown.fields? program).watch [] .start).2.Sound :=
        Plan.sound_watch _ Watch.sound_start (by simp)
      have hlawful := (hsound.sightings sighting hmem).accepted_iff
      refine .inr ⟨hcandidate, sighting, hmem, hbounds, ?_⟩
      intro scope hscope hlabel
      rw [hlawful.2 ⟨hbounds, scope, hscope, hlabel⟩] at hrefused
      cases hrefused
  · -- no candidate is tried any differently
    have hsame := hgrows.run_eq (fun handler hmem hfresh => hcandidate ⟨handler, hmem, hfresh⟩) hok
    rw [← hsame] at hok
    exact .inl (accepts_iff.2 hok)

end Registry

theorem Engine.passes_iff_accepts {σ : Type} {e : Engine σ} {program : Sentence} :
    e.Passes program ↔ e.scripts.Accepts program := Iff.rfl

/-! ## Runs -/

namespace Machine

variable {σ : Type} {plugins : Plugins σ} {m m' : Machine σ} {event : Event σ}
  {stages stages' : List (Stage σ)} {scripts scripts' : Registry} {program : Sentence}

/-- Nothing takes a script out of the registry. -/
theorem Step.extends (h : Step plugins m event m') (hn : m.engine.Numbered) :
    m.engine.scripts.Extends m'.engine.scripts := by
  rcases h.asked_or_steady hn with ⟨query, todo, -, hanswered⟩ | ⟨-, hsteady⟩
  · exact hanswered.extends
  · rw [← hsteady.scripts]
    exact .refl _

theorem Run.extends_since {host : σ} {config : CoreConfig}
    (h : Run plugins (opened host config) stages m) {earlier later : List (Stage σ)} {s : Stage σ}
    (hstages : stages = earlier ++ s :: later) :
    s.before.engine.scripts.Extends m.engine.scripts := by
  obtain ⟨hreached, hstep⟩ := h.reached hstages
  have hkept := h.since (P := fun m => s.before.engine.scripts.Extends m.engine.scripts) hstages
    (hstep.extends hreached.invariant.numbered) ?_
  · exact hkept.1
  · intro stages m event m' hrun hstep hbefore
    exact hbefore.trans (hstep.extends hrun.invariant.numbered)

/-- The program passed a validation at one of the stages, with no other scripts than these. -/
def Backed (stages : List (Stage σ)) (scripts : Registry) (program : Sentence) : Prop :=
  ∃ r ∈ stages, r.before.engine.Passes program ∧ r.before.engine.scripts.Extends scripts

theorem Backed.mono (h : Backed stages scripts program) (hstages : stages ⊆ stages')
    (hext : scripts.Extends scripts') : Backed stages' scripts' program := by
  obtain ⟨r, hr, hpasses, hbefore⟩ := h
  exact ⟨r, hstages hr, hpasses, hbefore.trans hext⟩

/-- Where the default program is marked as validated, it was, at one of the stages. -/
def Certified (stages : List (Stage σ)) (m : Machine σ) : Prop :=
  m.engine.validated = true →
    ∃ program, m.engine.defaults.sentences = some program ∧
      Backed stages m.engine.scripts program

theorem Certified.step (h : Certified stages m) (hstep : Step plugins m event m')
    (hn : m.engine.Numbered) : Certified (stages ++ [⟨m, event, m'⟩]) m' := by
  intro hvalidated
  have hext := hstep.extends hn
  have kept : m.engine.validated = true →
      m'.engine.defaults.sentences = m.engine.defaults.sentences →
      ∃ program, m'.engine.defaults.sentences = some program ∧
        Backed (stages ++ [⟨m, event, m'⟩]) m'.engine.scripts program := by
    intro hbefore hsame
    obtain ⟨program, hprogram, hbacked⟩ := h hbefore
    exact ⟨program, hsame.trans hprogram, hbacked.mono (List.subset_append_left _ _) hext⟩
  rcases hstep.asked_or_steady hn with ⟨query, todo, -, hanswered⟩ | ⟨-, hsteady⟩
  · rcases hanswered.marked hvalidated with ⟨program, hprogram, hpasses⟩ | ⟨hbefore, hsame⟩
    · have hlast := List.mem_append_right stages (List.mem_singleton_self ⟨m, event, m'⟩)
      exact ⟨program, hprogram, _, hlast, hpasses, hext⟩
    · exact kept hbefore hsame
  · exact kept (hsteady.validated.trans hvalidated) (by rw [hsteady.defaults])

theorem Run.certified {host : σ} {config : CoreConfig}
    (h : Run plugins (opened host config) stages m) : Certified stages m := by
  induction h with
  | start =>
    -- nothing was validated in an empty engine
    intro hvalidated
    cases hvalidated
  | step hrun hstep ih => exact ih.step hstep hrun.invariant.numbered

/-- A request for a thread that is granted creates the thread of the number in the reply. -/
theorem Step.creates_of_granted (h : Step plugins m event m') (hn : m.engine.Numbered)
    {overrides : Option ThreadConfig} {id : ThreadId}
    (hasks : event.asks? = some (.core (.createThread overrides)))
    (hreply : (m.engine.answer (.core (.createThread overrides))).reply = some (.ok id)) :
    ∃ t program services, m'.engine.thread? id = some t ∧
      Creates m event id t overrides program services := by
  obtain ⟨hbefore, hafter⟩ := h.granted hasks hreply
  obtain ⟨t, ht, -⟩ := Engine.phase?_eq_some_iff.1 hafter
  have hnone := Engine.phase?_eq_none_iff.1 hbefore
  obtain ⟨asked, program, services, hcreates⟩ := h.creates hn hnone ht
  cases hasks.symm.trans hcreates.asks
  exact ⟨t, program, services, ht, hcreates⟩

/-- Whatever is registered, configured and created, a program that passed a validation passes it
ever after, unless the scripts registered meanwhile unsettle it. The program of a thread that is
created passed a validation, for this thread if it came with the request or no default program had
passed one yet, and otherwise before, with scripts that the thread has. So it passes one with the
scripts of the thread, unless these unsettle it. -/
theorem Run.created_valid {host : σ} {config : CoreConfig}
    (h : Run plugins (opened host config) stages m) :
    (∀ earlier s later program, stages = earlier ++ s :: later →
        s.before.engine.scripts.Accepts program →
          m.engine.scripts.Accepts program ∨
            s.before.engine.scripts.Unsettles m.engine.scripts program) ∧
      ∀ earlier s later overrides id, stages = earlier ++ s :: later →
        s.event.asks? = some (.core (.createThread overrides)) →
        (s.before.engine.answer (.core (.createThread overrides))).reply = some (.ok id) →
          ∃ t program r, s.after.engine.thread? id = some t ∧
            t.scripts = s.before.engine.scripts ∧
            (s.before.engine.defaults.merge (overrides.getD .empty)).sentences = some program ∧
            r ∈ earlier ++ [s] ∧ r.before.engine.scripts.Extends t.scripts ∧
            r.before.engine.scripts.Accepts program ∧
            ((overrides.getD .empty).sentences.isSome = true ∨
              s.before.engine.validated = false → r = s) ∧
            (t.scripts.Accepts program ∨
              r.before.engine.scripts.Unsettles t.scripts program) := by
  constructor
  · intro earlier s later program hstages haccepts
    exact (h.extends_since hstages).accepts_or_unsettles haccepts
  · intro earlier s later overrides id hstages hasks hreply
    obtain ⟨hreached, hstep⟩ := h.reached hstages
    obtain ⟨t, program, services, ht, hcreates⟩ :=
      hstep.creates_of_granted hreached.invariant.numbered hasks hreply
    obtain ⟨start, -, -, hstate⟩ := ThreadState.create_eq_ok hcreates.create
    have hscripts : t.scripts = s.before.engine.scripts := by rw [hstate]
    have hprogram := hcreates.sentences
    refine ⟨t, program, ?_⟩
    rw [hscripts]
    by_cases hnow : (overrides.getD .empty).sentences.isSome = true ∨
        s.before.engine.validated = false
    · have haccepts := Engine.passes_iff_accepts.1 (hcreates.valid hnow)
      exact ⟨s, ht, rfl, hprogram, List.mem_append_right _ (List.mem_singleton_self _), .refl _,
        haccepts, fun _ => rfl, .inl haccepts⟩
    · -- it is the default program then, and that one was marked
      simp only [not_or, Bool.not_eq_true, Bool.not_eq_false] at hnow
      obtain ⟨default, hdefault, r, hr, hpasses, hext⟩ := hreached.certified hnow.2
      rw [Engine.sentences_merge_of_none hnow.1, hdefault] at hprogram
      cases hprogram
      have haccepts := Engine.passes_iff_accepts.1 hpasses
      refine ⟨r, ht, rfl, ?_, List.mem_append_left _ hr, hext, haccepts, ?_,
        hext.accepts_or_unsettles haccepts⟩
      · rw [Engine.sentences_merge_of_none hnow.1, hdefault]
      · rintro (hsome | hunmarked)
        · rw [hnow.1] at hsome
          cases hsome
        · rw [hnow.2] at hunmarked
          cases hunmarked

/-! ## A program that is unsettled -/

/-- A script whose body is an object with a program in the first of two members, or else in the
second one. -/
def chooserFactory : Factory :=
  let body (first second : Schema) : Schema :=
    .ofKind (.object [("first", first), ("second", second)] none false)
  ⟨"choose", some [("body", .alternatives [body .sentences .any, body .any .sentences]),
    ("to", Schema.string.asLabelReference)], "choose"⟩

/-- A program that names a label of the second member. The first one waits for a script. -/
def swayed : Sentence :=
  .instruction ⟨"choose",
    [("body", .object [("first", .object [("handler", .string "late")]),
      ("second", .string "there")]), ("to", .string "there")]⟩

/-- An engine with the first of the two scripts. -/
def choosing : Machine Unit :=
  ((opened () ⟨.empty⟩).ask (.core (.registerScript "choose" chooserFactory))).2

/-- The engine once the program has become its default one. -/
def chosen : Machine Unit := (choosing.ask (.core (.configure (.ofProgram swayed)))).2

/-- The engine once the other script is registered as well. -/
def unsettled : Machine Unit :=
  (chosen.ask (.core (.registerScript "late" ⟨"late", some [], "late"⟩))).2

theorem exists_run_unsettled :
    ∃ stages, Run idlePlugins (opened () ⟨.empty⟩) stages unsettled ∧
      ∃ earlier s later, stages = earlier ++ s :: later ∧ s.before = chosen := by
  have hchoosing := (.start : Run idlePlugins (opened () ⟨.empty⟩) [] _).step
    (.ask (.core (.registerScript "choose" chooserFactory)))
  have hchosen := hchoosing.step (.ask (.core (.configure (.ofProgram swayed))))
  have hunsettled := hchosen.step (.ask (.core (.registerScript "late" ⟨"late", some [], "late"⟩)))
  exact ⟨_, hunsettled, _, _, [], rfl, rfl⟩

theorem accepts_chosen : chosen.engine.scripts.Accepts swayed := by
  have hok : (validate chosen.engine.scripts.fields? swayed).isOk = true := by decide +kernel
  rcases hresult : validate chosen.engine.scripts.fields? swayed with error | report
  · rw [hresult] at hok
    cases hok
  · exact ⟨report, hresult⟩

theorem not_accepts_unsettled : ¬ unsettled.engine.scripts.Accepts swayed := by
  rintro ⟨report, hresult⟩
  have hfailed : (validate unsettled.engine.scripts.fields? swayed).isOk = false := by
    decide +kernel
  rw [hresult] at hfailed
  cases hfailed

/-- The engine still creates a thread with the program: it was valid when it was configured, and is
not with the scripts of the thread. -/
theorem Run.created_valid_unsettled :
    ∃ stages m earlier s r t, Run idlePlugins (opened () ⟨.empty⟩) stages m ∧
      stages = earlier ++ [s] ∧ s.after.engine.thread? 0 = some t ∧ r ∈ stages ∧
      r.before.engine.scripts.Accepts swayed ∧ ¬ t.scripts.Accepts swayed ∧
      r.before.engine.scripts.Unsettles t.scripts swayed := by
  obtain ⟨stages, hrun, -⟩ := exists_run_unsettled
  have hcreated := hrun.ask rfl (.core (.createThread none))
  obtain ⟨t, program, r, ht, hscripts, hprogram, hr, -, haccepts, -, hvalid⟩ :=
    (Run.created_valid hcreated).2 stages _ [] none 0 rfl rfl rfl
  cases (hprogram : some swayed = some program)
  have hrefuses : ¬ t.scripts.Accepts swayed := by
    rw [hscripts]
    exact not_accepts_unsettled
  exact ⟨_, _, stages, _, r, t, hcreated, rfl, ht, hr, haccepts, hrefuses,
    hvalid.resolve_left hrefuses⟩

/-- So a thread can run a program that is not valid with its scripts, and a valid program does not
stay valid whatever is registered. -/
theorem not_created_valid :
    (¬ ∀ (plugins : Plugins Unit) (host : Unit) (config : CoreConfig) (stages earlier later :
      List (Stage Unit)) (m : Machine Unit) (s : Stage Unit) (overrides : Option ThreadConfig)
      (id : ThreadId) (t : ThreadState) (program : Sentence),
      Run plugins (opened host config) stages m → stages = earlier ++ s :: later →
      s.event.asks? = some (.core (.createThread overrides)) →
      (s.before.engine.answer (.core (.createThread overrides))).reply = some (.ok id) →
      s.after.engine.thread? id = some t →
      (s.before.engine.defaults.merge (overrides.getD .empty)).sentences = some program →
      t.scripts.Accepts program) ∧
    ¬ ∀ (registry grown : Registry) (program : Sentence), registry.Extends grown →
      registry.Accepts program → grown.Accepts program := by
  obtain ⟨stages, hrun, earlier, s, later, hstages, hchosen⟩ := exists_run_unsettled
  constructor
  · intro hvalid
    have hcreated := hrun.ask rfl (.core (.createThread none))
    exact not_accepts_unsettled (hvalid _ _ _ _ stages [] _ _ none 0 _ swayed hcreated rfl rfl rfl
      rfl rfl)
  · intro hvalid
    have hext := hrun.extends_since hstages
    rw [hchosen] at hext
    exact not_accepts_unsettled (hvalid _ _ _ hext accepts_chosen)

end Machine
end SentenceEngine
