import SentenceEngine.Proofs.Checking
import SentenceEngine.Proofs.Retirement

/-!
# Coverage of instructions

A registry covers an instruction if a script is registered for it and the registry covers, in turn,
all instructions of the programs in those of its parameters that the script's fields declare to be
programs. What passes a validation is covered, and stays so when scripts are registered later. A
thread whose instructions are covered never fails for want of a script, as long as the programs that
control is handed to come out of the parameters of instructions that it dispatched.

* `Registry.Covers`, `Registry.Extends`: coverage, and that it is kept.
* `Engine.Vouched`, `ThreadState.Covered`: the invariants of the engine and of a thread.
* `Machine.Run.no_dispatch_error`: no dispatch failure, in any run.
-/

namespace SentenceEngine

namespace Registry

/-- Every script of the first registry is in the second. -/
def Extends (registry registry' : Registry) : Prop :=
  ∀ name entry, registry.find? name = some entry → registry'.find? name = some entry

theorem Extends.refl (registry : Registry) : registry.Extends registry := fun _ _ h => h

theorem Extends.trans {r r' r'' : Registry} (h : r.Extends r') (h' : r'.Extends r'') :
    r.Extends r'' := fun name entry hfind => h' name entry (h name entry hfind)

/-- A registration overwrites nothing. -/
theorem extends_register {registry registry' : Registry} {name : String} {factory : Factory}
    (h : registry.register name factory = .ok registry') : registry.Extends registry' := by
  intro other entry hfind
  unfold register at h
  split at h
  · cases h
  next hfree =>
    split at h
    · cases h
    next fields hfields =>
      cases h
      have hne : other ≠ name := by
        rintro rfl
        simp [Dictionary.hasKey, hfind] at hfree
      rw [Dictionary.find?_insert, if_neg hne]
      exact hfind

/-- A field declares the program that an instruction has under it. -/
def Declares (registry : Registry) (i : Instruction) (program : Sentence) : Prop :=
  ∃ entry key schema value, registry.find? i.handler = some entry ∧
    (key, schema) ∈ entry.fields ∧ schema.kind = .sentences ∧ i.params.find? key = some value ∧
    Sentence.ofJson value = .ok program

/-- A script is registered for the instruction, and for all instructions of the programs that its
fields declare. -/
inductive Covers (registry : Registry) : Instruction → Prop
  | intro {i : Instruction} {entry : ScriptEntry} (hfind : registry.find? i.handler = some entry)
      (hdeclared : ∀ program, registry.Declares i program →
        ∀ j ∈ program.instructions, Covers registry j) : Covers registry i

theorem Covers.exists_entry {registry : Registry} {i : Instruction} (h : registry.Covers i) :
    ∃ entry, registry.find? i.handler = some entry := by
  cases h with
  | intro hfind hdeclared => exact ⟨_, hfind⟩

theorem Covers.declared {registry : Registry} {i : Instruction} {program : Sentence}
    (h : registry.Covers i) (hdeclares : registry.Declares i program) :
    ∀ j ∈ program.instructions, registry.Covers j := by
  cases h with
  | intro hfind hdeclared => exact hdeclared program hdeclares

/-- Where a script is registered already, a larger registry declares the same programs. -/
theorem Declares.of_extends {r r' : Registry} {i : Instruction} {program : Sentence}
    (hext : r.Extends r') {entry : ScriptEntry} (hfind : r.find? i.handler = some entry)
    (h : r'.Declares i program) : r.Declares i program := by
  obtain ⟨entry', key, schema, value, hfind', hmem, hkind, hvalue, hparse⟩ := h
  cases (hext _ _ hfind).symm.trans hfind'
  exact ⟨entry, key, schema, value, hfind, hmem, hkind, hvalue, hparse⟩

theorem Covers.mono {r r' : Registry} {i : Instruction} (h : r.Covers i) (hext : r.Extends r') :
    r'.Covers i := by
  induction h with
  | intro hfind hdeclared ih =>
    refine .intro (hext _ _ hfind) ?_
    intro program hdeclares
    exact ih program (hdeclares.of_extends hext hfind)

theorem fields?_eq_some {registry : Registry} {name : String} {fields : Fields}
    (h : registry.fields? name = some fields) :
    ∃ entry, registry.find? name = some entry ∧ entry.fields = fields := by
  simpa [fields?] using h

/-- An instruction that passes a validation is covered. -/
theorem covers_of_passes {registry : Registry} {nesting : Nat} {path : Path} {i : Instruction}
    (h : Check.Passes (Check.checkInstruction registry.fields? nesting path i)) :
    registry.Covers i := by
  -- the induction is on the bound of the nesting of instructions in parameters
  induction nesting generalizing path i with
  | zero => exact absurd h Check.not_passes_fail
  | succ nesting ih =>
    obtain ⟨deeper, fields, hnesting, hlookup, hfields⟩ := Check.checkInstruction_passes h
    cases hnesting
    obtain ⟨entry, hfind, rfl⟩ := fields?_eq_some hlookup
    refine .intro hfind ?_
    intro program hdeclares j hj
    obtain ⟨entry', key, schema, value, hfind', hmem, hkind, hvalue, hparse⟩ := hdeclares
    cases hfind.symm.trans hfind'
    -- the field was checked, so the program in it was parsed and gone through
    have hfield := Check.checkFields_passes hfields key schema hmem
    rw [hvalue] at hfield
    obtain ⟨sentence, hparse', hanalyzed⟩ := Check.check_sentences_passes hkind hfield
    cases hparse.symm.trans hparse'
    obtain ⟨path', hpassed⟩ := Check.analyze_passes hanalyzed j hj
    exact ih hpassed

/-- All instructions of a sentence are covered. -/
def CoversAll (registry : Registry) (program : Sentence) : Prop :=
  ∀ i ∈ program.instructions, registry.Covers i

theorem CoversAll.mono {r r' : Registry} {program : Sentence} (h : r.CoversAll program)
    (hext : r.Extends r') : r'.CoversAll program := fun i hi => (h i hi).mono hext

/-- A program passed a validation, perhaps when fewer scripts were registered. -/
def Approves (registry : Registry) (program : Sentence) : Prop :=
  ∃ earlier : Registry, earlier.Extends registry ∧
    Check.Passes (Check.analyze (Check.checkInstruction earlier.fields? program.nesting) .root
      program)

theorem Approves.mono {r r' : Registry} {program : Sentence} (h : r.Approves program)
    (hext : r.Extends r') : r'.Approves program := by
  obtain ⟨earlier, hearlier, hpasses⟩ := h
  exact ⟨earlier, hearlier.trans hext, hpasses⟩

theorem approves_of_examine {registry : Registry} {program : Sentence}
    {report : ValidationReport} (h : (examine registry.fields? program).result = .ok report) :
    registry.Approves program := by
  refine ⟨registry, .refl registry, ?_⟩
  unfold examine at h
  rcases hover : Pass.over registry.fields? program with ⟨error | done, pass⟩
  · simp only [hover] at h
    cases h
  · exact ⟨Pass.start, pass, hover⟩

/-- A program that passed a validation is covered. -/
theorem Approves.coversAll {registry : Registry} {program : Sentence}
    (h : registry.Approves program) : registry.CoversAll program := by
  obtain ⟨earlier, hearlier, hpasses⟩ := h
  have hcovers : earlier.CoversAll program := by
    intro i hi
    obtain ⟨path, hpassed⟩ := Check.analyze_passes hpasses i hi
    exact covers_of_passes hpassed
  exact hcovers.mono hearlier

end Registry

theorem Sentence.instructions_asSequence (sentence : Sentence) :
    Sequence.instructions sentence.asSequence = sentence.instructions := by
  cases sentence <;> simp [asSequence, Sequence.instructions, instructions]

namespace Engine

variable {σ : Type} {e e' : Engine σ}

/-- Where the default program is marked as validated, it was, though perhaps when fewer scripts
were registered. -/
def Vouched (e : Engine σ) : Prop :=
  e.validated = true → ∃ program, e.defaults.sentences = some program ∧ e.scripts.Approves program

theorem Passes.approves {program : Sentence} (h : e.Passes program) :
    e.scripts.Approves program := by
  obtain ⟨report, hresult⟩ := h
  exact Registry.approves_of_examine hresult

theorem Steady.vouched (h : e.Steady e') (hv : e.Vouched) : e'.Vouched := by
  intro hvalidated
  rw [← h.validated] at hvalidated
  rw [← h.scripts, ← h.defaults]
  exact hv hvalidated

theorem Answered.extends {query : Query} {todo : List (Work σ)} (h : e.Answered query todo e') :
    e.scripts.Extends e'.scripts := by
  have same : e.scripts = e'.scripts → e.scripts.Extends e'.scripts := by
    intro hsame
    rw [← hsame]
    exact .refl _
  cases h with
  | kept hkeeps => exact same hkeeps.scripts
  | assigned => exact .refl _
  | executed hquery ht hprep hkeeps => exact same hkeeps.scripts
  | created hasked hprogram hvalid hkeeps => exact same hkeeps.scripts
  | vetted hprogram hvalid hkeeps => exact same hkeeps.scripts
  | registered hregister hkeeps =>
    have hscripts : _ = e'.scripts := hkeeps.scripts
    rw [← hscripts]
    exact Registry.extends_register hregister
  | configured hvalid hkeeps => exact same hkeeps.scripts

/-- The program of a new thread is validated, for the thread or before. -/
theorem Vouched.approves {overrides : ThreadConfig} {program : Sentence} (hv : e.Vouched)
    (hprogram : (e.defaults.merge overrides).sentences = some program)
    (hvalid : overrides.sentences.isSome = true ∨ e.validated = false → e.Passes program) :
    e.scripts.Approves program := by
  by_cases hchecked : overrides.sentences.isSome = true ∨ e.validated = false
  · exact (hvalid hchecked).approves
  · -- it is the default program then, and that one was marked
    simp only [not_or, Bool.not_eq_true, Bool.not_eq_false] at hchecked
    obtain ⟨default, hdefault, happroves⟩ := hv hchecked.2
    rw [sentences_merge_of_none hchecked.1, hdefault] at hprogram
    cases hprogram
    exact happroves

/-- A default program that is marked as validated after a request has just passed, or is the one
that was marked before. -/
theorem Answered.marked {query : Query} {todo : List (Work σ)} (h : e.Answered query todo e')
    (hvalidated : e'.validated = true) :
    (∃ program, e'.defaults.sentences = some program ∧ e.Passes program) ∨
      (e.validated = true ∧ e'.defaults.sentences = e.defaults.sentences) := by
  have same : e.Steady e' → e.validated = true ∧ e'.defaults.sentences = e.defaults.sentences := by
    intro hsteady
    exact ⟨hsteady.validated.trans hvalidated, by rw [hsteady.defaults]⟩
  cases h with
  | kept hkeeps => exact .inr (same hkeeps.steady)
  | assigned => exact .inr (same (Keeps.refl _).steady_of_setThread)
  | executed hquery ht hprep hkeeps => exact .inr (same hkeeps.steady_of_setThread)
  | @created overrides asked program t e₁ hasked hprogram hvalid hkeeps =>
    have hdefaults : e.defaults = e₁.defaults := hkeeps.defaults
    have hmark : (e.validated || overrides.sentences.isNone) = true :=
      hkeeps.validated.trans hvalidated
    cases hbefore : e.validated with
    | true => exact .inr ⟨rfl, congrArg (·.sentences) hdefaults.symm⟩
    | false =>
      -- a thread without a program of its own marks the default one
      have hnone : overrides.sentences.isSome = false := by simpa [hbefore] using hmark
      rw [sentences_merge_of_none hnone, hdefaults] at hprogram
      exact .inl ⟨program, hprogram, hvalid (.inr hbefore)⟩
  | vetted hprogram hvalid hkeeps =>
    have hdefaults : e.defaults = e'.defaults := hkeeps.defaults
    rw [hdefaults] at hprogram
    exact .inl ⟨_, hprogram, hvalid⟩
  | registered hregister hkeeps =>
    have hdefaults : e.defaults = e'.defaults := hkeeps.defaults
    exact .inr ⟨hkeeps.validated.trans hvalidated, by rw [hdefaults]⟩
  | @configured config _ hvalid hkeeps =>
    have hdefaults : e.defaults.merge config = e'.defaults := hkeeps.defaults
    have hmark : (e.validated || config.sentences.isSome) = true :=
      hkeeps.validated.trans hvalidated
    -- settings without a program leave the mark as it was
    rcases hprogram : config.sentences with _ | program
    · have hbefore : e.validated = true := by simpa [hprogram] using hmark
      exact .inr ⟨hbefore, by simp [← hdefaults, ThreadConfig.merge, hprogram]⟩
    · exact .inl ⟨program, by simp [← hdefaults, ThreadConfig.merge, hprogram], hvalid _ hprogram⟩

theorem Answered.vouched {query : Query} {todo : List (Work σ)} (h : e.Answered query todo e')
    (hv : e.Vouched) : e'.Vouched := by
  intro hvalidated
  rcases h.marked hvalidated with ⟨program, hprogram, hpasses⟩ | ⟨hbefore, hsame⟩
  · exact ⟨program, hprogram, hpasses.approves.mono h.extends⟩
  · obtain ⟨program, hprogram, happroves⟩ := hv hbefore
    exact ⟨program, hsame.trans hprogram, happroves.mono h.extends⟩

end Engine

/-! ## Threads -/

namespace ThreadState

/-- The cursor machine brings no sequences onto the stack of a thread. -/
theorem sequences_run (t : ThreadState) :
    Frame.sequences t.run.2.frames ⊆ Frame.sequences t.frames := by
  have hseek := Frame.sequences_seek t.frames
  unfold run
  split
  · exact List.Subset.refl _
  · rcases hfound : Frame.seek t.frames with ⟨stop, frames⟩
    rw [hfound] at hseek
    cases stop with
    | stuck => exact hseek
    | finish => exact hseek
    | instruction i =>
      dsimp only
      split <;> exact hseek

theorem sequences_advanceTop (frames : List Frame) :
    Frame.sequences (advanceTop frames) = Frame.sequences frames := by
  cases frames <;> rfl

/-- All instructions that a thread can still come to are covered, and so is the one in flight. -/
structure Covered (t : ThreadState) : Prop where
  stacked : ∀ sequence ∈ Frame.sequences t.frames, ∀ i ∈ Sequence.instructions sequence,
    t.scripts.Covers i
  flight : ∀ a, t.inFlight = some a → t.scripts.Covers a.context.instruction

variable {t t' p : ThreadState}

theorem Covered.of_flight (hc : t.Covered) (hscripts : t.scripts = t'.scripts)
    (hframes : Frame.sequences t'.frames ⊆ Frame.sequences t.frames)
    (hflight : ∀ a, t'.inFlight = some a → t.scripts.Covers a.context.instruction) :
    t'.Covered := by
  constructor
  · intro sequence hsequence i hi
    rw [← hscripts]
    exact hc.stacked sequence (hframes hsequence) i hi
  · intro a ha
    rw [← hscripts]
    exact hflight a ha

theorem Agrees.covered (h : t.Agrees t') (hc : t.Covered) : t'.Covered := by
  refine hc.of_flight h.scripts ?_ ?_
  · rw [h.frames]
    exact List.Subset.refl _
  · intro a ha
    exact hc.flight a (h.inFlight.trans ha)

/-- What a covered thread has still to come to is covered. -/
theorem Covered.covers_toCome (hc : t.Covered) {i : Instruction} (hi : i ∈ t.toCome) :
    t.scripts.Covers i := by
  obtain ⟨frame, hframe, hmem⟩ := Frame.exists_frame_of_mem_pending hi
  have hsequence : frame.sequence ∈ Frame.sequences t.frames := List.mem_map_of_mem hframe
  exact hc.stacked frame.sequence hsequence i hmem

/-- The cursor machine of a covered thread comes to no error, and leaves the thread covered. -/
theorem Covered.run (hc : t.Covered) (hran : t.Ran t.run) :
    t.run.2.Covered ∧ ∀ error, t.run.1.arrival ≠ .fatal error := by
  have hframes := t.sequences_run
  revert hran hframes
  generalize t.run = r
  intro hran hframes
  cases hran with
  | exhausted => exact ⟨hc.of_flight rfl hframes hc.flight, by simp⟩
  | @unknown _ i rest hstack hbefore hafter hpoints hfind =>
    -- the instruction that the cursor machine met is covered, so its script is registered
    have hcovers : t.scripts.Covers i := hc.covers_toCome (by simp [hbefore])
    obtain ⟨entry, hentry⟩ := hcovers.exists_entry
    rw [hfind] at hentry
    cases hentry
  | @dispatched _ i rest entry hstack hbefore hafter hpoints hfind =>
    have hcovers : t.scripts.Covers i := hc.covers_toCome (by simp [hbefore])
    refine ⟨hc.of_flight rfl hframes ?_, by simp⟩
    intro a ha
    cases ha
    exact hcovers

/-- Preparing a run keeps a thread covered, if the program that it is handed is covered. -/
theorem Prepares.covered {move : Move} (h : t.Prepares move p) (hc : t.Covered)
    (hbody : ∀ caller program entry, move = .executed caller program entry →
      ∀ i ∈ Sequence.instructions program, t.scripts.Covers i) : p.Covered := by
  cases h with
  | resumed => exact ⟨hc.stacked, hc.flight⟩
  | executed hphase hcaller hentry =>
    refine ⟨?_, hc.flight⟩
    intro sequence hsequence
    rcases List.mem_cons.1 hsequence with rfl | hbelow
    · exact hbody _ _ _ rfl
    · exact hc.stacked sequence hbelow
  | completed hcurrent =>
    refine hc.of_flight rfl ?_ ?_
    · rw [sequences_advanceTop]
      exact List.Subset.refl _
    · intro a ha
      cases ha

theorem covered_create {id : ThreadId} {scripts : Registry} {services : ServiceSet}
    {program : Sentence} {vars : Members} {entry : Option String}
    (h : create id scripts services program.asSequence vars entry = .ok t)
    (hcovers : scripts.CoversAll program) : t.Covered := by
  obtain ⟨start, -, -, rfl⟩ := create_eq_ok h
  constructor
  · intro sequence hsequence i hi
    have hsame : sequence = program.asSequence := by
      simpa [Frame.sequences, Frame.new] using hsequence
    rw [hsame, Sentence.instructions_asSequence] at hi
    exact hcovers i hi
  · intro a ha
    cases ha

end ThreadState

/-! ## Runs -/

namespace Machine

variable {σ : Type} {plugins : Plugins σ} {m m' : Machine σ} {event : Event σ}
  {id : ThreadId} {t t' : ThreadState} {stages : List (Stage σ)}

theorem Step.vouched (h : Step plugins m event m') (hn : m.engine.Numbered)
    (hv : m.engine.Vouched) : m'.engine.Vouched := by
  rcases h.asked_or_steady hn with ⟨query, todo, -, hanswered⟩ | ⟨-, hsteady⟩
  · exact hanswered.vouched hv
  · exact hsteady.vouched hv

theorem Run.vouched {host : σ} {config : CoreConfig}
    (h : Run plugins (opened host config) stages m) : m.engine.Vouched := by
  induction h with
  | start =>
    -- nothing was validated in an empty engine
    intro hvalidated
    cases hvalidated
  | step hrun hstep ih => exact hstep.vouched hrun.invariant.numbered ih

/-- Every program that control of a thread is handed to stands in a parameter of an instruction that
the thread dispatched before, and the fields of that instruction's script declare it there. -/
def HandsDeclared (id : ThreadId) (stages : List (Stage σ)) : Prop :=
  ∀ earlier s later, stages = earlier ++ s :: later →
    ∀ t, s.before.engine.thread? id = some t →
      ∀ caller program entry, s.event.moveOf id t = .executed caller program entry →
        ∃ a ∈ dispatches id earlier, ∃ sentence,
          t.scripts.Declares a.context.instruction sentence ∧ program = sentence.asSequence

theorem HandsDeclared.init {s : Stage σ} (h : HandsDeclared id (stages ++ [s])) :
    HandsDeclared id stages := by
  intro earlier s' later hstages
  exact h earlier s' (later ++ [s]) (by simp [hstages])

theorem handsDeclared_nil : HandsDeclared id ([] : List (Stage σ)) := by
  intro earlier s later hstages
  simp at hstages

theorem HandsDeclared.snoc {s : Stage σ} (h : HandsDeclared id stages)
    (hlast : ∀ t, s.before.engine.thread? id = some t →
      ∀ caller program entry, s.event.moveOf id t = .executed caller program entry →
        ∃ a ∈ dispatches id stages, ∃ sentence,
          t.scripts.Declares a.context.instruction sentence ∧ program = sentence.asSequence) :
    HandsDeclared id (stages ++ [s]) := by
  intro earlier s' later hstages
  -- the stage in question is the last one, or was there before
  rcases List.eq_nil_or_concat later with rfl | ⟨init, last, rfl⟩
  · obtain ⟨rfl, hsame⟩ := List.append_inj' hstages rfl
    cases hsame
    exact hlast
  · have hsplit : stages ++ [s] = (earlier ++ s' :: init) ++ [last] := by
      rw [hstages, List.concat_eq_append]
      simp
    obtain ⟨hinit, -⟩ := List.append_inj' hsplit rfl
    exact h earlier s' init hinit

/-- A step that asks for no transfer hands over no program. -/
theorem HandsDeclared.snoc_of_quiet (h : HandsDeclared id stages) (hstep : Step plugins m event m')
    (hm : Invariant m) (hquiet : event.asks?.bind Query.executes? = none) :
    HandsDeclared id (stages ++ [⟨m, event, m'⟩]) := by
  refine h.snoc ?_
  intro t ht caller program entry hmove
  obtain ⟨t', -, haffects⟩ := hstep.affects hm.numbered ht
  rw [hmove] at haffects
  cases haffects with
  | executed hprep hagree hasks hquery =>
    rw [hasks, Option.bind_some, hquery] at hquiet
    cases hquiet

theorem HandsDeclared.last {s : Stage σ} (h : HandsDeclared id (stages ++ [s])) {t : ThreadState}
    (ht : s.before.engine.thread? id = some t) {caller : Option Context} {program : Sequence}
    {entry : Option String} (hmove : s.event.moveOf id t = .executed caller program entry) :
    ∃ a ∈ dispatches id stages, ∃ sentence,
      t.scripts.Declares a.context.instruction sentence ∧ program = sentence.asSequence :=
  h stages s [] (by simp) t ht caller program entry hmove

/-- A move keeps a thread covered, if the program that it is handed is covered. -/
theorem Affects.covered {move : Move} (h : Affects id m event m' t move t') (hs : t.Sound)
    (hc : t.Covered)
    (hbody : ∀ caller program entry, move = .executed caller program entry →
      ∀ i ∈ Sequence.instructions program, t.scripts.Covers i) : t'.Covered := by
  have covered_run : ∀ {p}, t.Prepares move p → p.run.2.Covered := by
    intro p hprep
    exact ((hprep.covered hc hbody).run (hprep.ran hs)).1
  cases h with
  | still hagree => exact hagree.covered hc
  | assigned hagree => exact hagree.of_setVar.covered ⟨hc.stacked, hc.flight⟩
  | resumed hprep hagree => exact hagree.covered (covered_run hprep)
  | executed hprep hagree => exact hagree.covered (covered_run hprep)
  | completed hid hprep hagree => exact hagree.covered (covered_run hprep)
  | failed hid hcurrent hagree =>
    refine hagree.covered (hc.of_flight rfl (List.Subset.refl _) ?_)
    intro a ha
    cases ha
  | destroying hphase hagree => exact hagree.covered ⟨hc.stacked, hc.flight⟩
  | cleared hagree =>
    refine hagree.covered (hc.of_flight rfl ?_ ?_)
    · simp [ThreadState.clear, Frame.sequences]
    · intro a ha
      cases ha

/-- What a run keeps for one thread: whatever it dispatched and can still come to is covered, and
nothing on the stack reports that a script is missing. -/
structure Safe (id : ThreadId) (stages : List (Stage σ)) (m : Machine σ) : Prop where
  fresh : m.engine.thread? id = none → dispatches id stages = []
  covered : ∀ {t}, m.engine.thread? id = some t → t.Covered
  dispatched : ∀ {t}, m.engine.thread? id = some t → ∀ a ∈ dispatches id stages,
    t.scripts.Covers a.context.instruction
  silent : ∀ work ∈ m.stack, ∀ error, work.reports? ≠ some (id, .dispatch error)

/-- The program that a covered thread is handed is covered. -/
theorem Safe.covers_handed (h : Safe id stages m) (ht : m.engine.thread? id = some t)
    (hands : HandsDeclared id (stages ++ [⟨m, event, m'⟩])) {caller : Option Context}
    {program : Sequence} {entry : Option String}
    (hmove : event.moveOf id t = .executed caller program entry) :
    ∀ i ∈ Sequence.instructions program, t.scripts.Covers i := by
  obtain ⟨a, ha, sentence, hdeclares, rfl⟩ := hands.last ht hmove
  rw [Sentence.instructions_asSequence]
  exact (h.dispatched ht a ha).declared hdeclares

theorem Safe.step (h : Safe id stages m) (hm : Invariant m) (hv : m.engine.Vouched)
    (hstep : Step plugins m event m') (hands : HandsDeclared id (stages ++ [⟨m, event, m'⟩])) :
    Safe id (stages ++ [⟨m, event, m'⟩]) m' := by
  have covered : ∀ {t'}, m'.engine.thread? id = some t' → t'.Covered := by
    intro t' ht'
    rcases hstep.thread_cases hm.numbered ht' with
      ⟨t, ht, haffects⟩ | ⟨-, overrides, program, services, hcreates⟩
    · refine haffects.covered (hm.sound ht) (h.covered ht) ?_
      intro caller program entry hmove
      exact h.covers_handed ht hands hmove
    · -- its program was validated, now or against a smaller registry
      have hcovers := (hv.approves hcreates.sentences hcreates.valid).coversAll
      exact ThreadState.covered_create hcreates.create hcovers
  have snoc : dispatches id (stages ++ [⟨m, event, m'⟩]) = dispatches id stages ++
      (Stage.dispatched? id ⟨m, event, m'⟩).toList := filterMap_snoc _ _ _
  refine ⟨?_, covered, ?_, ?_⟩
  · intro hnone'
    have hnone : m.engine.thread? id = none := by
      rcases ht : m.engine.thread? id with _ | t
      · rfl
      · obtain ⟨t', ht', -⟩ := hstep.affects hm.numbered ht
        rw [hnone'] at ht'
        cases ht'
    have hslot : Stage.dispatched? id ⟨m, event, m'⟩ = none := by
      simp [Stage.dispatched?, slot, hnone']
    rw [snoc, h.fresh hnone, hslot]
    rfl
  · intro t' ht' a ha
    rw [snoc] at ha
    rcases List.mem_append.1 ha with hbefore | hnow
    · -- it was dispatched before, so the thread was there
      rcases hstep.thread_cases hm.numbered ht' with
        ⟨t, ht, haffects⟩ | ⟨hnone, -⟩
      · rw [← haffects.origin.scripts]
        exact h.dispatched ht a hbefore
      · rw [h.fresh hnone] at hbefore
        cases hbefore
    · have hslot : m'.slot id = some a := by
        have hdispatched := Option.mem_toList.1 hnow
        unfold Stage.dispatched? at hdispatched
        split at hdispatched
        · exact hdispatched
        · cases hdispatched
      -- a script that is dispatched now is the one in flight
      rw [slot_eq ht'] at hslot
      exact (covered ht').flight a hslot
  · intro work hwork error hreports
    rcases hstep.reports hm.numbered hwork hreports with
      ⟨earlier, hearlier, hbefore⟩ | ⟨name, failure, hscript⟩ | ⟨t, p, ht, hprep, hfatal⟩
    · exact h.silent earlier hearlier error hbefore
    · cases hscript
    · -- the cursor machine of a covered thread comes to no error
      have hp : p.Covered := by
        refine hprep.covered (h.covered ht) ?_
        intro caller program entry hmove
        exact h.covers_handed ht hands hmove
      exact (hp.run (hprep.ran (hm.sound ht))).2 _ hfatal

theorem safe_opened (id : ThreadId) (host : σ) (config : CoreConfig) :
    Safe id [] (opened host config) := by
  have hnone : (opened host config).engine.thread? id = none := by
    simp [opened, Engine.new, Engine.thread?]
  constructor
  · intro _
    rfl
  · intro t ht
    rw [hnone] at ht
    cases ht
  · intro t ht
    rw [hnone] at ht
    cases ht
  · intro work hwork
    cases hwork

theorem Run.safe {host : σ} {config : CoreConfig}
    (h : Run plugins (opened host config) stages m) (hands : HandsDeclared id stages) :
    Safe id stages m := by
  induction h with
  | start => exact safe_opened id host config
  | step hrun hstep ih =>
    exact (ih hands.init).step hrun.invariant hrun.vouched hstep hands

/-- A thread never fails for want of a script, whatever was registered, configured and created
before and is later on, and whatever scripts and services do, as long as control is handed only to
programs that its dispatched instructions declare. -/
theorem Run.no_dispatch_error {host : σ} {config : CoreConfig}
    (h : Run plugins (opened host config) stages m) (id : ThreadId)
    (hands : HandsDeclared id stages) :
    ∀ s ∈ stages, ∀ work ∈ s.after.stack, ∀ error,
      work.reports? ≠ some (id, .dispatch error) := by
  induction h with
  | start => simp
  | step hrun hstep ih =>
    intro s hs
    rcases List.mem_append.1 hs with hbefore | hlast
    · exact ih hands.init s hbefore
    · rw [List.mem_singleton.1 hlast]
      exact ((hrun.step hstep).safe hands).silent

/-! ## A run with a program handed over -/

/-- An instruction with another one under it. -/
def outer : Instruction :=
  (Instruction.new "a").withParam "body" (.object [("handler", .string "a")])

/-- The settings for threads of that instruction alone. -/
def outerConfig : CoreConfig := ⟨.ofProgram (.instruction outer)⟩

/-- A script that may have a program under it. -/
def outerFactory : Factory := ⟨"a", some [("body", Schema.sentences.asOptional)], "a"⟩

/-- A run from an empty engine, in which the first thread is handed nothing that is not declared. -/
structure Declared (stages : List (Stage Unit)) (m : Machine Unit) : Prop where
  run : Run idlePlugins (opened () outerConfig) stages m
  hands : HandsDeclared 0 stages

theorem Declared.work {stages : List (Stage Unit)} {e : Engine Unit} {work : Work Unit}
    {rest : List (Work Unit)} (h : Declared stages ⟨e, work :: rest⟩) (hquiet : work.asks? = none) :
    ∃ stages, Declared stages ⟨(perform idlePlugins e work).2,
      (perform idlePlugins e work).1 ++ rest⟩ := by
  have hstep : Step idlePlugins ⟨e, work :: rest⟩ (.work work) _ := .work
  refine ⟨_, h.run.step hstep, h.hands.snoc_of_quiet hstep h.run.invariant ?_⟩
  simp [Event.asks?, hquiet]

theorem Declared.task {stages : List (Stage Unit)} {e : Engine Unit} {task : Task Unit}
    (h : Declared stages ⟨e, []⟩) (hqueue : e.queue = [task]) :
    ∃ stages, Declared stages (take idlePlugins { e with queue := [] } task) := by
  have hfirst : e.queue = [] ++ task :: [] := hqueue
  have hstep : Step idlePlugins ⟨e, []⟩ (.task task) _ := .task hfirst
  exact ⟨_, h.run.step hstep, h.hands.snoc_of_quiet hstep h.run.invariant rfl⟩

theorem Declared.ask {stages : List (Stage Unit)} {e : Engine Unit}
    (h : Declared stages ⟨e, []⟩) (query : Query) (hquiet : query.executes? = none) :
    ∃ stages, Declared stages ((⟨e, []⟩ : Machine Unit).ask query).2 := by
  have hstep : Step idlePlugins ⟨e, []⟩ (.ask query) _ := .ask query
  exact ⟨_, h.run.step hstep, h.hands.snoc_of_quiet hstep h.run.invariant hquiet⟩

/-- A thread that dispatched an instruction is handed the program under it. -/
theorem Run.no_dispatch_error_outer :
    ∃ stages m s, Run idlePlugins (opened () outerConfig) stages m ∧ HandsDeclared 0 stages ∧
      s ∈ stages ∧ s.event = .ask (.execute 0 [.instruction (.new "a")] none) ∧
      ∀ s ∈ stages, ∀ work ∈ s.after.stack, ∀ error,
        work.reports? ≠ some (0, .dispatch error) := by
  have h : Declared [] (opened () outerConfig) := ⟨.start, handsDeclared_nil⟩
  obtain ⟨_, h⟩ := h.ask (.core (.registerScript "a" outerFactory)) rfl
  obtain ⟨_, h⟩ := h.ask (.core (.createThread none)) rfl
  -- the services are told, and the first run becomes a task
  obtain ⟨_, h⟩ := h.work rfl
  obtain ⟨_, h⟩ := h.work rfl
  obtain ⟨_, h⟩ := h.task rfl
  -- the instruction is dispatched, and its script becomes a task
  obtain ⟨_, h⟩ := h.work rfl
  obtain ⟨_, h⟩ := h.work rfl
  obtain ⟨_, h⟩ := h.work rfl
  have hbalance := (h.run.ledger 0).1.balance
  have hrun := h.run.step (.ask (.execute 0 [.instruction (.new "a")] none))
  refine ⟨_, _, _, hrun, ?hands, List.mem_append_right _ (List.mem_singleton.2 rfl), rfl,
    hrun.no_dispatch_error 0 ?hands⟩
  case hands =>
    apply h.hands.snoc
    intro t ht caller program entry hmove
    refine ⟨⟨"a", ⟨0, 1, outer⟩⟩, ?_, .instruction (.new "a"), ?_, ?_⟩
    · rw [hbalance]
      exact List.mem_append_right _ (List.mem_singleton.2 rfl)
    · cases ht
      exact ⟨_, "body", _, _, rfl, List.mem_singleton.2 rfl, rfl, rfl, rfl⟩
    · simp only [Event.moveOf, Query.moveOf] at hmove
      split at hmove
      · cases hmove
        rfl
      · cases hmove

end Machine
end SentenceEngine
