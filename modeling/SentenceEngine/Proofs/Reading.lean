import SentenceEngine.Proofs.Returns

/-!
# The reading of a program

A thread with its stack of frames refines a much simpler machine, which holds nothing but the list
of the instructions still to come and the one under way. A transfer puts a program in front of the
list, the end of a script takes the head away, and the cursor machine looks at the head.

* `Reading.Moves`: the simple machine.
* `ThreadState.reading`: the refinement mapping.
* `Machine.Settles`: which steps are the moves, for those who see the ends of scripts and the
  replies to requests.
* `Machine.Run.refines_reading`: every step of every run is a step of the simple machine, for every
  thread, and the stack shows what the cursor machine came to.
-/

namespace SentenceEngine

/-- A thread as the recursive reading of its program sees it. -/
structure Reading where
  toCome : List Instruction
  underWay : Option Instruction

namespace Reading

/-- The cursor machine: it arrives at the first instruction that is still to come. -/
def proceed (arrival : List Instruction → Arrival) (r : Reading) : Reading :=
  match arrival r.toCome with
  | .dispatch script => { r with underWay := some script.context.instruction }
  | .fatal _ => { r with underWay := none }
  | .exhausted => r
  | .idle => r

/-- The moves of the simple machine, with the list that the cursor machine looks at if it is set
going. -/
inductive Moves (arrival : List Instruction → Arrival) :
    Reading → Move → Option (List Instruction) → Reading → Prop
  | still {r : Reading} : Moves arrival r .still none r
  | assigned {r : Reading} {name : String} {value : Json} :
      Moves arrival r (.assigned name value) none r
  | resumed {toCome : List Instruction} :
      Moves arrival ⟨toCome, none⟩ .resumed (some toCome) (proceed arrival ⟨toCome, none⟩)
  /-- A program comes before everything else while nothing is under way. -/
  | entered {toCome : List Instruction} {caller : Option Context} {program : Sequence}
      {entry : Option String} {start : Nat} (hentry : program.entry entry = .ok start) :
      Moves arrival ⟨toCome, none⟩ (.executed caller program entry)
        (some (Sequence.instructions (program.drop start) ++ toCome))
        (proceed arrival ⟨Sequence.instructions (program.drop start) ++ toCome, none⟩)
  /-- A program takes the place of the instruction that is under way. -/
  | handed {i : Instruction} {rest : List Instruction} {caller : Option Context}
      {program : Sequence} {entry : Option String} {start : Nat}
      (hentry : program.entry entry = .ok start) :
      Moves arrival ⟨i :: rest, some i⟩ (.executed caller program entry)
        (some (Sequence.instructions (program.drop start) ++ rest))
        (proceed arrival ⟨Sequence.instructions (program.drop start) ++ rest, some i⟩)
  /-- The instruction that is under way, which is that of the script that has ended, is done. -/
  | completed {context : Context} {rest : List Instruction} :
      Moves arrival ⟨context.instruction :: rest, some context.instruction⟩ (.completed context)
        (some rest) (proceed arrival ⟨rest, none⟩)
  | failed {context : Context} {rest : List Instruction} {failure : Failure} :
      Moves arrival ⟨context.instruction :: rest, some context.instruction⟩
        (.failed context failure) none ⟨context.instruction :: rest, none⟩
  | destroying {r : Reading} : Moves arrival r .destroying none r
  | cleared {r : Reading} : Moves arrival r .cleared none ⟨[], none⟩

end Reading

namespace ThreadState

/-- The refinement mapping. -/
def reading (t : ThreadState) : Reading :=
  ⟨t.toCome, t.inFlight.map (·.context.instruction)⟩

theorem Agrees.reading {t t' : ThreadState} (h : t.Agrees t') : t.reading = t'.reading := by
  simp [ThreadState.reading, toCome, h.frames, h.inFlight]

theorem reading_setVar (t : ThreadState) (name : String) (value : Json) :
    (t.setVar name value).reading = t.reading := by
  obtain ⟨vars, hvars⟩ := t.setVar_eq name value
  rw [hvars]
  rfl

/-- A run is the cursor machine of the simple machine. -/
theorem Ran.reading {t : ThreadState} {r : Advance × ThreadState} (h : t.Ran r) :
    r.2.reading = t.reading.proceed t.arrivalAt := by
  simp only [ThreadState.reading, Reading.proceed, h.spec.1]
  cases h with
  | exhausted hstack hbefore hafter => simp [arrivalAt, hbefore]
  | unknown hstack hbefore hafter hpoints hfind => simp [arrivalAt, hbefore, hfind]
  | dispatched hstack hbefore hafter hpoints hfind => simp [arrivalAt, hbefore, hfind]

theorem Prepares.arrivalAt {t p : ThreadState} {move : Move} (h : t.Prepares move p) :
    p.arrivalAt = t.arrivalAt := by
  cases h <;> rfl

/-- A script in flight is the first of what is to come, unless the thread is spent. -/
theorem Sound.toCome_eq {t : ThreadState} (hs : t.Sound) (hphase : t.phase = .running)
    (hspent : ¬ t.Spent) {a : Instance} (ha : t.inFlight = some a) :
    ∃ rest, t.toCome = a.context.instruction :: rest := by
  rcases hs.placed hphase a ha with ⟨frame, below, hframes, hpos⟩ | hnil
  · have hread : frame.Readable := by
      have hstack := hs.stacked hphase
      rw [hframes] at hstack
      exact hstack.readable
    refine ⟨frame.advance.rest ++ Frame.pending frame.stepsCaller below, ?_⟩
    rw [toCome, hframes, Frame.remaining_cons, hread.rest_of_instruction hpos]
    rfl
  · -- no frame is left under the script in flight: this is what being spent means
    refine absurd ⟨hphase, ?_, hnil⟩ hspent
    rw [ha]
    simp

/-- What a reading shows of a thread without a script in flight. -/
theorem reading_of_free {t : ThreadState} (h : t.inFlight = none) :
    t.reading = ⟨t.toCome, none⟩ := by
  simp [reading, h]

/-- What a reading shows of a thread with a script in flight. -/
theorem reading_of_flight {t : ThreadState} {a : Instance} {rest : List Instruction}
    (ha : t.inFlight = some a) (hcome : t.toCome = a.context.instruction :: rest) :
    t.reading = ⟨a.context.instruction :: rest, some a.context.instruction⟩ := by
  simp [reading, ha, hcome]

/-- A move that sets the cursor machine going is one of the simple machine. -/
theorem Prepares.reads {t p : ThreadState} {move : Move} (h : t.Prepares move p) (hs : t.Sound)
    (hspent : ¬ t.Spent)
    (hown : ∀ context a, move = .completed context → t.inFlight = some a → a.context = context) :
    Reading.Moves t.arrivalAt t.reading move (some p.toCome) p.run.2.reading ∧
      p.run.1.arrival = t.arrivalAt p.toCome := by
  refine ⟨?_, (h.ran hs).spec.2.trans (by rw [h.arrivalAt])⟩
  rw [(h.ran hs).reading, h.arrivalAt]
  have hphase := h.phase.1
  cases hmove : move with
  | resumed =>
    subst hmove
    cases h with
    | resumed hrunning hstarted hfree =>
      have hcome : toCome { t with startPending := false, started := true } = t.toCome := rfl
      simp only [reading, hfree]
      exact .resumed
  | executed caller program entry =>
    subst hmove
    obtain ⟨start, hentry, hcome⟩ := toCome_executed h hs
    have hflight : p.inFlight = t.inFlight := by
      cases h
      rfl
    -- the program goes in front of the list, and takes the place of its head if that is under way
    rcases ha : t.inFlight with _ | a
    · rw [ha] at hcome hflight
      simp only [Option.isSome_none, Bool.false_eq_true, if_false] at hcome
      rw [reading_of_free ha, reading_of_free hflight, hcome]
      exact .entered hentry
    · obtain ⟨rest, hbefore⟩ := hs.toCome_eq hphase hspent ha
      rw [ha] at hcome hflight
      simp only [Option.isSome_some, if_true, hbefore, List.tail_cons] at hcome
      rw [reading_of_flight ha hbefore, reading, hflight, hcome]
      exact .handed hentry
  | completed context =>
    subst hmove
    have hcome := toCome_completed h hs
    have hflight : p.inFlight = none := by
      cases h
      rfl
    obtain ⟨a, ha⟩ : ∃ a, t.inFlight = some a := by
      cases h with
      | completed hcurrent => exact isSome_of_isCurrent hcurrent
    obtain ⟨rest, hbefore⟩ := hs.toCome_eq hphase hspent ha
    cases hown context a rfl ha
    rw [hbefore, List.tail_cons] at hcome
    rw [reading_of_flight ha hbefore, reading_of_free hflight, hcome]
    exact .completed
  | _ =>
    subst hmove
    cases h

end ThreadState

namespace Machine

variable {σ : Type} {plugins : Plugins σ} {m m' : Machine σ} {event : Event σ}
  {id : ThreadId} {t t' : ThreadState} {context : Context} {host : σ} {config : CoreConfig}
  {stages : List (Stage σ)}

/-! ## Moves -/

theorem shows_of_prepares {p : ThreadState} {move : Move} {rest : List (Work σ)}
    (hprep : t.Prepares move p) (hs : t.Sound) (hspent : ¬ t.Spent)
    (hown : ∀ context a, move = .completed context → t.inFlight = some a → a.context = context)
    (hagree : p.run.2.Agrees t') (hafter : m'.stack = Engine.advanceWork id p.run.1 ++ rest) :
    ∃ looked, Reading.Moves t.arrivalAt t.reading move looked t'.reading ∧
      ∀ toCome, looked = some toCome → Shows id (t.arrivalAt toCome) m' := by
  obtain ⟨hmoves, harrival⟩ := hprep.reads hs hspent hown
  rw [← hagree.reading]
  refine ⟨_, hmoves, ?_⟩
  intro toCome hlooked
  cases hlooked
  exact ⟨p.run.1.aborted, rest, by rw [hafter, ← harrival]⟩

/-- Whatever happens to a thread, the simple machine can do it. -/
theorem Affects.reads {move : Move} (h : Affects id m event m' t move t') (hs : t.Sound)
    (hspent : t.Spent → Ending id m) (hstep : Step plugins m event m')
    (hown : ∀ context ∈ m.held, context.thread = id → t.isCurrent context.ticket = true →
      ∀ a, t.inFlight = some a → a.context = context) :
    ∃ looked, Reading.Moves t.arrivalAt t.reading move looked t'.reading ∧
      ∀ toCome, looked = some toCome → Shows id (t.arrivalAt toCome) m' := by
  cases h with
  | still hagree =>
    rw [← hagree.reading]
    exact ⟨none, .still, by simp⟩
  | assigned hagree =>
    rw [← hagree.reading, ThreadState.reading_setVar]
    exact ⟨none, .assigned, by simp⟩
  | resumed hprep hagree hbefore hafter =>
    -- a spent thread has its end on top of the stack, and here the stack is empty
    have hnot : ¬ t.Spent := by
      intro h
      obtain ⟨rest, hstack | hstack⟩ := hspent h <;> cases hbefore.symm.trans hstack
    refine shows_of_prepares hprep hs hnot ?_ hagree (hafter.trans (List.append_nil _).symm)
    rintro context a ⟨⟩
  | executed hprep hagree hasks hquery hafter =>
    -- nobody asks for anything while the end of a thread is on top
    have hnot : ¬ t.Spent := by
      intro h
      cases (hstep.asks_of_ending (hspent h)).symm.trans hasks
    refine shows_of_prepares hprep hs hnot ?_ hagree hafter
    rintro context a ⟨⟩
  | @completed context p _ rest hid hprep hagree hbefore hafter =>
    have hnot : ¬ t.Spent := by
      intro h
      obtain ⟨rest, hstack | hstack⟩ := hspent h <;> cases hbefore.symm.trans hstack
    have hheld : context ∈ m.held := by simp [held, hbefore, Work.holds?]
    have hcurrent : t.isCurrent context.ticket = true := by
      cases hprep with
      | completed hcurrent => exact hcurrent
    refine shows_of_prepares hprep hs hnot ?_ hagree hafter
    rintro _ a ⟨⟩ ha
    exact hown context hheld hid hcurrent a ha
  | @failed context failure _ rest hid hcurrent hagree hbefore hafter =>
    have hnot : ¬ t.Spent := by
      intro h
      obtain ⟨rest, hstack | hstack⟩ := hspent h <;> cases hbefore.symm.trans hstack
    have hheld : context ∈ m.held := by simp [held, hbefore, Work.holds?]
    obtain ⟨hphase, a, ha, -⟩ := ThreadState.isCurrent_iff.1 hcurrent
    cases hown context hheld hid hcurrent a ha
    obtain ⟨rest, hcome⟩ := hs.toCome_eq hphase hnot ha
    have hafter : ThreadState.reading { t with inFlight := none } =
        ⟨a.context.instruction :: rest, none⟩ := by
      rw [← hcome]
      rfl
    rw [← hagree.reading, hafter, ThreadState.reading_of_flight ha hcome]
    exact ⟨none, .failed, by simp⟩
  | destroying hphase hagree =>
    rw [← hagree.reading]
    exact ⟨none, .destroying, by simp⟩
  | cleared hagree =>
    rw [← hagree.reading]
    exact ⟨none, .cleared, by simp⟩

/-- A new thread has the instructions of its program to come, from its entry label on. -/
theorem Creates.reads {overrides : Option ThreadConfig} {program : Sentence}
    {services : ServiceSet} (h : Creates m event id t overrides program services) :
    ∃ start, program.asSequence.entry (m.engine.defaults.merge (overrides.getD .empty)).entryLabel =
        .ok start ∧
      t.reading = ⟨Sequence.instructions (program.asSequence.drop start), none⟩ := by
  obtain ⟨start, -, hentry, rfl⟩ := ThreadState.create_eq_ok h.create
  refine ⟨start, hentry, ?_⟩
  simp [ThreadState.reading, ThreadState.toCome, Frame.remaining, Frame.pending]

/-! ## What there is to see of the moves -/

/-- A request for control makes a thread move just when it is granted. -/
theorem moveOf_executed_iff {query : Query} {caller : Option Context} {program : Sequence}
    {entry : Option String} (hquery : query.executes? = some (id, caller, program, entry)) :
    query.moveOf id t = .executed caller program entry ↔
      t.grants caller program entry = true := by
  rw [Query.moveOf_of_executes hquery]
  by_cases hgrants : t.grants caller program entry = true <;> simp [hgrants]

/-- Whether a transfer of control is granted is what the reply to it says. -/
theorem reply_transfer_iff {e : Engine σ} (ht : e.thread? id = some t) (caller : Option Context)
    (program : Sequence) (entry : Option String) :
    (e.transfer id caller program entry).reply = .ok () ↔
      t.grants caller program entry = true := by
  constructor
  · intro hreply
    rcases htransfer : t.transfer caller program entry with error | ⟨advance, s⟩
    · simp [Engine.transfer, ht, htransfer, Engine.respond] at hreply
    · obtain ⟨p, hprep, -⟩ := ThreadState.transfer_eq_ok htransfer
      exact hprep.grants
  · intro hgrants
    obtain ⟨p, hprep⟩ := ThreadState.exists_prepares_of_grants hgrants
    simp [Engine.transfer, ht, hprep.transfer_eq]

/-- What the moves of a step are to those who see the ends of scripts, the stack and the replies to
requests. -/
structure Settles (m : Machine σ) (event : Event σ) (m' : Machine σ) : Prop where
  /-- When the script in flight ends well, its thread still has its instruction under way; the
  services are told next, and then the script is completed. -/
  ended : ∀ context done, event = .work (.script context (.pure (.ok done))) →
    m.engine.InFlight context →
    (∃ t rest, m.engine.thread? context.thread = some t ∧
      t.reading = ⟨context.instruction :: rest, some context.instruction⟩) ∧
    m'.engine = m.engine ∧
    m'.stack = [.notify (m.engine.servicesOf context.thread)
      (.after context.thread context.instruction), .complete context]
  /-- The completion of the script in flight is a move of its thread. -/
  completed : ∀ context t, event = .work (.complete context) → m.engine.InFlight context →
    m.engine.thread? context.thread = some t → event.moveOf context.thread t = .completed context
  /-- So is its failure, and then the thread fails. -/
  failed : ∀ context failure t, event = .work (.script context (.pure (.error failure))) →
    m.engine.InFlight context → m.engine.thread? context.thread = some t →
    event.moveOf context.thread t = .failed context failure ∧
      m'.stack = [.fail context.thread (.script context.name failure)]
  /-- Whoever asks to hand a thread over to a program is told whether the thread makes the move, -/
  executed : ∀ id program entry t, event.asks? = some (.execute id program entry) →
    m.engine.thread? id = some t →
    ((m.engine.answer (.execute id program entry)).reply = .ok () ↔
      event.moveOf id t = .executed none program entry)
  /-- also if a script asks for its own thread, -/
  transferred : ∀ context program entry t, event.asks? = some (.transfer context program entry) →
    m.engine.thread? context.thread = some t →
    ((m.engine.answer (.transfer context program entry)).reply = .ok () ↔
      event.moveOf context.thread t = .executed (some context) program entry)
  /-- and goes on with this reply once the move is made. -/
  replied : ∀ work query, event = .work work → work.asks? = some query →
    ∃ next, work.Continues m.engine next ∧
      m'.stack = (m.engine.answer query).todo ++ next :: m.stack.tail

/-- The end of a thread is not on top of the stack when a script is executed. -/
theorem Run.not_spent {code : Behaviour σ Wait Outcome} {rest : List (Work σ)}
    (h : Run plugins (opened host config) stages m) (hstack : m.stack = .script context code :: rest)
    (ht : m.engine.thread? id = some t) : ¬ t.Spent := by
  intro hspent
  obtain ⟨rest, hend | hend⟩ := h.invariant.ending ht hspent <;> cases hstack.symm.trans hend

theorem Step.settles (hstep : Step plugins m event m')
    (h : Run plugins (opened host config) stages m) : Settles m event m' := by
  have hg : Grounded m.stack := h.grounded (by simp [Grounded, opened])
  have current : ∀ {context t}, m.engine.InFlight context →
      m.engine.thread? context.thread = some t → t.isCurrent context.ticket = true := by
    rintro context t ⟨s, a, hs, hphase, ha, rfl⟩ ht
    cases ht.symm.trans hs
    exact ThreadState.isCurrent_iff.2 ⟨hphase, a, ha, rfl⟩
  constructor
  · rintro context done rfl hflight
    obtain ⟨todo, rest, hstack, hafter, hworked⟩ := hstep.workedOff
    obtain ⟨t, a, ht, hphase, ha, rfl⟩ := hflight
    cases hg.alone hstack rfl
    obtain ⟨rest, hcome⟩ := (h.invariant.sound ht).toCome_eq hphase (h.not_spent hstack ht) ha
    refine ⟨⟨t, rest, ht, ThreadState.reading_of_flight ha hcome⟩, ?_⟩
    rcases hworked.of_success with ⟨-, hengine, htodo⟩ | ⟨hgone, -⟩
    · exact ⟨hengine, by rw [hafter, htodo, List.append_nil]⟩
    · rw [Engine.look_eq ht, ThreadState.isRunning_iff.2 hphase] at hgone
      cases hgone
  · rintro context t rfl hflight ht
    exact if_pos ⟨rfl, current hflight ht⟩
  · rintro context failure t rfl hflight ht
    obtain ⟨todo, rest, hstack, hafter, hworked⟩ := hstep.workedOff
    cases hg.alone hstack rfl
    have hcurrent := current hflight ht
    refine ⟨if_pos ⟨rfl, hcurrent⟩, ?_⟩
    rcases hworked.of_failure with ⟨-, -, htodo⟩ | ⟨hlost, -⟩
    · rw [hafter, htodo, List.append_nil]
    · rw [Engine.look_eq ht, hcurrent] at hlost
      cases hlost
  · intro id program entry t hasks ht
    rw [Event.moveOf_of_asks hasks, moveOf_executed_iff rfl]
    exact reply_transfer_iff ht none program entry
  · intro context program entry t hasks ht
    rw [Event.moveOf_of_asks hasks, moveOf_executed_iff rfl]
    exact reply_transfer_iff ht (some context) program entry
  · rintro work query rfl hasks
    obtain ⟨todo, rest, hstack, hafter, hworked⟩ := hstep.workedOff
    obtain ⟨next, hnext, htodo, -⟩ := hworked.of_asks hasks
    exact ⟨next, hnext, by simp [hafter, hstack, htodo]⟩

/-- How a step of a run looks to the simple machine. -/
structure Refines (stages : List (Stage σ)) (m : Machine σ) (event : Event σ) (m' : Machine σ) :
    Prop where
  /-- A thread that comes into being has the instructions of its program to come, from its entry
  label on. -/
  created : ∀ id t', m.engine.thread? id = none → m'.engine.thread? id = some t' →
    ∃ overrides program start,
      event.asks? = some (.core (.createThread overrides)) ∧
      (m.engine.defaults.merge (overrides.getD .empty)).sentences = some program ∧
      program.asSequence.entry (m.engine.defaults.merge (overrides.getD .empty)).entryLabel =
        .ok start ∧
      t'.reading = ⟨Sequence.instructions (program.asSequence.drop start), none⟩
  /-- Every thread that is there makes just the move that the step is about. If this sets the cursor
  machine going, the next thing to happen is what it finds at the head of the list. -/
  moves : ∀ id t, m.engine.thread? id = some t →
    ∃ t' looked, m'.engine.thread? id = some t' ∧
      Reading.Moves t.arrivalAt t.reading (event.moveOf id t) looked t'.reading ∧
      ∀ toCome, looked = some toCome → Shows id (t.arrivalAt toCome) m'
  /-- The moves are what the ends of scripts and the replies to requests say. -/
  settles : Settles m event m'
  /-- A script whose code has come to its end is about to be completed, or was retired. -/
  concludes : ∀ context, Returned context (stages ++ [⟨m, event, m'⟩]) →
    Concluding context m'.stack ∨ Concluded context (stages ++ [⟨m, event, m'⟩])

/-- The stack of frames refines the recursive reading: every step of every run is one of the simple
machine, for every thread. A program that is entered comes in front of what is still to come, or
takes the place of the instruction under way, and the good end of the script in flight leads on to
what comes after its instruction. -/
theorem Run.refines_reading (hrun : Run plugins (opened host config) stages m)
    (hstep : Step plugins m event m') : Refines stages m event m' := by
  have hinv := hrun.invariant
  refine ⟨?_, ?_, hstep.settles hrun, ?_⟩
  · intro id t' hnone ht'
    obtain ⟨overrides, program, services, hcreates⟩ := hstep.creates hinv.numbered hnone ht'
    obtain ⟨start, hentry, hreading⟩ := hcreates.reads
    exact ⟨overrides, program, start, hcreates.asks, hcreates.sentences, hentry, hreading⟩
  · intro id t ht
    obtain ⟨t', ht', haffects⟩ := hstep.affects hinv.numbered ht
    have hown : ∀ context ∈ m.held, context.thread = id → t.isCurrent context.ticket = true →
        ∀ a, t.inFlight = some a → a.context = context := by
      rintro context hheld rfl hcurrent a ha
      obtain ⟨s, b, hs, -, hb, heq⟩ := (hrun.inFlight_iff hheld ht).2 hcurrent
      cases ht.symm.trans hs
      cases ha.symm.trans hb
      exact heq
    obtain ⟨looked, hmoves, hshows⟩ := haffects.reads (hinv.sound ht) (hinv.ending ht) hstep hown
    exact ⟨t', looked, ht', hmoves, hshows⟩
  · intro context hreturned
    exact (hrun.step hstep).returned hreturned

/-! ## A recital -/

/-- The moves that a thread makes, each with the reading that it leads to. -/
def readings (id : ThreadId) (stages : List (Stage σ)) : List (Move × Reading) :=
  stages.filterMap fun s =>
    match s.before.engine.thread? id, s.after.engine.thread? id with
    | some t, some t' =>
      match s.event.moveOf id t with
      | .still => none
      | move => some (move, t'.reading)
    | _, _ => none

/-- Scripts that end well, but for one. -/
def recitalPlugins : Plugins Unit where
  script name :=
    ⟨fun _ => .pure (if name = "fail" then .error ⟨["failed"]⟩ else .ok ()), fun _ => .pure ()⟩
  service _ := fun _ => .pure (.ok ())

/-- The settings for threads of a single instruction. -/
def recitalConfig : CoreConfig := ⟨.ofProgram (.instruction (.new "say"))⟩

/-- An instruction behind a label and in nested scopes. -/
def aside : Sequence := [.label "aside", .sequence [.sequence [], .instruction (.new "sing")]]

/-- An instruction that fails, in a scope of its own, and one after the scope. -/
def mishap : Sequence :=
  [.sequence [.label "mishap", .instruction (.new "fail")], .instruction (.new "sing")]

/-- One thread is handed over before its first run, and again while the script of its own
instruction is in flight; then a script fails. The other one is handed over after its first run, and
comes to its end. -/
def recital : List (Query × Nat) :=
  [(.core (.registerScript "say" ⟨"say", some [], "say"⟩), 0),
    (.core (.registerScript "sing" ⟨"sing", some [], "sing"⟩), 0),
    (.core (.registerScript "fail" ⟨"fail", some [], "fail"⟩), 0),
    (.core (.createThread none), 2), (.execute 0 aside none, 10), (.execute 0 mishap none, 17),
    (.core (.createThread none), 6), (.execute 1 aside none, 30)]

/-- The moves of both threads are those of the simple machine, and the first script that ends well
is told to the services and completed. -/
theorem Run.refines_reading_recital :
    ∃ stages m, Run recitalPlugins (opened () recitalConfig) stages m ∧
      readings 0 stages =
        [(.executed none aside none, ⟨[.new "sing", .new "say"], some (.new "sing")⟩),
          (.completed ⟨0, 1, .new "sing"⟩, ⟨[.new "say"], some (.new "say")⟩),
          (.executed none mishap none, ⟨[.new "fail", .new "sing"], some (.new "fail")⟩),
          (.failed ⟨0, 3, .new "fail"⟩ ⟨["failed"]⟩, ⟨[.new "fail", .new "sing"], none⟩),
          (.destroying, ⟨[.new "fail", .new "sing"], none⟩), (.cleared, ⟨[], none⟩)] ∧
      readings 1 stages =
        [(.resumed, ⟨[.new "say"], some (.new "say")⟩),
          (.executed none aside none, ⟨[.new "sing"], some (.new "sing")⟩),
          (.completed ⟨1, 2, .new "sing"⟩, ⟨[], none⟩), (.destroying, ⟨[], none⟩),
          (.cleared, ⟨[], none⟩)] ∧
      (∀ earlier s later, stages = earlier ++ s :: later →
        Refines earlier s.before s.event s.after) ∧
      ∃ s ∈ stages, s.event = .work (.script ⟨0, 1, .new "sing"⟩ (.pure (.ok ()))) ∧
        s.after.stack = [.notify [] (.after 0 (.new "sing")), .complete ⟨0, 1, .new "sing"⟩] := by
  have hrun := (Run.start : Run recitalPlugins (opened () recitalConfig) [] _).play recital
  rw [List.nil_append] at hrun
  refine ⟨_, _, hrun, rfl, rfl, ?_, ?_⟩
  · intro earlier s later hstages
    obtain ⟨hbefore, hstep⟩ := hrun.reached hstages
    exact Run.refines_reading hbefore hstep
  · -- the script that was dispatched first is in flight when its code has come to its end
    obtain ⟨s, hs, hevent, hflight, hservices⟩ : ∃ s,
        ((opened () recitalConfig).play recitalPlugins recital).1[11]? = some s ∧
        s.event = .work (.script ⟨0, 1, .new "sing"⟩ (.pure (.ok ()))) ∧
        s.before.engine.InFlight ⟨0, 1, .new "sing"⟩ ∧ s.before.engine.servicesOf 0 = [] :=
      ⟨_, rfl, rfl, ⟨_, _, rfl, rfl, rfl, rfl⟩, rfl⟩
    have hmem := List.mem_of_getElem? hs
    obtain ⟨earlier, hbefore, hstep⟩ := hrun.mem hmem
    have hended := (Run.refines_reading hbefore hstep).settles.ended _ _ hevent hflight
    refine ⟨s, hmem, hevent, ?_⟩
    rw [hended.2.2, hservices]

end Machine
end SentenceEngine
