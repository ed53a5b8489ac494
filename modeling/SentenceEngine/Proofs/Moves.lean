import SentenceEngine.Proofs.Remaining
import SentenceEngine.Thread.State

/-!
# Moves of a thread

Everything that happens to a thread is one of a few moves. Three of them set the cursor machine
going: the first run, a transfer of control, and the end of the script in flight. Each of these
prepares a state of the thread and runs it, so that one lemma about `ThreadState.run` covers all.

* `ThreadState.Agrees`: equality up to the marks that do not bear on the program.
* `ThreadState.Prepares`: the state that a move runs.
* `ThreadState.Ran`: all that a run can come to, on a stack that is well formed.
* `ThreadState.Sound`: the invariant of a running thread.
-/

namespace SentenceEngine

/-- What happens to a thread. -/
inductive Move where
  /-- Nothing that bears on the program or the variables. -/
  | still
  | assigned (name : String) (value : Json)
  /-- The first run. -/
  | resumed
  /-- Control goes to a program, on behalf of a script or of an outside caller. -/
  | executed (caller : Option Context) (program : Sequence) (entry : Option String)
  /-- The script in flight ended well. -/
  | completed (context : Context)
  /-- The script in flight failed. -/
  | failed (context : Context) (failure : Failure)
  | destroying
  | cleared

/-- Whether a move can make the thread tell a script to stop. -/
def Move.tells : Move → Bool
  | .executed _ _ _ => true
  | .cleared => true
  | _ => false

namespace ThreadState

/-! ## Agreement -/

/-- Two states of a thread that differ at most in their marks: whether the thread was started,
whether its start is pending, whether it has ended, and which scripts were told to stop. -/
structure Agrees (t t' : ThreadState) : Prop where
  id : t.id = t'.id
  scripts : t.scripts = t'.scripts
  services : t.services = t'.services
  phase : t.phase = t'.phase
  frames : t.frames = t'.frames
  vars : t.vars = t'.vars
  ticket : t.ticket = t'.ticket
  inFlight : t.inFlight = t'.inFlight

theorem Agrees.refl (t : ThreadState) : t.Agrees t := ⟨rfl, rfl, rfl, rfl, rfl, rfl, rfl, rfl⟩

/-- The marks of a thread may be set at will. -/
theorem agrees_marks (t : ThreadState) (started startPending ended : Bool) (cancelled : List Nat) :
    t.Agrees { t with started, startPending, ended, cancelled } :=
  ⟨rfl, rfl, rfl, rfl, rfl, rfl, rfl, rfl⟩

theorem Agrees.trans {t t' t'' : ThreadState} (h : t.Agrees t') (h' : t'.Agrees t'') :
    t.Agrees t'' :=
  ⟨h.id.trans h'.id, h.scripts.trans h'.scripts, h.services.trans h'.services,
    h.phase.trans h'.phase, h.frames.trans h'.frames, h.vars.trans h'.vars,
    h.ticket.trans h'.ticket, h.inFlight.trans h'.inFlight⟩

/-- Two states of a thread with what it was created with. -/
structure SameOrigin (t t' : ThreadState) : Prop where
  id : t.id = t'.id
  scripts : t.scripts = t'.scripts
  services : t.services = t'.services

theorem SameOrigin.trans {t t' t'' : ThreadState} (h : t.SameOrigin t') (h' : t'.SameOrigin t'') :
    t.SameOrigin t'' :=
  ⟨h.id.trans h'.id, h.scripts.trans h'.scripts, h.services.trans h'.services⟩

theorem Agrees.sameOrigin {t t' : ThreadState} (h : t.Agrees t') : t.SameOrigin t' :=
  ⟨h.id, h.scripts, h.services⟩

theorem Agrees.isRunning {t t' : ThreadState} (h : t.Agrees t') : t.isRunning = t'.isRunning := by
  simp [ThreadState.isRunning, h.phase]

theorem Agrees.isCurrent {t t' : ThreadState} (h : t.Agrees t') (ticket : Nat) :
    t.isCurrent ticket = t'.isCurrent ticket := by
  simp [ThreadState.isCurrent, h.isRunning, h.inFlight]

theorem Agrees.clear {t t' : ThreadState} (h : t.Agrees t') : t.clear.Agrees t'.clear :=
  ⟨h.id, h.scripts, h.services, rfl, rfl, rfl, h.ticket, rfl⟩

theorem isRunning_iff {t : ThreadState} : t.isRunning = true ↔ t.phase = .running := by
  simp [ThreadState.isRunning]

theorem isCurrent_iff {t : ThreadState} {ticket : Nat} :
    t.isCurrent ticket = true ↔
      t.phase = .running ∧ ∃ a, t.inFlight = some a ∧ a.context.ticket = ticket := by
  simp [ThreadState.isCurrent, isRunning_iff]

/-! ## Preparing a run -/

/-- The top frame steps past what is under its cursor. -/
def advanceTop : List Frame → List Frame
  | [] => []
  | frame :: below => frame.advance :: below

/-- The state that a move hands to the cursor machine. -/
inductive Prepares (t : ThreadState) : Move → ThreadState → Prop
  | resumed (hphase : t.phase = .running) (hstarted : t.started = false)
      (hfree : t.inFlight = none) :
      t.Prepares .resumed { t with startPending := false, started := true }
  | executed {caller : Option Context} {program : Sequence} {entry : Option String} {start : Nat}
      (hphase : t.phase = .running)
      (hcaller : ∀ context, caller = some context → t.isCurrent context.ticket = true)
      (hentry : program.entry entry = .ok start) :
      t.Prepares (.executed caller program entry)
        { t with
          started := true
          frames := Frame.new program start t.inFlight.isSome :: t.frames }
  | completed {context : Context} (hcurrent : t.isCurrent context.ticket = true) :
      t.Prepares (.completed context)
        { t with inFlight := none, frames := advanceTop t.frames }

/-- Whether a transfer of control is granted. -/
def grants (t : ThreadState) (caller : Option Context) (program : Sequence)
    (entry : Option String) : Bool :=
  t.isRunning && caller.all (fun context => t.isCurrent context.ticket) &&
    (program.entry entry).isOk

/-- Whether the first run is still to come. -/
def isFresh (t : ThreadState) : Bool := t.isRunning && !t.started && t.inFlight.isNone

theorem Prepares.grants {t p : ThreadState} {caller : Option Context} {program : Sequence}
    {entry : Option String} (h : t.Prepares (.executed caller program entry) p) :
    t.grants caller program entry = true := by
  cases h with
  | executed hphase hcaller hentry =>
    simp only [ThreadState.grants, isRunning_iff.2 hphase, hentry, Bool.true_and, Bool.and_eq_true]
    refine ⟨?_, rfl⟩
    cases caller with
    | none => rfl
    | some context => exact hcaller context rfl

theorem exists_prepares_of_grants {t : ThreadState} {caller : Option Context}
    {program : Sequence} {entry : Option String} (h : t.grants caller program entry = true) :
    ∃ p, t.Prepares (.executed caller program entry) p := by
  simp only [ThreadState.grants, Bool.and_eq_true] at h
  obtain ⟨⟨hrun, hcaller⟩, hentry⟩ := h
  rcases hstart : program.entry entry with error | start
  · rw [hstart] at hentry
    cases hentry
  · refine ⟨_, .executed (isRunning_iff.1 hrun) ?_ hstart⟩
    rintro context rfl
    exact hcaller

theorem Prepares.isFresh {t p : ThreadState} (h : t.Prepares .resumed p) : t.isFresh = true := by
  cases h with
  | resumed hphase hstarted hfree =>
    simp [ThreadState.isFresh, isRunning_iff.2 hphase, hstarted, hfree]

/-- A transfer that is allowed runs what it prepares. -/
theorem Prepares.transfer_eq {t p : ThreadState} {caller : Option Context} {program : Sequence}
    {entry : Option String} (h : t.Prepares (.executed caller program entry) p) :
    t.transfer caller program entry = .ok p.run := by
  cases h with
  | executed hphase hcaller hentry =>
    have hrun := isRunning_iff.2 hphase
    unfold transfer
    cases caller with
    | none => simp [hrun, hentry, bind, Except.bind]
    | some context =>
      simp [hrun, hcaller context rfl, hentry, bind, Except.bind]

/-- A transfer that succeeds runs what it prepares. -/
theorem transfer_eq_ok {t s : ThreadState} {caller : Option Context} {program : Sequence}
    {entry : Option String} {advance : Advance}
    (h : t.transfer caller program entry = .ok (advance, s)) :
    ∃ p, t.Prepares (.executed caller program entry) p ∧ p.run = (advance, s) := by
  unfold transfer at h
  rcases hrun : t.isRunning with _ | _
  · simp [hrun, bind, Except.bind] at h
  have hphase := isRunning_iff.1 hrun
  -- past the guards, only the entry label can be refused
  have caller_ok : ∀ context, caller = some context → t.isCurrent context.ticket = true := by
    rintro context rfl
    rcases hcur : t.isCurrent context.ticket with _ | _
    · simp [hrun, hcur, bind, Except.bind] at h
    · rfl
  have hguard : (do
      let start ← program.entry entry
      .ok (run { t with
        started := true
        frames := Frame.new program start t.inFlight.isSome :: t.frames })) =
      Except.ok (ε := ThreadError) (advance, s) := by
    cases caller with
    | none => simpa [hrun, bind, Except.bind, pure, Except.pure] using h
    | some context =>
      simpa [hrun, caller_ok context rfl, bind, Except.bind, pure, Except.pure] using h
  rcases hentry : program.entry entry with error | start
  · simp [hentry, bind, Except.bind] at hguard
  · simp only [hentry, bind, Except.bind, Except.ok.injEq] at hguard
    exact ⟨_, .executed hphase caller_ok hentry, hguard⟩

/-- The first run, unless something else has set the thread going or the thread is gone. -/
theorem resume_cases (t : ThreadState) :
    (t.isFresh = false ∧ t.resume.1 = ⟨none, .idle⟩ ∧ t.Agrees t.resume.2) ∨
    (∃ p, t.Prepares .resumed p ∧ t.resume = p.run) := by
  unfold resume
  dsimp only
  split
  next hmoved =>
    refine .inl ⟨?_, rfl, rfl, rfl, rfl, rfl, rfl, rfl, rfl, rfl⟩
    simp only [isFresh]
    rcases Bool.or_eq_true_iff.1 hmoved with hstarted | hflight
    · simp [hstarted]
    · obtain ⟨a, ha⟩ := Option.isSome_iff_exists.1 hflight
      simp [ha]
  next hfresh =>
    simp only [Bool.or_eq_true, not_or, Bool.not_eq_true, Option.isSome_eq_false_iff,
      Option.isNone_iff_eq_none] at hfresh
    by_cases hphase : t.phase = .running
    · exact .inr ⟨_, .resumed hphase hfresh.1 hfresh.2, rfl⟩
    · refine .inl ⟨by simp [isFresh, isRunning, hphase], ?_⟩
      simp only [run, isRunning, hphase, Bool.not_eq_true', beq_eq_false_iff_ne, ne_eq,
        not_false_eq_true, if_true, true_and]
      exact t.agrees_marks _ _ _ _

/-- An assignment changes nothing but the variables. -/
theorem setVar_eq (t : ThreadState) (name : String) (value : Json) :
    ∃ vars, t.setVar name value = { t with vars } := by
  unfold setVar
  split
  · exact ⟨_, rfl⟩
  · split <;> exact ⟨_, rfl⟩

theorem setVar_id (t : ThreadState) (name : String) (value : Json) :
    (t.setVar name value).id = t.id := by
  obtain ⟨vars, hvars⟩ := t.setVar_eq name value
  rw [hvars]

/-- After an assignment, a thread is as it was but for its variables. -/
theorem Agrees.of_setVar {t t' : ThreadState} {name : String} {value : Json}
    (h : (t.setVar name value).Agrees t') : Agrees { t with vars := t'.vars } t' := by
  obtain ⟨vars, hvars⟩ := t.setVar_eq name value
  rw [hvars] at h
  exact { h with vars := rfl }

theorem complete_eq (t : ThreadState) :
    t.complete = run { t with inFlight := none, frames := advanceTop t.frames } := by
  unfold complete advanceTop
  cases t.frames <;> rfl

/-! ## Running -/

/-- The instructions that a thread has still to come to. -/
def toCome (t : ThreadState) : List Instruction := Frame.remaining t.frames

/-- What the cursor machine has to come to when these instructions are still to come. -/
def arrivalAt (t : ThreadState) : List Instruction → Arrival
  | [] => .exhausted
  | i :: _ =>
    match t.scripts.find? i.handler with
    | none => .fatal (.dispatch (.unknownScript i.handler))
    | some entry => .dispatch ⟨entry.script, ⟨t.id, t.ticket + 1, i⟩⟩

/-- The cursor of the top frame points at an instruction. -/
def PointsAt (frames : List Frame) (i : Instruction) : Prop :=
  ∃ frame below, frames = frame :: below ∧ frame.position = .instruction i

/-- All that a run of a well-stacked thread can come to. -/
inductive Ran (t : ThreadState) : Advance × ThreadState → Prop
  | exhausted {frames : List Frame} (hstack : Frame.WellStacked frames)
      (hbefore : t.toCome = []) (hafter : Frame.remaining frames = []) :
      Ran t (⟨none, .exhausted⟩, { t with frames })
  | unknown {frames : List Frame} {i : Instruction} {rest : List Instruction}
      (hstack : Frame.WellStacked frames) (hbefore : t.toCome = i :: rest)
      (hafter : Frame.remaining frames = i :: rest) (hpoints : PointsAt frames i)
      (hfind : t.scripts.find? i.handler = none) :
      Ran t (⟨t.inFlight, .fatal (.dispatch (.unknownScript i.handler))⟩,
        { t with frames, inFlight := none })
  | dispatched {frames : List Frame} {i : Instruction} {rest : List Instruction}
      {entry : ScriptEntry}
      (hstack : Frame.WellStacked frames) (hbefore : t.toCome = i :: rest)
      (hafter : Frame.remaining frames = i :: rest) (hpoints : PointsAt frames i)
      (hfind : t.scripts.find? i.handler = some entry) :
      Ran t (⟨t.inFlight, .dispatch ⟨entry.script, ⟨t.id, t.ticket + 1, i⟩⟩⟩,
        { t with
          frames
          ticket := t.ticket + 1
          inFlight := some ⟨entry.script, ⟨t.id, t.ticket + 1, i⟩⟩ })

theorem ran_run {t : ThreadState} (hphase : t.phase = .running)
    (hstack : Frame.WellStacked t.frames) : t.Ran t.run := by
  -- the cursor machine stops at the head of what is to come, and the registry decides the rest
  have hseek := Frame.seek_spec hstack
  unfold run
  rw [isRunning_iff.2 hphase]
  simp only [Bool.not_true, Bool.false_eq_true, if_false]
  rcases hfound : Frame.seek t.frames with ⟨stop, frames⟩
  rw [hfound] at hseek
  obtain ⟨hstack', hrem, hstop⟩ := hseek
  rcases hcome : Frame.remaining t.frames with _ | ⟨i, rest⟩
  · rw [hcome] at hstop hrem
    subst hstop
    exact .exhausted hstack' hcome hrem
  · rw [hcome] at hstop hrem
    obtain ⟨rfl, hpoints⟩ := hstop
    rcases hfind : t.scripts.find? i.handler with _ | entry
    · simp only [Registry.create, hfind]
      exact .unknown hstack' hcome hrem hpoints hfind
    · simp only [Registry.create, hfind]
      exact .dispatched hstack' hcome hrem hpoints hfind

/-- A run changes nothing about what is to come, and arrives at the first of it. -/
theorem Ran.spec {t : ThreadState} {r : Advance × ThreadState} (h : t.Ran r) :
    r.2.toCome = t.toCome ∧ r.1.arrival = t.arrivalAt t.toCome := by
  cases h with
  | exhausted hstack hbefore hafter =>
    rw [hbefore]
    exact ⟨hafter, rfl⟩
  | unknown hstack hbefore hafter hpoints hfind =>
    rw [hbefore]
    refine ⟨hafter, ?_⟩
    simp [arrivalAt, hfind]
  | dispatched hstack hbefore hafter hpoints hfind =>
    rw [hbefore]
    refine ⟨hafter, ?_⟩
    simp [arrivalAt, hfind]

/-- A run keeps what a thread was created with, its life and its variables. -/
structure Kin (t t' : ThreadState) : Prop extends SameOrigin t t' where
  phase : t.phase = t'.phase
  vars : t.vars = t'.vars

theorem kin_run (t : ThreadState) : t.Kin t.run.2 := by
  unfold run
  split
  · exact ⟨⟨rfl, rfl, rfl⟩, rfl, rfl⟩
  · split
    · exact ⟨⟨rfl, rfl, rfl⟩, rfl, rfl⟩
    · exact ⟨⟨rfl, rfl, rfl⟩, rfl, rfl⟩
    · split <;> exact ⟨⟨rfl, rfl, rfl⟩, rfl, rfl⟩

theorem Ran.inFlight {t : ThreadState} {r : Advance × ThreadState} (h : t.Ran r) :
    (r.2.inFlight = t.inFlight ∧ r.1.aborted = none) ∨
      ∀ a, r.2.inFlight = some a → a.context.ticket = t.ticket + 1 := by
  cases h with
  | exhausted => exact .inl ⟨rfl, rfl⟩
  | unknown =>
    refine .inr ?_
    intro a ha
    cases ha
  | dispatched =>
    refine .inr ?_
    rintro a ⟨⟩
    rfl

/-- The script that loses its place in a run is the one that was in flight. -/
theorem aborted_run {t : ThreadState} {a : Instance} (h : t.run.1.aborted = some a) :
    t.inFlight = some a := by
  revert h
  unfold run
  split
  · simp
  · split
    · simp
    · simp
    · split <;> exact fun h => h

theorem Prepares.kin {t p : ThreadState} {move : Move} (h : t.Prepares move p) : t.Kin p := by
  cases h <;> exact ⟨⟨rfl, rfl, rfl⟩, rfl, rfl⟩

/-- What a move that sets the cursor machine going keeps. -/
theorem Prepares.kin_run {t p : ThreadState} {move : Move} (h : t.Prepares move p) :
    t.Kin p.run.2 where
  toSameOrigin := h.kin.toSameOrigin.trans p.kin_run.toSameOrigin
  phase := h.kin.phase.trans p.kin_run.phase
  vars := h.kin.vars.trans p.kin_run.vars

theorem id_resume (t : ThreadState) : t.resume.2.id = t.id := by
  rcases t.resume_cases with ⟨-, -, hagree⟩ | ⟨p, hprep, hresume⟩
  · exact hagree.id.symm
  · rw [hresume]
    exact hprep.kin_run.id.symm

/-! ## The invariant -/

/-- The script in flight has the last ticket. -/
def Ticketed (t : ThreadState) : Prop :=
  ∀ a, t.inFlight = some a → a.context.thread = t.id ∧ a.context.ticket = t.ticket

/-- The cursor of a running thread points at the instruction in flight, unless nothing is left to
come and the thread is about to be destroyed. -/
def Placed (t : ThreadState) : Prop :=
  ∀ a, t.inFlight = some a → PointsAt t.frames a.context.instruction ∨ t.toCome = []

/-- The stack of a running thread is well formed and fits the script in flight. -/
structure Sound (t : ThreadState) : Prop where
  ticketed : t.Ticketed
  stacked : t.phase = .running → Frame.WellStacked t.frames
  placed : t.phase = .running → t.Placed

theorem Agrees.sound {t t' : ThreadState} (h : t.Agrees t') (hs : t.Sound) : t'.Sound where
  ticketed := by
    intro a ha
    rw [← h.id, ← h.ticket]
    exact hs.ticketed a (h.inFlight.trans ha)
  stacked := by
    intro hphase
    rw [← h.frames]
    exact hs.stacked (h.phase.trans hphase)
  placed := by
    intro hphase a ha
    have := hs.placed (h.phase.trans hphase) a (h.inFlight.trans ha)
    rwa [toCome, ← h.frames]

theorem Sound.setVar {t : ThreadState} (h : t.Sound) (name : String) (value : Json) :
    (t.setVar name value).Sound := by
  obtain ⟨vars, hvars⟩ := t.setVar_eq name value
  rw [hvars]
  exact ⟨h.ticketed, h.stacked, h.placed⟩

/-- A thread that does not run is sound as soon as its script in flight has the last ticket. -/
theorem Ticketed.sound {t : ThreadState} (h : t.Ticketed) (hphase : t.phase ≠ .running) :
    t.Sound where
  ticketed := h
  stacked := fun h => absurd h hphase
  placed := fun h => absurd h hphase

/-- Without a script in flight, a sound thread stays sound. -/
theorem Sound.free {t : ThreadState} (h : t.Sound) : Sound { t with inFlight := none } where
  ticketed := by
    intro a ha
    cases ha
  stacked := h.stacked
  placed := by
    intro _ a ha
    cases ha

/-- A running thread that has a script in flight although nothing is left to come. It is about to
be destroyed. -/
def Spent (t : ThreadState) : Prop := t.phase = .running ∧ t.inFlight ≠ none ∧ t.toCome = []

theorem Agrees.spent {t t' : ThreadState} (h : t.Agrees t') (hs : t'.Spent) : t.Spent := by
  obtain ⟨hphase, hflight, hcome⟩ := hs
  refine ⟨h.phase.trans hphase, ?_, ?_⟩
  · rwa [h.inFlight]
  · rwa [toCome, h.frames]

theorem spent_setVar {t : ThreadState} {name : String} {value : Json} :
    (t.setVar name value).Spent ↔ t.Spent := by
  obtain ⟨vars, hvars⟩ := t.setVar_eq name value
  rw [hvars]
  exact .rfl

/-- A run leaves a thread spent only by reaching the end with a script in flight. -/
theorem Ran.spent {t : ThreadState} {r : Advance × ThreadState} (h : t.Ran r) (hs : r.2.Spent) :
    r.1 = ⟨none, .exhausted⟩ ∧ t.inFlight ≠ none := by
  obtain ⟨-, hflight, hcome⟩ := hs
  cases h with
  | exhausted hstack hbefore hafter => exact ⟨rfl, hflight⟩
  | unknown hstack hbefore hafter => exact absurd rfl hflight
  | dispatched hstack hbefore hafter =>
    rw [ThreadState.toCome, hafter] at hcome
    cases hcome

/-- A thread that was just created has its program to come, from the entry label on. -/
theorem create_eq_ok {id : ThreadId} {scripts : Registry} {services : ServiceSet}
    {program : Sequence} {vars : Members} {entry : Option String} {t : ThreadState}
    (h : create id scripts services program vars entry = .ok t) :
    ∃ start, program ≠ [] ∧ program.entry entry = .ok start ∧
      t = { id, scripts, services, vars, phase := .running,
            frames := [Frame.new program start false], ticket := 0, inFlight := none,
            started := false, startPending := false, ended := false, cancelled := [] } := by
  unfold create at h
  rcases hempty : program.isEmpty with _ | _
  · rcases hentry : program.entry entry with error | start
    · simp [hempty, hentry, bind, Except.bind] at h
    · simp only [hempty, hentry, bind, Except.bind, Bool.false_eq_true, if_false,
        Except.ok.injEq] at h
      exact ⟨start, by simpa using hempty, rfl, h.symm⟩
  · simp [hempty] at h

theorem sound_create {id : ThreadId} {scripts : Registry} {services : ServiceSet}
    {program : Sequence} {vars : Members} {entry : Option String} {t : ThreadState}
    (h : create id scripts services program vars entry = .ok t) : t.Sound := by
  obtain ⟨start, -, -, rfl⟩ := create_eq_ok h
  exact {
    ticketed := by
      intro a ha
      cases ha
    stacked := fun _ => ⟨Frame.readable_new _ _ _, rfl⟩
    placed := by
      intro _ a ha
      cases ha }

theorem isSome_of_isCurrent {t : ThreadState} {ticket : Nat} (h : t.isCurrent ticket = true) :
    ∃ a, t.inFlight = some a := by
  obtain ⟨-, a, ha, -⟩ := isCurrent_iff.1 h
  exact ⟨a, ha⟩

/-- With a script in flight, the frame on top can be stepped past. -/
theorem Sound.steppable {t : ThreadState} (hs : t.Sound) (hphase : t.phase = .running)
    {a : Instance} (ha : t.inFlight = some a) {frame : Frame} {below : List Frame}
    (hframes : t.frames = frame :: below) : frame.Steppable := by
  rcases hs.placed hphase a ha with ⟨top, rest, htop, hpos⟩ | hnil
  · rw [hframes] at htop
    cases htop
    exact .inl ⟨_, hpos⟩
  · -- nothing is left, not even under the top frame
    rw [toCome, hframes, Frame.remaining_cons] at hnil
    exact .inr (List.append_eq_nil_iff.1 hnil).1

theorem Sound.exists_top {t : ThreadState} (hs : t.Sound) (hphase : t.phase = .running) :
    ∃ frame below, t.frames = frame :: below := by
  have hstack := hs.stacked hphase
  rcases hframes : t.frames with _ | ⟨frame, below⟩
  · rw [hframes] at hstack
    exact hstack.elim
  · exact ⟨frame, below, rfl⟩

/-- What is to come apart from the script in flight. -/
theorem Sound.pending_eq {t : ThreadState} (hs : t.Sound) (hphase : t.phase = .running) :
    Frame.pending t.inFlight.isSome t.frames =
      if t.inFlight.isSome then t.toCome.tail else t.toCome := by
  obtain ⟨frame, below, hframes⟩ := hs.exists_top hphase
  rw [toCome, hframes]
  apply Frame.pending_eq_tail
  intro hsome
  obtain ⟨a, ha⟩ := Option.isSome_iff_exists.1 hsome
  have hread : frame.Readable := by
    have hstack := hs.stacked hphase
    rw [hframes] at hstack
    exact hstack.readable
  rcases hs.placed hphase a ha with ⟨top, rest, htop, hpos⟩ | hnil
  · rw [hframes] at htop
    cases htop
    rw [hread.rest_of_instruction hpos]
    exact .inl (by simp)
  · rw [toCome, hframes, Frame.remaining_cons] at hnil
    exact .inr (List.append_eq_nil_iff.1 hnil).2

theorem Prepares.phase {t p : ThreadState} {move : Move} (h : t.Prepares move p) :
    t.phase = .running ∧ p.phase = .running := by
  cases h with
  | resumed hphase => exact ⟨hphase, hphase⟩
  | executed hphase => exact ⟨hphase, hphase⟩
  | completed hcurrent => exact ⟨(isCurrent_iff.1 hcurrent).1, (isCurrent_iff.1 hcurrent).1⟩

/-- A prepared stack is well formed. -/
theorem Prepares.stacked {t p : ThreadState} {move : Move} (h : t.Prepares move p)
    (hs : t.Sound) : Frame.WellStacked p.frames := by
  have hphase := h.phase.1
  have hstack := hs.stacked hphase
  obtain ⟨frame, below, hframes⟩ := hs.exists_top hphase
  cases h with
  | resumed => exact hstack
  | executed =>
    -- the new frame steps its caller on when it is left, so the caller has to be able to
    have hsteps : t.inFlight.isSome = true → frame.Steppable := by
      intro hsome
      obtain ⟨a, ha⟩ := Option.isSome_iff_exists.1 hsome
      exact hs.steppable hphase ha hframes
    rw [hframes] at hstack
    simp only [hframes]
    exact ⟨Frame.readable_new _ _ _, hsteps, hstack⟩
  | completed =>
    rw [hframes] at hstack
    simp only [hframes, advanceTop]
    exact hstack.replace_top hstack.readable.advance rfl

theorem Prepares.ran {t p : ThreadState} {move : Move} (h : t.Prepares move p) (hs : t.Sound) :
    p.Ran p.run :=
  ran_run h.phase.2 (h.stacked hs)

/-- A transfer puts its program in front of what is to come, without the script in flight. -/
theorem toCome_executed {t p : ThreadState} {caller : Option Context} {program : Sequence}
    {entry : Option String} (h : t.Prepares (.executed caller program entry) p) (hs : t.Sound) :
    ∃ start, program.entry entry = .ok start ∧
      p.toCome = Sequence.instructions (program.drop start) ++
        if t.inFlight.isSome then t.toCome.tail else t.toCome := by
  have hpending := hs.pending_eq h.phase.1
  cases h with
  | @executed _ _ _ start hphase hcaller hentry =>
    refine ⟨start, hentry, ?_⟩
    rw [← hpending]
    rfl

/-- The end of the script in flight takes its instruction away from what is to come. -/
theorem toCome_completed {t p : ThreadState} {context : Context}
    (h : t.Prepares (.completed context) p) (hs : t.Sound) : p.toCome = t.toCome.tail := by
  have hphase := h.phase.1
  have hpending := hs.pending_eq hphase
  have hstack := hs.stacked hphase
  obtain ⟨frame, below, hframes⟩ := hs.exists_top hphase
  cases h with
  | completed hcurrent =>
    obtain ⟨a, ha⟩ := isSome_of_isCurrent hcurrent
    have hsteps := hs.steppable hphase ha hframes
    rw [hframes] at hstack
    simp only [ha, Option.isSome_some, if_true, hframes, Frame.pending] at hpending
    rw [← hpending, ← hstack.readable.rest_advance hsteps]
    simp [toCome, hframes, advanceTop, Frame.remaining_cons]

/-- A run of a prepared state leaves the thread sound. -/
theorem Ran.sound {t : ThreadState} {r : Advance × ThreadState} (h : t.Ran r)
    (ht : t.Ticketed) : r.2.Sound := by
  cases h with
  | exhausted hstack hbefore hafter =>
    exact {
      ticketed := ht
      stacked := fun _ => hstack
      placed := fun _ a _ => .inr hafter }
  | unknown hstack hbefore hafter hpoints hfind =>
    exact {
      ticketed := by
        intro a ha
        cases ha
      stacked := fun _ => hstack
      placed := by
        intro _ a ha
        cases ha }
  | dispatched hstack hbefore hafter hpoints hfind =>
    exact {
      ticketed := by
        rintro a ⟨⟩
        exact ⟨rfl, rfl⟩
      stacked := fun _ => hstack
      placed := by
        rintro _ a ⟨⟩
        exact .inl hpoints }

theorem Prepares.ticketed {t p : ThreadState} {move : Move} (h : t.Prepares move p)
    (ht : t.Ticketed) : p.Ticketed := by
  cases h with
  | resumed => exact ht
  | executed => exact ht
  | completed =>
    intro a ha
    cases ha

theorem Prepares.sound_run {t p : ThreadState} {move : Move} (h : t.Prepares move p)
    (hs : t.Sound) : p.run.2.Sound :=
  (h.ran hs).sound (h.ticketed hs.ticketed)

end ThreadState
end SentenceEngine
