import SentenceEngine.Proofs.Isolation

/-!
# What a step leaves to do

What a step puts on the stack, said once: most of it is routine, and the rest is about a thread that
runs at that time, so that nothing is told or arrived at on behalf of a thread that is gone. Two
steps are set apart, the two halves of a destruction. All of this rests on abort hooks that ask the
engine for nothing: they run while a thread is between two of its steps.

* `Behaviour.Quiet`, `Plugins.AbortQuietly`: code that asks the engine for nothing.
* `Engine.Brings`: all that a request or an item of work newly leaves to do, destructions apart.
* `Machine.Leaves`, `Machine.Step.leaves`: all that a step leaves to do.
* `Engine.roll`, `Machine.Step.enrols`: which threads are active, and how many there are.
-/

namespace SentenceEngine

variable {σ : Type}

/-- Code that asks the engine for nothing. -/
inductive Behaviour.Quiet {ω α : Type} : Behaviour σ ω α → Prop
  | pure (value : α) : Quiet (.pure value)
  | log {entry : LogEntry} {next : Behaviour σ ω α} (hnext : next.Quiet) : Quiet (.log entry next)
  | update {change : σ → σ} {next : σ → Behaviour σ ω α} (hnext : ∀ state, (next state).Quiet) :
      Quiet (.update change next)
  | wait {reason : ω} {next : Behaviour σ ω α} (hnext : next.Quiet) : Quiet (.wait reason next)

theorem Behaviour.Quiet.next {ω α : Type} {e : Engine σ} {code next : Behaviour σ ω α}
    (h : code.Quiet) (hnext : code.Precedes e next) : next.Quiet := by
  cases hnext with
  | ask => cases h
  | log => cases h with | log hnext => exact hnext
  | update => cases h with | update hnext => exact hnext _
  | wait => cases h with | wait hnext => exact hnext

theorem Work.asks?_hook {notification : Notification} {code : Behaviour σ Empty Outcome}
    (h : code.Quiet) : (Work.hook notification code).asks? = none := by
  cases h <;> rfl

theorem Work.asks?_abortHook {context : Context} {code : Behaviour σ Empty Unit}
    (h : code.Quiet) : (Work.abortHook context code).asks? = none := by
  cases h <;> rfl

/-- The abort hooks of all scripts ask the engine for nothing. -/
def Plugins.AbortQuietly (plugins : Plugins σ) : Prop :=
  ∀ script context, ((plugins.script script).abort context).Quiet

/-- The thread whose end a notification tells of. -/
def Notification.endOf? : Notification → Option ThreadId
  | .willDestroy id => some id
  | _ => none

namespace Engine

variable {e e' : Engine σ} {id : ThreadId} {t : ThreadState}

/-! ## Phases -/

/-- The phase of a thread. -/
def phase? (e : Engine σ) (id : ThreadId) : Option Phase := (e.thread? id).map (·.phase)

theorem phase?_eq (ht : e.thread? id = some t) : e.phase? id = some t.phase := by
  simp [phase?, ht]

theorem phase?_eq_some_iff {phase : Phase} :
    e.phase? id = some phase ↔ ∃ t, e.thread? id = some t ∧ t.phase = phase := by
  simp [phase?]

theorem phase?_eq_none_iff : e.phase? id = none ↔ e.thread? id = none := by
  simp [phase?]

theorem look_isRunning_iff :
    e.look id false (·.isRunning) = true ↔ e.phase? id = some .running := by
  rcases ht : e.thread? id with _ | t <;> simp [look, phase?, ht, ThreadState.isRunning_iff]

theorem phase?_setThread_self {s : ThreadState} (ht : e.thread? id = some t) (hid : s.id = id) :
    (e.setThread s).phase? id = some s.phase := by
  subst hid
  exact phase?_eq (thread?_setThread_self ht)

theorem Keeps.phase? (h : e.Keeps e') (ht : e.thread? id = some t) :
    e'.phase? id = some t.phase := by
  obtain ⟨t', ht', hagree⟩ := h.agrees ht
  rw [phase?_eq ht', hagree.phase]

/-! ## The roll -/

/-- Which threads are active, and how many there are. -/
def roll (e : Engine σ) : List ThreadId × Nat := (e.active, e.threads.length)

@[simp]
theorem roll_setThread (t : ThreadState) : (e.setThread t).roll = e.roll := by
  simp [roll, setThread]

@[simp]
theorem roll_modifyThread (f : ThreadState → ThreadState) :
    (e.modifyThread id f).roll = e.roll := by
  unfold modifyThread
  split
  · exact roll_setThread _
  · rfl

@[simp]
theorem roll_dropStart : (e.dropStart id).roll = e.roll := by
  unfold dropStart
  split
  · exact roll_modifyThread _
  · rfl

@[simp]
theorem roll_cancel (context : Context) : (e.cancel context).roll = e.roll := by
  show (e.modifyThread context.thread _).roll = e.roll
  exact roll_modifyThread _

theorem roll_handPermits (tag : String) (count : Nat) :
    (e.handPermits tag count).roll = e.roll := by
  induction count generalizing e with
  | zero => rfl
  | succ count ih =>
    unfold handPermits
    dsimp only
    split
    · rw [ih]
      rfl
    · rfl

/-- A request for a thread is refused, or the new thread runs, is active, takes the next number and
has the services that are registered, which are told of it. -/
theorem createThread_cases (overrides : Option ThreadConfig) :
    (∃ error, (e.createThread overrides).reply = .error error ∧
      (e.createThread overrides).todo = [] ∧
      (e.createThread overrides).engine.roll = e.roll ∧
      (e.createThread overrides).engine.services = e.services) ∨
    ((e.createThread overrides).reply = .ok e.threads.length ∧
      (e.createThread overrides).todo =
        [.notify e.services (.created e.threads.length), .start e.threads.length] ∧
      (e.createThread overrides).engine.roll =
        (e.active ++ [e.threads.length], e.threads.length + 1) ∧
      (e.createThread overrides).engine.services = e.services ∧
      ∃ t, (e.createThread overrides).engine.thread? e.threads.length = some t ∧
        t.phase = .running ∧ t.services = e.services) := by
  unfold createThread
  dsimp only
  split
  · exact .inl ⟨_, rfl, rfl, rfl, rfl⟩
  next program _ =>
    obtain ⟨log, validated, hvalidate⟩ :=
      validateFor_eq (e := e) program (overrides.getD .empty).sentences.isSome
    rcases hresult : e.validateFor program (overrides.getD .empty).sentences.isSome with
      ⟨error | done, e₁⟩
    · rw [hresult] at hvalidate
      cases hvalidate
      exact .inl ⟨_, rfl, rfl, rfl, rfl⟩
    · rw [hresult] at hvalidate
      cases hvalidate
      dsimp only
      split
      · exact .inl ⟨_, rfl, rfl, rfl, rfl⟩
      next t hcreate =>
        obtain ⟨start, -, -, hstate⟩ := ThreadState.create_eq_ok hcreate
        refine .inr ⟨rfl, rfl, ?_, rfl, t, ?_, ?_, ?_⟩
        · simp [roll, addThread, hstate]
        · simp [thread?, addThread]
        · rw [hstate]
        · rw [hstate]

/-- Only a request for a thread that is granted changes the roll. -/
theorem roll_answer (query : Query) :
    (e.answer query).engine.roll = e.roll ∨
    ∃ overrides, query = .core (.createThread overrides) ∧
      (e.answer (.core (.createThread overrides))).reply = some (.ok e.threads.length) ∧
      (e.answer query).engine.roll = (e.active ++ [e.threads.length], e.threads.length + 1) := by
  have transferred : ∀ id caller program entry,
      (e.transfer id caller program entry).engine.roll = e.roll := by
    intro id caller program entry
    unfold transfer
    split
    · rfl
    · split
      · rfl
      · simp
  cases query with
  | setVar id name value => exact .inl (roll_modifyThread _)
  | execute id program entry => exact .inl (transferred _ _ _ _)
  | transfer context program entry => exact .inl (transferred _ _ _ _)
  | destroy id =>
    left
    simp only [answer, destroyThread]
    split <;> rfl
  | core query =>
    by_cases halive : e.alive = true
    · simp only [answer, halive, if_true]
      cases query with
      | createThread overrides =>
        rcases createThread_cases (e := e) overrides with
          ⟨error, -, -, hroll, -⟩ | ⟨hreply, -, hroll, -⟩
        · exact .inl hroll
        · exact .inr ⟨overrides, rfl, congrArg some hreply, hroll⟩
      | initializeCore =>
        left
        simp only [answerCore]
        split <;> rfl
      | configure config =>
        left
        obtain ⟨log, defaults, validated, hconfigure⟩ := configure_eq (e := e) config
        simp only [answerCore, respond, hconfigure]
        rfl
      | validate program =>
        left
        obtain ⟨log, hvalidate⟩ := validate_eq (e := e) program
        simp only [answerCore, respond, hvalidate]
        rfl
      | registerScript name factory =>
        left
        obtain ⟨log, scripts, hregister⟩ := registerScript_eq (e := e) name factory
        simp only [answerCore, respond, hregister]
        rfl
      | registerService service =>
        left
        obtain ⟨services, hregister⟩ := registerService_eq (e := e) service
        simp only [answerCore, respond, hregister]
        rfl
      | _ => exact .inl rfl
    · left
      simp only [answer, halive]
      rfl
  | _ => exact .inl rfl

end Engine

/-! ## Kinds of work -/

namespace Work

/-- Work that tells nobody anything about a thread and can wait until its turn comes. -/
def isRoutine : Work σ → Bool
  | .script _ _ => true
  | .announce notification => notification.thread?.isNone
  | .spawn _ => true
  | .complete _ => true
  | .destroy _ => true
  | .start _ => true
  | .reopen => true
  | _ => false

/-- Work that can wait below other work, whatever that does. -/
def Calm : Work σ → Prop
  | .abortHook _ _ => False
  | .abort _ => False
  | .arrive _ _ => False
  | .fail _ _ => False
  | .release _ => False
  | .announce notification => notification.thread? = none
  | _ => True

/-- Work that was left to do while its thread was in a certain phase, and needs it to be still. -/
def Due (e : Engine σ) : Work σ → Prop
  | .arrive id arrival => arrival = .idle ∨ e.phase? id = some .running
  | .fail id _ => e.phase? id = some .running
  | .release id => e.phase? id = some .destroyed
  | _ => False

/-- Work by which a script is told to stop. -/
def Interrupts : Work σ → Prop
  | .abort _ => True
  | .abortHook _ code => code.Quiet
  | _ => False

theorem calm_of_isRoutine {work : Work σ} (h : work.isRoutine = true) : work.Calm := by
  cases work <;> simp_all [isRoutine, Calm]

/-- The thread that an item of work takes everything away from. -/
def clears? : Work σ → Option ThreadId
  | .clear id => some id
  | _ => none

/-- The thread that an item of work takes out of the active ones. -/
def releases? : Work σ → Option ThreadId
  | .release id => some id
  | _ => none

/-- The notification of a round of the services. -/
def round? : Work σ → Option Notification
  | .notify _ notification => some notification
  | _ => none

end Work

/-! ## What is left to do -/

namespace Engine

variable {e e' : Engine σ} {id : ThreadId}

/-- All that a request or an item of work newly leaves to do, destructions apart, in the engine
after it. -/
inductive Brings (e' : Engine σ) : List (Work σ) → Prop
  | routine {todo : List (Work σ)} (hroutine : ∀ work ∈ todo, work.isRoutine = true) :
      Brings e' todo
  /-- The cursor machine was set going. -/
  | moved {id : ThreadId} {advance : Advance} (hrunning : e'.phase? id = some .running) :
      Brings e' (advanceWork id advance)
  /-- A first run that came too late. -/
  | late {id : ThreadId} : Brings e' [.arrive id .idle]
  | failed {id : ThreadId} {error : ThreadError} (hrunning : e'.phase? id = some .running) :
      Brings e' [.fail id error]
  /-- Services are told something about a thread, which then goes on. -/
  | told {services : ServiceSet} {notification : Notification} {id : ThreadId} {next : Work σ}
      (hthread : notification.thread? = some id) (hend : notification.endOf? = none)
      (hrunning : e'.phase? id = some .running) (hnext : next.isRoutine = true) :
      Brings e' [.notify services notification, next]
  /-- Services are told something about the engine. -/
  | announced {services : ServiceSet} {notification : Notification}
      (hthread : notification.thread? = none) : Brings e' [.notify services notification]

theorem Brings.nothing : e'.Brings ([] : List (Work σ)) := .routine (by simp)

theorem Brings.one {work : Work σ} (h : work.isRoutine = true) : e'.Brings [work] :=
  .routine (by simpa using h)

theorem brings_transfer (hn : e.Numbered) (caller : Option Context) (program : Sequence)
    (entry : Option String) :
    (e.transfer id caller program entry).engine.Brings
      (e.transfer id caller program entry).todo := by
  unfold transfer
  rcases ht : e.thread? id with _ | t
  · exact .nothing
  rcases htransfer : t.transfer caller program entry with error | ⟨advance, s⟩
  · simp only [htransfer]
    exact .nothing
  · simp only [htransfer]
    apply Brings.moved
    -- the thread ran before, and what it was prepared for keeps it running
    obtain ⟨p, hprep, hrun⟩ := ThreadState.transfer_eq_ok htransfer
    have hs : s = p.run.2 := by rw [hrun]
    have hid : s.id = id := by
      rw [hs]
      exact hprep.kin_run.id.symm.trans (hn _ _ ht)
    have hphase : s.phase = .running := by
      rw [hs]
      exact hprep.kin_run.phase.symm.trans hprep.phase.1
    obtain ⟨s', hs', hphase'⟩ := phase?_eq_some_iff.1 (phase?_setThread_self ht hid)
    rw [(keeps_dropStart (numbered_setThread hn) id).phase? hs', hphase', hphase]

theorem brings_createThread (overrides : Option ThreadConfig) :
    (e.createThread overrides).engine.Brings (e.createThread overrides).todo := by
  rcases createThread_cases (e := e) overrides with
    ⟨error, -, htodo, -⟩ | ⟨-, htodo, -, -, t, ht, hphase, -⟩
  · rw [htodo]
    exact .nothing
  · rw [htodo]
    have hrunning : (e.createThread overrides).engine.phase? e.threads.length = some .running := by
      rw [phase?_eq ht, hphase]
    exact .told rfl rfl hrunning rfl

theorem brings_answerCore (query : CoreQuery) :
    (e.answerCore query).engine.Brings (e.answerCore query).todo := by
  cases query with
  | createThread overrides => exact brings_createThread overrides
  | destroyAll =>
    apply Brings.routine
    intro work hwork
    obtain ⟨id, -, rfl⟩ := List.mem_map.1 hwork
    rfl
  | destroyCore =>
    apply Brings.routine
    intro work hwork
    simp only [answerCore, List.mem_append, List.mem_map, List.mem_cons, List.not_mem_nil,
      or_false] at hwork
    rcases hwork with ⟨id, -, rfl⟩ | rfl | rfl <;> rfl
  | initializeCore =>
    simp only [answerCore]
    split
    · exact .nothing
    · exact .one rfl
  | _ => exact .nothing

/-- All that a request leaves to do. -/
theorem brings_answer (hn : e.Numbered) (query : Query) :
    (e.answer query).engine.Brings (e.answer query).todo := by
  cases query with
  | execute id program entry => exact brings_transfer hn _ _ _
  | transfer context program entry => exact brings_transfer hn _ _ _
  | destroy id =>
    simp only [answer, destroyThread]
    split
    · exact .one rfl
    · exact .nothing
  | core query =>
    simp only [answer]
    split
    · exact brings_answerCore query
    · exact .nothing
  | _ => exact .nothing

end Engine

namespace Machine

variable {plugins : Plugins σ} {m m' : Machine σ} {event : Event σ} {id : ThreadId}
  {e e' : Engine σ}

namespace Event

/-- The item of work that a step does. -/
def item? : Event σ → Option (Work σ)
  | .work item => some item
  | _ => none

/-- The thread whose destruction a step begins. -/
def ends? (e : Engine σ) : Event σ → Option ThreadId
  | .work (.destroy id) => if e.phase? id = some .running then some id else none
  | _ => none

/-- The thread that a step takes everything away from. -/
def clears? (event : Event σ) : Option ThreadId := event.item?.bind Work.clears?

/-- The thread that a step takes out of the active ones. -/
def releases? (event : Event σ) : Option ThreadId := event.item?.bind Work.releases?

theorem ends?_eq_some_iff :
    event.ends? e = some id ↔ event = .work (.destroy id) ∧ e.phase? id = some .running := by
  unfold ends?
  split
  next other =>
    by_cases hrunning : e.phase? other = some .running
    · simp only [hrunning, if_true, Option.some.injEq, Event.work.injEq, Work.destroy.injEq]
      constructor
      · rintro rfl
        exact ⟨rfl, hrunning⟩
      · exact And.left
    · simp only [hrunning, if_false, reduceCtorEq, Event.work.injEq, Work.destroy.injEq, false_iff,
        not_and]
      rintro rfl
      exact hrunning
  next hother =>
    simp only [reduceCtorEq, false_iff, not_and]
    rintro rfl
    exact absurd rfl (hother id)

theorem clears?_eq_some_iff : event.clears? = some id ↔ event = .work (.clear id) := by
  cases event with
  | work item => cases item <;> simp [clears?, item?, Work.clears?]
  | _ => simp [clears?, item?]

end Event

/-- A step that neither goes through with a destruction nor tells a script to stop. -/
def Event.IsOrdinary (e : Engine σ) : Event σ → Prop
  | .work (.abort _) => False
  | .work (.abortHook _ _) => False
  | .work (.destroy id) => e.phase? id ≠ some .running
  | .work (.clear _) => False
  | _ => True

/-- All that a step leaves to do, above what was to be done anyway. -/
inductive Leaves (e : Engine σ) : Event σ → List (Work σ) → Engine σ → Prop
  | brings {event : Event σ} {todo : List (Work σ)} {e' : Engine σ} (hevent : event.IsOrdinary e)
      (hbrings : e'.Brings todo) : Leaves e event todo e'
  /-- Code goes on after what it asked for. -/
  | code {work next : Work σ} {todo : List (Work σ)} {e' : Engine σ}
      (hevent : (Event.work work).IsOrdinary e) (hcode : next.isCode = true) (hcalm : next.Calm)
      (htells : next.tells? = work.tells?) (hbrings : e'.Brings todo) :
      Leaves e (.work work) (todo ++ [next]) e'
  /-- One service after the other is told. -/
  | round {service : ServiceId} {services : ServiceSet} {notification : Notification}
      {code : Behaviour σ Empty Outcome} {e' : Engine σ} :
      Leaves e (.work (.notify (service :: services) notification))
        [.hook notification code, .notify services notification] e'
  /-- A script is told to stop. -/
  | interrupted {work : Work σ} (next : Option (Work σ)) {e' : Engine σ} (hwork : work.Interrupts)
      (hnext : ∀ w ∈ next, w.Interrupts) : Leaves e (.work work) next.toList e'
  /-- The first half of a destruction. -/
  | ending {id : ThreadId} {e' : Engine σ} (hrunning : e.phase? id = some .running) :
      Leaves e (.work (.destroy id))
        [.notify (e.servicesOf id) (.willDestroy id), .clear id] e'
  /-- The second half of a destruction. -/
  | cleared {id : ThreadId} {aborted : Option Instance} {e' : Engine σ} :
      Leaves e (.work (.clear id)) ((aborted.map Work.abort).toList ++ [.release id]) e'

/-- The code of a service goes on. -/
theorem Leaves.hook {notification : Notification} {code next : Behaviour σ Empty Outcome} :
    Leaves e (.work (.hook notification code)) [.hook notification next] e' := by
  have hevent : (Event.work (.hook notification code) : Event σ).IsOrdinary e := trivial
  have hcalm : (.hook notification next : Work σ).Calm := trivial
  have hnothing : e'.Brings ([] : List (Work σ)) := .nothing
  exact .code hevent rfl hcalm rfl hnothing

/-- Work that can be on top of the stack. -/
def Ready (e : Engine σ) (work : Work σ) : Prop := work.Calm ∨ work.Due e ∨ work.Interrupts

theorem ready_abortHook_iff {context : Context} {code : Behaviour σ Empty Unit} :
    Ready e (.abortHook context code) ↔ code.Quiet := by
  simp [Ready, Work.Calm, Work.Due, Work.Interrupts]

theorem ready_announce_iff {notification : Notification} :
    Ready e (.announce notification) ↔ notification.thread? = none := by
  simp [Ready, Work.Calm, Work.Due, Work.Interrupts]

theorem ready_arrive_iff {arrival : Arrival} :
    Ready e (.arrive id arrival) ↔ arrival = .idle ∨ e.phase? id = some .running := by
  simp [Ready, Work.Calm, Work.Due, Work.Interrupts]

theorem ready_fail_iff {error : ThreadError} :
    Ready e (.fail id error) ↔ e.phase? id = some .running := by
  simp [Ready, Work.Calm, Work.Due, Work.Interrupts]

theorem leaves_of_workedOff {work : Work σ} {todo : List (Work σ)}
    (h : e.WorkedOff plugins work todo e') (hquiet : plugins.AbortQuietly) (hn : e.Numbered)
    (hready : Ready e work) : Leaves e (.work work) todo e' := by
  have nothing : ∀ {work : Work σ} {e' : Engine σ}, (Event.work work).IsOrdinary e →
      Leaves e (.work work) [] e' := fun hevent => .brings hevent .nothing
  cases h with
  | asked hasks hnext =>
    cases hnext with
    | script hcode => exact .code trivial rfl trivial rfl (Engine.brings_answer hn _)
    | hook hcode => exact .code trivial rfl trivial rfl (Engine.brings_answer hn _)
    | abortHook hcode =>
      -- the abort hook would have to ask for something
      cases (Work.asks?_abortHook (ready_abortHook_iff.1 hready)).symm.trans hasks
  | continued hasks hnext =>
    cases hnext with
    | script hcode => exact .brings trivial (.one rfl)
    | hook hcode => exact .hook
    | @abortHook context code next hcode =>
      have hcalm := ready_abortHook_iff.1 hready
      have hwork : (.abortHook context code : Work σ).Interrupts := hcalm
      apply Leaves.interrupted (some (.abortHook context next)) hwork
      rintro _ ⟨⟩
      exact hcalm.next hcode
  | suspended => exact nothing trivial
  | ended hrunning =>
    exact .brings trivial (.told rfl rfl (Engine.look_isRunning_iff.1 hrunning) rfl)
  | endedLate hgone => exact nothing trivial
  | @failed context failure hcurrent =>
    obtain ⟨t, ht, hcurrent⟩ := Engine.exists_of_look hcurrent
    have hid : t.id = context.thread := hn _ _ ht
    have hset := Engine.phase?_setThread_self (s := { t with inFlight := none }) ht hid
    refine .brings trivial (.failed ?_)
    rw [Engine.modifyThread_eq ht, hset, (ThreadState.isCurrent_iff.1 hcurrent).1]
  | failedLate hlost => exact nothing trivial
  | spoken => exact nothing trivial
  | @stopped context done =>
    have hwork : (.abortHook context (.pure done) : Work σ).Interrupts :=
      ready_abortHook_iff.1 hready
    apply Leaves.interrupted none hwork
    simp
  | told => exact nothing trivial
  | called => exact .round
  | announced => exact .brings trivial (.announced (ready_announce_iff.1 hready))
  | @aborted script =>
    have hwork : (.abort script : Work σ).Interrupts := trivial
    apply Leaves.interrupted (some _) hwork
    rintro _ ⟨⟩
    exact hquiet _ _
  | idle => exact nothing trivial
  | exhausted => exact .brings trivial (.one rfl)
  | @fatal id error =>
    have hrunning : e.phase? id = some .running := by simpa using ready_arrive_iff.1 hready
    exact .brings trivial (.failed hrunning)
  | @dispatched id script =>
    have hrunning : e.phase? id = some .running := by simpa using ready_arrive_iff.1 hready
    exact .brings trivial (.told rfl rfl hrunning rfl)
  | spawned => exact nothing trivial
  | completed ht hprep =>
    have hid := hprep.kin_run.id.symm.trans (hn _ _ ht)
    refine .brings trivial (.moved ?_)
    rw [Engine.phase?_setThread_self ht hid, ← hprep.kin_run.phase, hprep.phase.1]
  | completedLate hlost => exact nothing trivial
  | reported => exact .brings trivial (.told rfl rfl (ready_fail_iff.1 hready) rfl)
  | destroying hrunning => exact .ending (Engine.look_isRunning_iff.1 hrunning)
  | destroyedLate hgone =>
    refine nothing ?_
    intro hphase
    cases (Engine.look_isRunning_iff.2 hphase).symm.trans hgone
  | cleared => exact .cleared
  | released => exact nothing trivial
  | started => exact nothing trivial
  | reopened => exact nothing trivial

/-- What a step leaves to do comes above what was to be done anyway. -/
theorem Step.leaves (h : Step plugins m event m') (hquiet : plugins.AbortQuietly)
    (hn : m.engine.Numbered) (hready : ∀ work ∈ m.stack.head?, Ready m.engine work) :
    ∃ todo, m'.stack = todo ++ m.stack.tail ∧ Leaves m.engine event todo m'.engine := by
  cases h with
  | @work e work rest =>
    have hworked := Engine.workedOff_perform plugins e work
    exact ⟨_, rfl, leaves_of_workedOff hworked hquiet hn (hready _ rfl)⟩
  | @task e before after task hqueue =>
    refine ⟨_, (List.append_nil _).symm, .brings trivial ?_⟩
    cases task with
    | start other =>
      rcases take_start_cases plugins { e with queue := before ++ after } other with
        ⟨-, htake⟩ | ⟨t, ht, ⟨-, -, htake⟩ | ⟨p, hprep, htake⟩⟩
      · rw [htake]
        exact .nothing
      · rw [htake]
        exact .late
      · have hid := hprep.kin_run.id.symm.trans (hn _ _ ht)
        rw [htake]
        apply Engine.Brings.moved
        rw [Engine.phase?_setThread_self ht hid, ← hprep.kin_run.phase, hprep.phase.1]
    | begin script => exact .one rfl
    | resume context rest => exact .one rfl
  | @ask e query => exact ⟨_, rfl, .brings trivial (Engine.brings_answer hn query)⟩
  | permits tag count => exact ⟨[], rfl, .brings trivial .nothing⟩
  | letGo => exact ⟨[], rfl, .brings trivial .nothing⟩
  | outside host log => exact ⟨[], rfl, .brings trivial .nothing⟩

/-! ## Who is enrolled -/

/-- How a step changes the roll. -/
inductive Enrols (e : Engine σ) (event : Event σ) (e' : Engine σ) : Prop
  | same (hevent : event.releases? = none) (hroll : e'.roll = e.roll)
  | created {overrides : Option ThreadConfig}
      (hasks : event.asks? = some (.core (.createThread overrides)))
      (hreply : (e.answer (.core (.createThread overrides))).reply = some (.ok e.threads.length))
      (hroll : e'.roll = (e.active ++ [e.threads.length], e.threads.length + 1))
  | released {id : ThreadId} (hevent : event = .work (.release id))
      (hroll : e'.roll = (e.active.filter (· ≠ id), e.threads.length))

theorem Event.releases?_of_asks {query : Query} (hasks : event.asks? = some query) :
    event.releases? = none := by
  cases event with
  | work item =>
    cases item with
    | release id => cases hasks
    | _ => rfl
  | _ => rfl

theorem enrols_answer {query : Query} (hasks : event.asks? = some query) :
    Enrols e event (e.answer query).engine := by
  rcases Engine.roll_answer (e := e) query with hroll | ⟨overrides, rfl, hreply, hroll⟩
  · exact .same (Event.releases?_of_asks hasks) hroll
  · exact .created hasks hreply hroll

theorem enrols_of_workedOff {work : Work σ} {todo : List (Work σ)}
    (h : e.WorkedOff plugins work todo e') : Enrols e (.work work) e' := by
  cases h with
  | asked hasks hnext => exact enrols_answer hasks
  | continued hasks hnext =>
    refine .same ?_ rfl
    cases hnext <;> rfl
  | failed hcurrent => exact .same rfl (Engine.roll_modifyThread _)
  | aborted => exact .same rfl (Engine.roll_cancel _)
  | completed ht hprep => exact .same rfl (Engine.roll_setThread _)
  | destroying hrunning => exact .same rfl (Engine.roll_modifyThread _)
  | cleared => exact .same rfl ((Engine.roll_modifyThread _).trans Engine.roll_dropStart)
  | @released id =>
    refine .released rfl ?_
    have hended : (e.modifyThread id fun t => { t with ended := true }).roll = e.roll :=
      Engine.roll_modifyThread _
    have hactive := congrArg Prod.fst hended
    have hcount := congrArg Prod.snd hended
    simp only [Engine.roll] at hactive hcount
    simp [Engine.release, Engine.wakeCancelled, Engine.roll, hactive, hcount]
  | started => exact .same rfl (Engine.roll_modifyThread _)
  | _ => exact .same rfl rfl

theorem Step.enrols (h : Step plugins m event m') : Enrols m.engine event m'.engine := by
  cases h with
  | work => exact enrols_of_workedOff (Engine.workedOff_perform plugins _ _)
  | @task e before after task hqueue =>
    refine .same rfl ?_
    cases task with
    | start id =>
      simp only [take]
      split
      · rfl
      · exact Engine.roll_setThread _
    | begin script => rfl
    | resume context rest => rfl
  | ask query => exact enrols_answer rfl
  | permits tag count => exact .same rfl (Engine.roll_handPermits _ _)
  | letGo => exact .same rfl rfl
  | outside host log => exact .same rfl rfl

end Machine
end SentenceEngine
