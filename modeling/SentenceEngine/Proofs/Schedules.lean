import SentenceEngine.Proofs.Shares

/-!
# Schedules

What is ready can be run in many orders. A schedule works off the stack and then takes up any task
of which no earlier task of the same thread is ready. Where scripts are solitary and services ask
for nothing, all schedules come to the same for each thread: a step of another thread leaves the
share of the thread as it is, and its own steps are determined by its share.

* `Machine.Proceeds`, `Machine.Schedule`: the schedules from a state.
* `Machine.course`, `Machine.deeds`: the steps of one thread, and what can be seen of them.
* `Machine.Proceeds.share_other`, `Machine.Proceeds.congr`: the two kinds of steps.
* `Machine.Schedule.lockstep`: at the same length of its course a thread is in the same state.
* `Machine.Run.concord`: two schedules, as one thread sees them.
-/

namespace SentenceEngine

variable {σ : Type}

namespace Machine

variable {keeper : String → Option ThreadId} {plugins : Plugins σ} {start m m' m₁ m₂ : Machine σ}
  {event event₁ event₂ : Event σ} {id : ThreadId} {stages one two : List (Stage σ)}

/-! ## Schedules -/

/-- One step of a schedule. Each thread's own tasks are taken up in the order in which they were
made. -/
inductive Proceeds (plugins : Plugins σ) : Machine σ → Event σ → Machine σ → Prop
  /-- The item on top of the stack is done. -/
  | work {e : Engine σ} {work : Work σ} {rest : List (Work σ)} :
      Proceeds plugins ⟨e, work :: rest⟩ (.work work)
        ⟨(perform plugins e work).2, (perform plugins e work).1 ++ rest⟩
  /-- A task is taken up before earlier tasks of other threads, but not of its own. -/
  | task {e : Engine σ} {before after : List (Task σ)} {task : Task σ}
      (hqueue : e.queue = before ++ task :: after)
      (hturn : ∀ earlier ∈ before, earlier.owner ≠ task.owner) :
      Proceeds plugins ⟨e, []⟩ (.task task) (take plugins { e with queue := before ++ after } task)

/-- The schedules of what is ready in a state, with their steps, the first step first. -/
inductive Schedule (plugins : Plugins σ) (start : Machine σ) : List (Stage σ) → Machine σ → Prop
  | start : Schedule plugins start [] start
  | step {stages : List (Stage σ)} {m m' : Machine σ} {event : Event σ}
      (hschedule : Schedule plugins start stages m) (hstep : Proceeds plugins m event m') :
      Schedule plugins start (stages ++ [⟨m, event, m'⟩]) m'

theorem Proceeds.step (h : Proceeds plugins m event m') : Step plugins m event m' := by
  cases h with
  | work => exact .work
  | task hqueue hturn => exact .task hqueue

/-- Running the tasks in their order is a schedule. -/
theorem Schedule.runTasks (h : Schedule plugins start stages m) (fuel : Nat) :
    ∃ more, Schedule plugins start (stages ++ more) (m.runTasks plugins fuel) := by
  induction fuel generalizing m stages with
  | zero => exact ⟨[], by simpa [Machine.runTasks] using h⟩
  | succ fuel ih =>
    obtain ⟨e, stack⟩ := m
    cases stack with
    | cons work rest =>
      obtain ⟨more, hmore⟩ := ih (h.step .work)
      exact ⟨_ :: more, by simpa [Machine.runTasks, step?] using hmore⟩
    | nil =>
      rcases hqueue : e.queue with _ | ⟨task, queue⟩
      · exact ⟨[], by simpa [Machine.runTasks, step?, nextTask?, hqueue] using h⟩
      · -- the first task of all is in turn: there is none before it
        have hfirst : e.queue = [] ++ task :: queue := hqueue
        obtain ⟨more, hmore⟩ := ih (h.step (.task hfirst (by simp)))
        exact ⟨_ :: more, by simpa [Machine.runTasks, step?, nextTask?, hqueue] using hmore⟩

/-! ## The course of a thread -/

/-- The thread that a step is about. -/
def Event.subject? : Event σ → Option ThreadId
  | .work item => item.subject?
  | .task taken => some taken.owner
  | _ => none

/-- A step of a thread, with the thread before it and after it. -/
structure Moment (σ : Type) where
  event : Event σ
  before : Option ThreadState
  after : Option ThreadState

/-- What a step is for a thread; nothing if it is not about the thread. -/
def Stage.moment? (id : ThreadId) (s : Stage σ) : Option (Moment σ) :=
  if s.event.subject? = some id then
    some ⟨s.event, s.before.engine.thread? id, s.after.engine.thread? id⟩
  else none

/-- The steps of a thread, in order. -/
def course (id : ThreadId) (stages : List (Stage σ)) : List (Moment σ) :=
  stages.filterMap (·.moment? id)

/-- What can be seen of a thread from outside. -/
inductive Deed where
  /-- A service is called. -/
  | told (service : ServiceId) (notification : Notification)
  /-- A script begins. -/
  | begun (context : Context)
  /-- A script ends. -/
  | ended (context : Context) (outcome : Outcome)

/-- What can be seen of a step. -/
def Event.deed? : Event σ → Option Deed
  | .work (.notify (service :: _) notification) => some (.told service notification)
  | .task (.begin script) => some (.begun script.context)
  | .work (.script context (.pure outcome)) => some (.ended context outcome)
  | _ => none

/-- What can be seen of a thread, in order. -/
def deeds (id : ThreadId) (stages : List (Stage σ)) : List Deed :=
  (course id stages).filterMap (·.event.deed?)

theorem course_snoc_own (h : event.subject? = some id) :
    course id (stages ++ [⟨m, event, m'⟩]) =
      course id stages ++ [⟨event, m.engine.thread? id, m'.engine.thread? id⟩] := by
  simp [course, Stage.moment?, h]

theorem course_snoc_other (h : event.subject? ≠ some id) :
    course id (stages ++ [⟨m, event, m'⟩]) = course id stages := by
  simp [course, Stage.moment?, h]

/-! ## The share of a thread -/

/-- The work on the stack that is about a thread. -/
def workOf (id : ThreadId) (m : Machine σ) : List (Work σ) :=
  m.stack.filter (·.subject? == some id)

/-- What a thread has of the engine and of the stack. -/
def share (keeper : String → Option ThreadId) (id : ThreadId) (m : Machine σ) :
    Share σ × List (Work σ) :=
  (m.engine.share keeper id, m.workOf id)

/-- Nothing is left to do for a thread; its scripts may wait. -/
def Idle (id : ThreadId) (m : Machine σ) : Prop := m.engine.tasksOf id = [] ∧ m.workOf id = []

/-- What holds in every state of a schedule. -/
structure Sheltered (keeper : String → Option ThreadId) (m : Machine σ) : Prop where
  invariant : Invariant m
  secluded : m.Secluded keeper

theorem Proceeds.sheltered (h : Proceeds plugins m event m') (hplugins : plugins.Solitary keeper)
    (hserve : plugins.ServeQuietly) (hm : m.Sheltered keeper) : m'.Sheltered keeper where
  invariant := h.step.invariant hm.invariant
  secluded := h.step.secluded hplugins hserve hm.invariant hm.secluded

theorem Schedule.sheltered (h : Schedule plugins start stages m)
    (hplugins : plugins.Solitary keeper) (hserve : plugins.ServeQuietly)
    (hstart : start.Sheltered keeper) : m.Sheltered keeper := by
  induction h with
  | start => exact hstart
  | step hschedule hstep ih => exact hstep.sheltered hplugins hserve ih

/-- The own tasks of a thread are the same when a task of another thread is taken away. -/
theorem share_dequeue_other {e : Engine σ} {before after : List (Task σ)} {task : Task σ}
    (hqueue : e.queue = before ++ task :: after) (hne : task.owner ≠ id) :
    Engine.share keeper id { e with queue := before ++ after } = e.share keeper id := by
  simp [Engine.share, Engine.tasksOf, Engine.thread?, hqueue, List.filter_append, hne]

/-- A task that is taken up in its turn is the first one of its thread. -/
theorem tasksOf_of_turn {e : Engine σ} {before after : List (Task σ)} {task : Task σ}
    (hqueue : e.queue = before ++ task :: after)
    (hturn : ∀ earlier ∈ before, earlier.owner ≠ task.owner) :
    e.tasksOf task.owner =
      task :: Engine.tasksOf { e with queue := before ++ after } task.owner := by
  have hbefore : before.filter (·.owner == task.owner) = [] := by
    rw [List.filter_eq_nil_iff]
    intro earlier hearlier
    simpa using hturn earlier hearlier
  simp [Engine.tasksOf, hqueue, List.filter_append, hbefore]

theorem workOf_append (e : Engine σ) (todo rest : List (Work σ)) :
    workOf id ⟨e, todo ++ rest⟩ = todo.filter (·.subject? == some id) ++ workOf id ⟨e, rest⟩ := by
  simp [workOf, List.filter_append]

theorem workOf_cons {work : Work σ} (h : work.subject? = some id) (e : Engine σ)
    (rest : List (Work σ)) : workOf id ⟨e, work :: rest⟩ = work :: workOf id ⟨e, rest⟩ :=
  List.filter_cons_of_pos (by simpa using h)

/-- A step that is not about a thread leaves the thread as it is, with all that it has. -/
theorem Proceeds.share_other (h : Proceeds plugins m event m')
    (hplugins : plugins.Solitary keeper) (hserve : plugins.ServeQuietly)
    (hm : m.Sheltered keeper) (hsubject : event.subject? ≠ some id) :
    m'.share keeper id = m.share keeper id := by
  obtain ⟨hm, hs⟩ := hm
  cases h with
  | @work e work rest =>
    have hsubject : work.subject? ≠ some id := hsubject
    have hwork := hs.stack work List.mem_cons_self
    have hworked := Engine.workedOff_perform plugins e work
    have hconfined := hworked.confined hplugins hserve hm.owned hs.engine hwork
    have hengine : (perform plugins e work).2.share keeper id = e.share keeper id :=
      hworked.share_other hm.owned hwork hsubject
    -- what the item leaves is for its own thread or for none
    have htodo : (perform plugins e work).1.filter (·.subject? == some id) = [] := by
      rw [List.filter_eq_nil_iff]
      intro next hnext
      rcases (hconfined.follows next hnext).subject with hnone | hsame
      · simp [hnone]
      · rw [hsame]
        simpa using hsubject
    have hrest : workOf id ⟨e, work :: rest⟩ = rest.filter (·.subject? == some id) :=
      List.filter_cons_of_neg (by simpa using hsubject)
    simp only [share, hengine, hrest, workOf_append, htodo, List.nil_append]
    rfl
  | @task e before after task hqueue hturn =>
    have hne : task.owner ≠ id := by simpa [Event.subject?] using hsubject
    have ho : Engine.Owned { e with queue := before ++ after } := hm.owned
    have hengine : (take plugins { e with queue := before ++ after } task).engine.share keeper id =
        e.share keeper id := (share_take_other ho hne).trans (share_dequeue_other hqueue hne)
    have hdropped : Engine.Secluded keeper { e with queue := before ++ after } := by
      refine hs.engine.mono ?_ (List.Sublist.refl _)
      rw [hqueue]
      exact (List.sublist_cons_self task after).append_left before
    -- what comes of the task is for the thread of the task
    have hsubjects := (confined_take hplugins ho hdropped
      (hs.engine.queue task (by simp [hqueue]))).2
    have hstack : workOf id (take plugins { e with queue := before ++ after } task) = [] := by
      rw [workOf, List.filter_eq_nil_iff]
      intro work hwork
      rw [hsubjects work hwork]
      simpa using hne
    simp only [share, hengine, hstack]
    rfl

/-- Two machines that are the same for a thread take the same step of it, and are the same for it
afterwards. -/
theorem Proceeds.congr (h₁ : Proceeds plugins m₁ event₁ m) (h₂ : Proceeds plugins m₂ event₂ m')
    (hm₁ : m₁.Sheltered keeper) (hm₂ : m₂.Sheltered keeper)
    (hsubject₁ : event₁.subject? = some id) (hsubject₂ : event₂.subject? = some id)
    (hshare : m₁.share keeper id = m₂.share keeper id) :
    event₁ = event₂ ∧ m.share keeper id = m'.share keeper id := by
  obtain ⟨hm₁, hs₁⟩ := hm₁
  obtain ⟨hm₂, hs₂⟩ := hm₂
  have hengine := congrArg Prod.fst hshare
  have hwork := congrArg Prod.snd hshare
  cases h₁ with
  | @work e₁ work₁ rest₁ =>
    -- the item on top is the first one of the thread, so the other machine has it on top, too
    have hhead₁ := workOf_cons hsubject₁ e₁ rest₁
    cases h₂ with
    | @work e₂ work₂ rest₂ =>
      have hheads := hhead₁.symm.trans (hwork.trans (workOf_cons hsubject₂ e₂ rest₂))
      obtain ⟨rfl, hrest⟩ := List.cons.inj hheads
      have hsame : Engine.SameFor keeper id (perform plugins e₁ work₁) (perform plugins e₂ work₁) :=
        Engine.perform_congr hm₁.numbered hm₂.numbered (hs₁.stack _ List.mem_cons_self) hsubject₁
          hengine
      refine ⟨rfl, Prod.ext hsame.share ?_⟩
      have hrest' : workOf id ⟨(perform plugins e₁ work₁).2, rest₁⟩ =
          workOf id ⟨(perform plugins e₂ work₁).2, rest₂⟩ := hrest
      simp only [share, workOf_append, hsame.todo, hrest']
    | task hqueue hturn => cases hhead₁.symm.trans hwork
  | @task e₁ before₁ after₁ task₁ hqueue₁ hturn₁ =>
    cases h₂ with
    | @work e₂ work₂ rest₂ => cases hwork.trans (workOf_cons hsubject₂ e₂ rest₂)
    | @task e₂ before₂ after₂ task₂ hqueue₂ hturn₂ =>
      have howner₁ : task₁.owner = id := Option.some.inj hsubject₁
      have howner₂ : task₂.owner = id := Option.some.inj hsubject₂
      -- both take up the first task of the thread
      have hfirst₁ := tasksOf_of_turn hqueue₁ hturn₁
      have hfirst₂ := tasksOf_of_turn hqueue₂ hturn₂
      rw [howner₁] at hfirst₁
      rw [howner₂] at hfirst₂
      have htasks : e₁.tasksOf id = e₂.tasksOf id := congrArg Share.tasks hengine
      obtain ⟨rfl, hrest⟩ := List.cons.inj (hfirst₁.symm.trans (htasks.trans hfirst₂))
      have hdropped : Engine.share keeper id { e₁ with queue := before₁ ++ after₁ } =
          Engine.share keeper id { e₂ with queue := before₂ ++ after₂ } := by
        have hsame : e₁.share keeper id = e₂.share keeper id := hengine
        rw [Engine.share_queue e₁ (before₁ ++ after₁), Engine.share_queue e₂ (before₂ ++ after₂),
          hsame, hrest]
      obtain ⟨hstack, htaken⟩ := take_congr plugins howner₁ hdropped
      refine ⟨rfl, ?_⟩
      rw [share, share, htaken, workOf, workOf, hstack]

/-- Where a thread can take a step, something is left to do for it. -/
theorem Proceeds.not_idle (h : Proceeds plugins m event m') (hsubject : event.subject? = some id) :
    ¬ m.Idle id := by
  rintro ⟨htasks, hwork⟩
  cases h with
  | @work e work rest =>
    have hnone := List.filter_eq_nil_iff.1 hwork work List.mem_cons_self
    simp only [beq_iff_eq] at hnone
    exact hnone hsubject
  | @task e before after task hqueue hturn =>
    have hfirst := tasksOf_of_turn hqueue hturn
    rw [Option.some.inj hsubject] at hfirst
    cases htasks.symm.trans hfirst

theorem idle_of_share (h : m₁.share keeper id = m₂.share keeper id) (hidle : m₁.Idle id) :
    m₂.Idle id := by
  have htasks : m₁.engine.tasksOf id = m₂.engine.tasksOf id :=
    congrArg Share.tasks (congrArg Prod.fst h)
  have hwork : m₁.workOf id = m₂.workOf id := congrArg Prod.snd h
  exact ⟨htasks.symm.trans hidle.1, hwork.symm.trans hidle.2⟩

/-! ## Two schedules -/

/-- Schedules in which a thread has taken equally many steps have taken it the same way to the same
state. The induction is on both schedules at once: steps of others are passed over on either side,
and the steps of the thread are taken in pairs. -/
theorem Schedule.lockstep (hplugins : plugins.Solitary keeper) (hserve : plugins.ServeQuietly)
    (hstart : start.Sheltered keeper) (h₁ : Schedule plugins start one m₁)
    (h₂ : Schedule plugins start two m₂)
    (hlength : (course id one).length = (course id two).length) :
    course id one = course id two ∧ m₁.share keeper id = m₂.share keeper id := by
  induction h₁ generalizing two m₂ with
  | start =>
    -- the other schedule has only steps of others
    induction h₂ with
    | start => exact ⟨rfl, rfl⟩
    | @step stages m m' event hschedule hstep ih =>
      by_cases hsubject : event.subject? = some id
      · rw [course_snoc_own hsubject] at hlength
        simp [course] at hlength
      · rw [course_snoc_other hsubject] at hlength ⊢
        have hm := hschedule.sheltered hplugins hserve hstart
        rw [hstep.share_other hplugins hserve hm hsubject]
        exact ih hlength
  | @step stages₁ n₁ n₁' event₁ hschedule₁ hstep₁ ih₁ =>
    have hn₁ := hschedule₁.sheltered hplugins hserve hstart
    by_cases hsubject₁ : event₁.subject? = some id
    · -- the other schedule has a last step of the thread, too
      induction h₂ with
      | start =>
        rw [course_snoc_own hsubject₁] at hlength
        simp [course] at hlength
      | @step stages₂ n₂ n₂' event₂ hschedule₂ hstep₂ ih₂ =>
        have hn₂ := hschedule₂.sheltered hplugins hserve hstart
        by_cases hsubject₂ : event₂.subject? = some id
        · rw [course_snoc_own hsubject₁, course_snoc_own hsubject₂] at hlength ⊢
          simp only [List.length_append, List.length_singleton, Nat.add_right_cancel_iff] at hlength
          obtain ⟨hcourse, hbefore⟩ := ih₁ hschedule₂ hlength
          obtain ⟨rfl, hafter⟩ := hstep₁.congr hstep₂ hn₁ hn₂ hsubject₁ hsubject₂ hbefore
          have hthread : n₁.engine.thread? id = n₂.engine.thread? id :=
            congrArg Share.thread (congrArg Prod.fst hbefore)
          have hthread' : n₁'.engine.thread? id = n₂'.engine.thread? id :=
            congrArg Share.thread (congrArg Prod.fst hafter)
          exact ⟨by rw [hcourse, hthread, hthread'], hafter⟩
        · rw [course_snoc_other hsubject₂] at hlength ⊢
          rw [hstep₂.share_other hplugins hserve hn₂ hsubject₂]
          exact ih₂ hlength
    · rw [course_snoc_other hsubject₁] at hlength ⊢
      rw [hstep₁.share_other hplugins hserve hn₁ hsubject₁]
      exact ih₁ h₂ hlength

/-- Every step of a thread in a schedule continues a shorter schedule. -/
theorem Schedule.before_step (h : Schedule plugins start stages m) {count : Nat}
    (hcount : count < (course id stages).length) :
    ∃ earlier m' event m'', Schedule plugins start earlier m' ∧ Proceeds plugins m' event m'' ∧
      event.subject? = some id ∧ (course id earlier).length = count ∧
      course id earlier <+: course id stages := by
  induction h with
  | start => simp [course] at hcount
  | @step stages m m' event hschedule hstep ih =>
    by_cases hsubject : event.subject? = some id
    · rw [course_snoc_own hsubject] at hcount ⊢
      by_cases hearlier : count < (course id stages).length
      · obtain ⟨earlier, n, next, n', hrun, hnext, hown, hlength, hinitial⟩ := ih hearlier
        exact ⟨earlier, n, next, n', hrun, hnext, hown, hlength,
          hinitial.trans (List.prefix_append _ _)⟩
      · have hlength : (course id stages).length = count := by
          simp only [List.length_append, List.length_singleton] at hcount
          omega
        exact ⟨stages, m, event, m', hschedule, hstep, hsubject, hlength,
          List.prefix_append _ _⟩
    · rw [course_snoc_other hsubject] at hcount ⊢
      exact ih hcount

/-- What a thread has gone through in one schedule begins what it has gone through in another one in
which it has come at least as far. -/
theorem Schedule.course_prefix (hplugins : plugins.Solitary keeper) (hserve : plugins.ServeQuietly)
    (hstart : start.Sheltered keeper) (h₁ : Schedule plugins start one m₁)
    (h₂ : Schedule plugins start two m₂)
    (hlength : (course id one).length ≤ (course id two).length) :
    course id one <+: course id two := by
  rcases Nat.lt_or_eq_of_le hlength with hlt | heq
  · obtain ⟨earlier, n, -, -, hearlier, -, -, hcount, hinitial⟩ := h₂.before_step hlt
    rw [(h₁.lockstep hplugins hserve hstart hearlier hcount.symm).1]
    exact hinitial
  · have hsame := (h₁.lockstep hplugins hserve hstart h₂ heq).1
    exact ⟨[], by rw [List.append_nil, hsame]⟩

/-- Where nothing is left to do for a thread, no schedule takes it further. -/
theorem Schedule.length_le_of_idle (hplugins : plugins.Solitary keeper)
    (hserve : plugins.ServeQuietly) (hstart : start.Sheltered keeper)
    (h₁ : Schedule plugins start one m₁) (h₂ : Schedule plugins start two m₂)
    (hidle : m₁.Idle id) : (course id two).length ≤ (course id one).length := by
  rcases Nat.lt_or_ge (course id one).length (course id two).length with hlt | hge
  · -- the other schedule came by a state with the same share, and went on from there
    obtain ⟨earlier, n, event, n', hearlier, hstep, hsubject, hcount, -⟩ := h₂.before_step hlt
    have hshare := (h₁.lockstep hplugins hserve hstart hearlier hcount.symm).2
    exact absurd (idle_of_share hshare hidle) (hstep.not_idle hsubject)
  · exact hge

/-- Two schedules, as one thread sees them. -/
structure Concord (keeper : String → Option ThreadId) (id : ThreadId) (one two : List (Stage σ))
    (m₁ m₂ : Machine σ) : Prop where
  /-- The thread goes through the same steps and states, as far as it gets in either, -/
  together : course id one <+: course id two ∨ course id two <+: course id one
  /-- and once nothing is left to do for it in one, it has been through all that it goes through in
  the other. -/
  finished : m₁.Idle id → course id two <+: course id one
  finished' : m₂.Idle id → course id one <+: course id two
  /-- Where it has come equally far, it has the same of the engine and of the stack. -/
  same : (course id one).length = (course id two).length →
    m₁.share keeper id = m₂.share keeper id
  /-- When nothing is left to do for it in either, the same was seen of it, -/
  deeds : m₁.Idle id → m₂.Idle id → deeds id one = deeds id two
  /-- and it is the same thread, with its phase, its frames and its variables. -/
  thread : m₁.Idle id → m₂.Idle id → m₁.engine.thread? id = m₂.engine.thread? id
  /-- No step of another thread, a failure or whatever else, changes the thread, its tasks, its
  scripts that wait or its work. -/
  others : ∀ s ∈ one, s.event.subject? ≠ some id →
    s.after.share keeper id = s.before.share keeper id

theorem Schedule.others (h : Schedule plugins start stages m) (hplugins : plugins.Solitary keeper)
    (hserve : plugins.ServeQuietly) (hstart : start.Sheltered keeper) :
    ∀ s ∈ stages, s.event.subject? ≠ some id →
      s.after.share keeper id = s.before.share keeper id := by
  induction h with
  | start => simp
  | step hschedule hstep ih =>
    intro s hs hsubject
    rcases List.mem_append.1 hs with hmem | hmem
    · exact ih s hmem hsubject
    · cases List.mem_singleton.1 hmem
      exact hstep.share_other hplugins hserve (hschedule.sheltered hplugins hserve hstart) hsubject

/-- Where scripts keep to their own threads and services ask for nothing, each thread goes the same
way in whatever order the threads take turns. -/
theorem Run.concord {host : σ} {config : CoreConfig}
    (hrun : Run plugins (opened host config) stages start)
    (hplugins : plugins.Solitary keeper) (hserve : plugins.ServeQuietly)
    (h₁ : Schedule plugins start one m₁) (h₂ : Schedule plugins start two m₂) (id : ThreadId) :
    Concord keeper id one two m₁ m₂ := by
  have hstart : start.Sheltered keeper := ⟨hrun.invariant, hrun.secluded hplugins hserve⟩
  have hfinished : m₁.Idle id → course id two <+: course id one := by
    intro hidle
    have hle := h₁.length_le_of_idle hplugins hserve hstart h₂ hidle
    exact h₂.course_prefix hplugins hserve hstart h₁ hle
  have hfinished' : m₂.Idle id → course id one <+: course id two := by
    intro hidle
    have hle := h₂.length_le_of_idle hplugins hserve hstart h₁ hidle
    exact h₁.course_prefix hplugins hserve hstart h₂ hle
  -- each course begins the other, so they are the same
  have hends : m₁.Idle id → m₂.Idle id →
      course id one = course id two ∧ m₁.share keeper id = m₂.share keeper id := by
    intro hidle₁ hidle₂
    have hlength := Nat.le_antisymm (hfinished' hidle₂).length_le (hfinished hidle₁).length_le
    exact h₁.lockstep hplugins hserve hstart h₂ hlength
  constructor
  · rcases Nat.le_total (course id one).length (course id two).length with hle | hle
    · exact .inl (h₁.course_prefix hplugins hserve hstart h₂ hle)
    · exact .inr (h₂.course_prefix hplugins hserve hstart h₁ hle)
  · exact hfinished
  · exact hfinished'
  · intro hlength
    exact (h₁.lockstep hplugins hserve hstart h₂ hlength).2
  · intro hidle₁ hidle₂
    rw [Machine.deeds, Machine.deeds, (hends hidle₁ hidle₂).1]
  · intro hidle₁ hidle₂
    exact congrArg Share.thread (congrArg Prod.fst (hends hidle₁ hidle₂).2)
  · exact h₁.others hplugins hserve hstart

theorem idle_of_done (hstack : m.stack = []) (hqueue : m.engine.queue = []) (id : ThreadId) :
    m.Idle id := by
  constructor
  · simp [Engine.tasksOf, hqueue]
  · simp [workOf, hstack]

/-! ## Two threads -/

/-- A script that leaves a mark and then fails, except in the first thread, where it waits to be
told to stop. -/
def rivalPlugins : Plugins Unit where
  script _ := {
    execute context := .ask (.setVar context.thread "seen" (.bool true)) fun _ =>
      if context.thread = 0 then .wait .cancellation (.pure (.ok ()))
      else .pure (.error (.ofMessage "no"))
    abort _ := .pure () }
  service _ _ := .pure (.ok ())

/-- An engine with one service and two threads, whose first runs are still to come. -/
def rivals : Machine Unit :=
  let scripted :=
    ((opened () sampleConfig).ask (.core (.registerScript "a" ⟨"a", some [], "a"⟩))).2
  let served := (scripted.ask (.core (.registerService 0))).2
  let first := (served.ask (.core (.createThread none))).2.drain rivalPlugins 10
  (first.ask (.core (.createThread none))).2.drain rivalPlugins 10

/-- The two threads when all is done, after the first run of one of them came before that of the
other. -/
def rivalsEnd (first second : ThreadId) : Machine Unit :=
  (take rivalPlugins { rivals.engine with queue := [.start second] } (.start first)).runTasks
    rivalPlugins 60

/-- The second thread fails after the first one has begun, or before; neither can tell. -/
theorem Run.concord_rivals :
    ∃ history one two, Run rivalPlugins (opened () sampleConfig) history rivals ∧
      rivalPlugins.Solitary (fun _ => none) ∧ rivalPlugins.ServeQuietly ∧
      Schedule rivalPlugins rivals one (rivalsEnd 0 1) ∧
      Schedule rivalPlugins rivals two (rivalsEnd 1 0) ∧
      one.head?.bind (·.event.subject?) = some 0 ∧ two.head?.bind (·.event.subject?) = some 1 ∧
      (∀ id, deeds id one = deeds id two ∧
        (rivalsEnd 0 1).engine.thread? id = (rivalsEnd 1 0).engine.thread? id) ∧
      (rivalsEnd 0 1).engine.phase? 0 = some .running ∧
      (rivalsEnd 0 1).engine.phase? 1 = some .destroyed := by
  have hsolitary : rivalPlugins.Solitary (fun _ => none) := by
    intro script context
    refine ⟨.ask (.inl rfl) ?_, .pure ()⟩
    intro reply
    show Behaviour.Solitary _ _ (if context.thread = 0 then _ else _)
    split
    · exact .wait trivial (.pure _)
    · exact .pure _
  have hserve : rivalPlugins.ServeQuietly := fun _ _ => .pure _
  have hscripted := (.start : Run rivalPlugins (opened () sampleConfig) [] _).step
    (.ask (.core (.registerScript "a" ⟨"a", some [], "a"⟩)))
  have hserved := hscripted.step (.ask (.core (.registerService 0)))
  obtain ⟨more, hfirst⟩ := (hserved.step (.ask (.core (.createThread none)))).drain 10
  obtain ⟨last, hrun⟩ := (hfirst.step (.ask (.core (.createThread none)))).drain 10
  -- either first run can be taken up next
  have hqueue₁ : rivals.engine.queue = [] ++ .start 0 :: [.start 1] := rfl
  have hqueue₂ : rivals.engine.queue = [.start 0] ++ .start 1 :: [] := rfl
  have hstep₁ : Proceeds rivalPlugins rivals (.task (.start 0)) _ := .task hqueue₁ (by simp)
  have hstep₂ : Proceeds rivalPlugins rivals (.task (.start 1)) _ :=
    .task hqueue₂ (by simp [Task.owner])
  obtain ⟨one, h₁⟩ := (Schedule.start.step hstep₁).runTasks 60
  obtain ⟨two, h₂⟩ := (Schedule.start.step hstep₂).runTasks 60
  refine ⟨_, _, _, hrun, hsolitary, hserve, h₁, h₂, rfl, rfl, ?_, rfl, rfl⟩
  intro id
  have hconcord := Run.concord hrun hsolitary hserve h₁ h₂ id
  have hidle₁ : (rivalsEnd 0 1).Idle id := idle_of_done rfl rfl id
  have hidle₂ : (rivalsEnd 1 0).Idle id := idle_of_done rfl rfl id
  exact ⟨hconcord.deeds hidle₁ hidle₂, hconcord.thread hidle₁ hidle₂⟩

end Machine
end SentenceEngine
