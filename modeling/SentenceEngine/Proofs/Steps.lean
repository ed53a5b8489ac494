import SentenceEngine.Proofs.Items

/-!
# Runs of the machine

The steps that the machine can take, with any task taken up next and with requests from outside
whenever no work is left, and the runs made of them. For a single thread a step comes down to one
move, and the stack before and after it says where the move comes from and what it leaves.

* `Machine.Step`, `Machine.Run`: one step, and a run from an empty engine with its history.
* `Machine.record`, `Machine.play`: runs of the machine itself, with their history.
* `Machine.Affects`: what a step does to one thread.
* `Machine.Invariant`: what holds in every state of a run.

**Deliberate scope limits** (documented, not hidden): tasks are taken up, and outside callers act,
on an empty stack only. This is one event loop: whatever a task, a request or the code of a service
brings about is done before the next task or caller comes, and calls back into the engine are done
in the midst of it. All orders of tasks and callers are covered, also those in which a task overtakes
others; two workers that act on one engine at the same time, so that one of them finds it between
two items of work of the other, are not.
-/

namespace SentenceEngine

namespace Machine

/-! ## Steps -/

/-- What a step is about. -/
inductive Event (σ : Type) where
  /-- The item on top of the stack. -/
  | work (work : Work σ)
  /-- A task that is taken up. -/
  | task (task : Task σ)
  /-- A request of an outside caller. -/
  | ask (query : Query)
  | permits (tag : String) (count : Nat)
  | letGo
  | outside

namespace Event

variable {σ : Type}

/-- The request that is served. -/
def asks? : Event σ → Option Query
  | .work item => item.asks?
  | .ask query => some query
  | _ => none

/-- The move that a thread makes. -/
def moveOf (id : ThreadId) (t : ThreadState) : Event σ → Move
  | .work item => item.moveOf id t
  | .task (.start other) => if other = id ∧ t.isFresh then .resumed else .still
  | .ask query => query.moveOf id t
  | _ => .still

theorem moveOf_of_asks {event : Event σ} {query : Query} (h : event.asks? = some query)
    (id : ThreadId) (t : ThreadState) : event.moveOf id t = query.moveOf id t := by
  cases event with
  | work item => exact Work.moveOf_of_asks h id t
  | ask _ =>
    cases h
    rfl
  | _ => cases h

end Event

variable {σ : Type} {plugins : Plugins σ} {m m' : Machine σ} {event : Event σ}
  {id : ThreadId} {t t' : ThreadState}

/-- One step. Outside callers act only while no work is left; scripts, services and abort hooks act
through their code. -/
inductive Step (plugins : Plugins σ) : Machine σ → Event σ → Machine σ → Prop
  /-- The item on top of the stack is done. -/
  | work {e : Engine σ} {work : Work σ} {rest : List (Work σ)} :
      Step plugins ⟨e, work :: rest⟩ (.work work)
        ⟨(perform plugins e work).2, (perform plugins e work).1 ++ rest⟩
  /-- A task is taken up, whichever it is. -/
  | task {e : Engine σ} {before after : List (Task σ)} {task : Task σ}
      (hqueue : e.queue = before ++ task :: after) :
      Step plugins ⟨e, []⟩ (.task task) (take plugins { e with queue := before ++ after } task)
  /-- An outside caller makes a request. -/
  | ask {e : Engine σ} (query : Query) :
      Step plugins ⟨e, []⟩ (.ask query) ((⟨e, []⟩ : Machine σ).ask query).2
  /-- An outside caller gives out permits. -/
  | permits {e : Engine σ} (tag : String) (count : Nat) :
      Step plugins ⟨e, []⟩ (.permits tag count) ⟨e.givePermits tag count, []⟩
  /-- The last holder of the engine lets it go. -/
  | letGo {e : Engine σ} : Step plugins ⟨e, []⟩ .letGo ⟨{ e with alive := false }, []⟩
  /-- The state of the scripts and services changes, or the log is taken away. -/
  | outside {e : Engine σ} (host : σ) (log : List LogEntry) :
      Step plugins ⟨e, []⟩ .outside ⟨{ e with host, log }, []⟩

/-- What a step leaves that does an item of work. -/
theorem Step.workedOff {work : Work σ} (h : Step plugins m (.work work) m') :
    ∃ todo rest, m.stack = work :: rest ∧ m'.stack = todo ++ rest ∧
      m.engine.WorkedOff plugins work todo m'.engine := by
  cases h with
  | @work e work rest => exact ⟨_, rest, rfl, rfl, Engine.workedOff_perform plugins e work⟩

/-- A step that was taken. -/
structure Stage (σ : Type) where
  before : Machine σ
  event : Event σ
  after : Machine σ

/-- The runs from a state, with their history, the first step first. -/
inductive Run (plugins : Plugins σ) (start : Machine σ) : List (Stage σ) → Machine σ → Prop
  | start : Run plugins start [] start
  | step {stages : List (Stage σ)} {m m' : Machine σ} {event : Event σ}
      (hrun : Run plugins start stages m) (hstep : Step plugins m event m') :
      Run plugins start (stages ++ [⟨m, event, m'⟩]) m'

/-- A machine with an empty engine and nothing to do. -/
def opened (host : σ) (config : CoreConfig) : Machine σ := ⟨.new host config, []⟩

/-! ## The machine that runs -/

theorem step_of_step? (h : m.step? plugins = some m') : ∃ event, Step plugins m event m' := by
  obtain ⟨e, stack⟩ := m
  cases stack with
  | nil => cases h
  | cons work rest =>
    cases h
    exact ⟨_, .work⟩

/-- Working off the stack is a run. -/
theorem Run.drain {start : Machine σ} {stages : List (Stage σ)} (h : Run plugins start stages m)
    (fuel : Nat) : ∃ more, Run plugins start (stages ++ more) (m.drain plugins fuel) := by
  induction fuel generalizing m stages with
  | zero => exact ⟨[], by simpa [Machine.drain] using h⟩
  | succ fuel ih =>
    unfold Machine.drain
    split
    next m' hstep =>
      obtain ⟨event, hstep⟩ := step_of_step? hstep
      obtain ⟨more, hrun⟩ := ih (h.step hstep)
      exact ⟨⟨m, event, m'⟩ :: more, by simpa using hrun⟩
    next => exact ⟨[], by simpa using h⟩

/-- The next step that the machine takes by itself: the item on top of the stack is done, or the
first task that is ready is taken up. -/
def next? (plugins : Plugins σ) (m : Machine σ) : Option (Stage σ) :=
  match m.stack, m.engine.queue with
  | work :: rest, _ =>
    some ⟨m, .work work, ⟨(perform plugins m.engine work).2,
      (perform plugins m.engine work).1 ++ rest⟩⟩
  | [], task :: queue => some ⟨m, .task task, take plugins { m.engine with queue } task⟩
  | [], [] => none

/-- The steps that the machine takes by itself. The first argument bounds their number. -/
def record (plugins : Plugins σ) : Nat → Machine σ → List (Stage σ)
  | 0, _ => []
  | fuel + 1, m =>
    match m.next? plugins with
    | some s => s :: record plugins fuel s.after
    | none => []

theorem step_of_next? {s : Stage σ} (h : m.next? plugins = some s) :
    s.before = m ∧ Step plugins m s.event s.after := by
  obtain ⟨e, stack⟩ := m
  cases stack with
  | cons work rest =>
    cases h
    exact ⟨rfl, .work⟩
  | nil =>
    rcases hqueue : e.queue with _ | ⟨task, queue⟩
    · simp [next?, hqueue] at h
    · simp only [next?, hqueue, Option.some.injEq] at h
      subst h
      have hfirst : e.queue = [] ++ task :: queue := hqueue
      exact ⟨rfl, .task hfirst⟩

/-- The machine that runs takes these steps. -/
theorem runTasks_succ (fuel : Nat) (m : Machine σ) :
    m.runTasks plugins (fuel + 1) =
      match m.next? plugins with
      | some s => s.after.runTasks plugins fuel
      | none => m := by
  obtain ⟨e, stack⟩ := m
  cases stack with
  | cons work rest => rfl
  | nil => cases hqueue : e.queue <;> simp [Machine.runTasks, step?, nextTask?, next?, hqueue]

/-- Running the tasks in their order is a run, and its history is what is recorded. -/
theorem Run.record {start : Machine σ} {stages : List (Stage σ)}
    (h : Run plugins start stages m) (fuel : Nat) :
    Run plugins start (stages ++ m.record plugins fuel) (m.runTasks plugins fuel) := by
  induction fuel generalizing m stages with
  | zero => simpa [Machine.record, Machine.runTasks] using h
  | succ fuel ih =>
    rw [runTasks_succ, Machine.record]
    rcases hnext : m.next? plugins with _ | s
    · simpa using h
    · obtain ⟨rfl, hstep⟩ := step_of_next? hnext
      simpa using ih (h.step hstep)

theorem Run.runTasks {start : Machine σ} {stages : List (Stage σ)}
    (h : Run plugins start stages m) (fuel : Nat) :
    ∃ more, Run plugins start (stages ++ more) (m.runTasks plugins fuel) :=
  ⟨_, h.record fuel⟩

/-- What happens when an outside caller makes some requests and leaves the machine to itself for a
number of steps after each of them, and where this leads. A request that comes too early is the end
of it. -/
def play (plugins : Plugins σ) : List (Query × Nat) → Machine σ → List (Stage σ) × Machine σ
  | [], m => ([], m)
  | (query, fuel) :: later, m =>
    match m.stack with
    | [] =>
      let asked := (m.ask query).2
      let (stages, last) := play plugins later (asked.runTasks plugins fuel)
      (⟨m, .ask query, asked⟩ :: (asked.record plugins fuel ++ stages), last)
    | _ => ([], m)

theorem Run.play {start : Machine σ} {stages : List (Stage σ)} (h : Run plugins start stages m)
    (calls : List (Query × Nat)) :
    Run plugins start (stages ++ (m.play plugins calls).1) (m.play plugins calls).2 := by
  induction calls generalizing m stages with
  | nil => simpa [Machine.play] using h
  | cons call later ih =>
    obtain ⟨query, fuel⟩ := call
    obtain ⟨e, stack⟩ := m
    cases stack with
    | cons work rest => simpa [Machine.play] using h
    | nil =>
      have hplayed := ih ((h.step (.ask query)).record fuel)
      simpa [Machine.play] using hplayed

/-- Serving a request while no work is left is a run. -/
theorem Run.serve {start : Machine σ} {stages : List (Stage σ)} (h : Run plugins start stages m)
    (hstack : m.stack = []) (query : Query) :
    ∃ more, Run plugins start (stages ++ more) (m.serve plugins query).2 := by
  obtain ⟨e, stack⟩ := m
  cases hstack
  obtain ⟨more, hrun⟩ := (h.step (.ask query)).drain patience
  refine ⟨⟨⟨e, []⟩, .ask query, ((⟨e, []⟩ : Machine σ).ask query).2⟩ :: more, ?_⟩
  simpa [Machine.serve] using hrun

/-! ## One thread -/

/-- What a step does to one thread, up to marks, and how the stack shows it. -/
inductive Affects (id : ThreadId) (m : Machine σ) (event : Event σ) (m' : Machine σ)
    (t : ThreadState) : Move → ThreadState → Prop
  | still {t' : ThreadState} (hagree : t.Agrees t') : Affects id m event m' t .still t'
  | assigned {name : String} {value : Json} {t' : ThreadState}
      (hagree : (t.setVar name value).Agrees t')
      (hasks : event.asks? = some (.setVar id name value)) :
      Affects id m event m' t (.assigned name value) t'
  | resumed {p t' : ThreadState} (hprep : t.Prepares .resumed p) (hagree : p.run.2.Agrees t')
      (hbefore : m.stack = []) (hafter : m'.stack = Engine.advanceWork id p.run.1) :
      Affects id m event m' t .resumed t'
  | executed {query : Query} {caller : Option Context} {program : Sequence}
      {entry : Option String} {p t' : ThreadState} {rest : List (Work σ)}
      (hprep : t.Prepares (.executed caller program entry) p) (hagree : p.run.2.Agrees t')
      (hasks : event.asks? = some query)
      (hquery : query.executes? = some (id, caller, program, entry))
      (hafter : m'.stack = Engine.advanceWork id p.run.1 ++ rest) :
      Affects id m event m' t (.executed caller program entry) t'
  | completed {context : Context} {p t' : ThreadState} {rest : List (Work σ)}
      (hid : context.thread = id) (hprep : t.Prepares (.completed context) p)
      (hagree : p.run.2.Agrees t') (hbefore : m.stack = .complete context :: rest)
      (hafter : m'.stack = Engine.advanceWork id p.run.1 ++ rest) :
      Affects id m event m' t (.completed context) t'
  | failed {context : Context} {failure : Failure} {t' : ThreadState} {rest : List (Work σ)}
      (hid : context.thread = id) (hcurrent : t.isCurrent context.ticket = true)
      (hagree : ThreadState.Agrees { t with inFlight := none } t')
      (hbefore : m.stack = .script context (.pure (.error failure)) :: rest)
      (hafter : m'.stack = .fail id (.script context.name failure) :: rest) :
      Affects id m event m' t (.failed context failure) t'
  | destroying {t' : ThreadState} {rest : List (Work σ)} (hphase : t.phase = .running)
      (hagree : ThreadState.Agrees { t with phase := .destroying } t')
      (hbefore : m.stack = .destroy id :: rest)
      (hafter : m'.stack = .notify t.services (.willDestroy id) :: .clear id :: rest) :
      Affects id m event m' t .destroying t'
  | cleared {t' : ThreadState} {rest : List (Work σ)} (hagree : t.clear.Agrees t')
      (hbefore : m.stack = .clear id :: rest)
      (hafter : m'.stack = (t.inFlight.map Work.abort).toList ++ .release id :: rest) :
      Affects id m event m' t .cleared t'

theorem affects_of_keeps (h : m.engine.Keeps m'.engine) (ht : m.engine.thread? id = some t)
    (hstill : event.moveOf id t = .still) :
    ∃ t', m'.engine.thread? id = some t' ∧ Affects id m event m' t (event.moveOf id t) t' := by
  obtain ⟨t', ht', hagree⟩ := h.agrees ht
  rw [hstill]
  exact ⟨t', ht', .still hagree⟩

/-- A step that puts a state into the place of one thread leaves the others alone. -/
theorem affects_of_setThread {other : ThreadId} {s r : ThreadState} {move : Move}
    (hr : m.engine.thread? other = some r) (hid : s.id = other)
    (hkeeps : (m.engine.setThread s).Keeps m'.engine) (ht : m.engine.thread? id = some t)
    (hmove : event.moveOf id t = if other = id then move else .still)
    (hself : ∀ t', s.Agrees t' → Affects other m event m' r move t') :
    ∃ t', m'.engine.thread? id = some t' ∧ Affects id m event m' t (event.moveOf id t) t' := by
  subst hid
  rw [hmove]
  by_cases hid : s.id = id
  · subst hid
    obtain ⟨t', ht', hagree⟩ := hkeeps.agrees (Engine.thread?_setThread_self hr)
    cases hr.symm.trans ht
    rw [if_pos rfl]
    exact ⟨t', ht', hself t' hagree⟩
  · -- another thread is where it was, up to marks
    have hother : (m.engine.setThread s).thread? id = some t := by
      rw [Engine.thread?_setThread_ne (Ne.symm hid), ht]
    obtain ⟨t', ht', hagree⟩ := hkeeps.agrees hother
    rw [if_neg hid]
    exact ⟨t', ht', .still hagree⟩

/-- A thread that is added leaves the others alone. -/
theorem thread?_addThread {e : Engine σ} {s : ThreadState} (h : e.thread? id = some t) :
    (e.addThread s).thread? id = some t := by
  simpa [Engine.thread?, Engine.addThread, List.getElem?_append_left (Engine.lt_of_thread? h)]
    using h

/-- A move that is due in one thread, and that is of no account for the others. -/
theorem ite_due {other : ThreadId} (due : ThreadState → Bool) {r : ThreadState} {e : Engine σ}
    (hr : e.thread? other = some r) (hdue : due r = true) (ht : e.thread? id = some t)
    (move : Move) :
    (if other = id ∧ due t = true then move else .still) =
      if other = id then move else .still := by
  by_cases hother : other = id
  · subst hother
    cases hr.symm.trans ht
    simp [hdue]
  · simp [hother]

/-- A request that is served makes at most one thread move. -/
theorem affects_of_answered {query : Query} {todo rest : List (Work σ)}
    (h : m.engine.Answered query todo m'.engine) (hn : m.engine.Numbered)
    (hasks : event.asks? = some query) (hafter : m'.stack = todo ++ rest)
    (ht : m.engine.thread? id = some t) :
    ∃ t', m'.engine.thread? id = some t' ∧ Affects id m event m' t (event.moveOf id t) t' := by
  obtain ⟨e', stack'⟩ := m'
  have hmove := Event.moveOf_of_asks hasks id t
  cases h with
  | kept hkeeps hstill => exact affects_of_keeps hkeeps ht (hmove.trans (hstill _ _ ht))
  | @assigned other name value r hr =>
    have hid : (r.setVar name value).id = other :=
      (r.setVar_id name value).trans (hn other r hr)
    refine affects_of_setThread hr hid (.refl _) ht hmove ?_
    intro t' hagree
    exact .assigned hagree hasks
  | @executed _ other caller program entry r p _ hquery hr hprep hkeeps =>
    have hid : p.run.2.id = other := hprep.kin_run.id.symm.trans (hn _ _ hr)
    have hdue := ite_due (fun s => s.grants caller program entry) hr hprep.grants ht
      (.executed caller program entry)
    rw [← Query.moveOf_of_executes hquery, ← hmove] at hdue
    refine affects_of_setThread hr hid hkeeps ht hdue ?_
    intro t' hagree
    exact .executed hprep hagree hasks hquery hafter
  | created hasked hprogram hvalid hkeeps hcreate =>
    obtain ⟨t', ht', hagree⟩ := hkeeps.agrees ht
    rw [hmove]
    exact ⟨t', thread?_addThread ht', .still hagree⟩
  | vetted hprogram hvalid hkeeps =>
    obtain ⟨t', ht', hagree⟩ := hkeeps.agrees ht
    rw [hmove]
    exact ⟨t', ht', .still hagree⟩
  | registered hregister hkeeps =>
    obtain ⟨t', ht', hagree⟩ := hkeeps.agrees ht
    rw [hmove]
    exact ⟨t', ht', .still hagree⟩
  | configured hvalid hkeeps =>
    obtain ⟨t', ht', hagree⟩ := hkeeps.agrees ht
    rw [hmove]
    exact ⟨t', ht', .still hagree⟩

/-- An item of work makes at most one thread move. -/
theorem affects_of_performed {work : Work σ} {todo rest : List (Work σ)}
    (h : m.engine.Performed work todo m'.engine) (hn : m.engine.Numbered)
    (hbefore : m.stack = work :: rest) (hafter : m'.stack = todo ++ rest)
    (ht : m.engine.thread? id = some t) :
    ∃ t', m'.engine.thread? id = some t' ∧
      Affects id m (.work work) m' t (work.moveOf id t) t' := by
  obtain ⟨e', stack'⟩ := m'
  cases h with
  | @asked _ _ query _ _ hasks hcode hanswered =>
    rw [List.append_assoc] at hafter
    have hevent : (Event.work work).asks? = some query := hasks
    exact affects_of_answered hanswered hn hevent hafter ht
  | kept hasks hkeeps hstill =>
    have hevent : (Event.work work).moveOf id t = .still := hstill _ _ ht
    exact affects_of_keeps hkeeps ht hevent
  | @failed context failure r hr hcurrent =>
    have hid : r.id = context.thread := hn _ _ hr
    have hdue := ite_due (·.isCurrent context.ticket) hr hcurrent ht (.failed context failure)
    refine affects_of_setThread (s := { r with inFlight := none }) hr hid (.refl _) ht hdue ?_
    intro t' hagree
    exact .failed rfl hcurrent hagree hbefore hafter
  | @completed context r p hr hprep =>
    have hid : p.run.2.id = context.thread := hprep.kin_run.id.symm.trans (hn _ _ hr)
    have hcurrent : r.isCurrent context.ticket = true := by
      cases hprep with
      | completed hcurrent => exact hcurrent
    have hdue := ite_due (·.isCurrent context.ticket) hr hcurrent ht (.completed context)
    refine affects_of_setThread hr hid (.refl _) ht hdue ?_
    intro t' hagree
    exact .completed rfl hprep hagree hbefore hafter
  | @destroying other r hr hphase =>
    have hid : r.id = other := hn _ _ hr
    have hdue := ite_due (·.isRunning) hr (ThreadState.isRunning_iff.2 hphase) ht .destroying
    refine affects_of_setThread (s := { r with phase := .destroying }) hr hid (.refl _) ht hdue ?_
    intro t' hagree
    have hservices : m.engine.servicesOf other = r.services := by simp [Engine.servicesOf, hr]
    rw [hservices] at hafter
    exact .destroying hphase hagree hbefore hafter
  | @cleared other r _ hr hkeeps =>
    have hid : r.id = other := hn _ _ hr
    refine affects_of_setThread (s := r.clear) hr hid hkeeps ht rfl ?_
    intro t' hagree
    exact .cleared hagree hbefore (by simpa using hafter)

theorem take_start_none {e : Engine σ} (h : e.thread? id = none) :
    take plugins e (.start id) = ⟨e, []⟩ := by
  simp [take, h]

theorem take_start_some {e : Engine σ} (h : e.thread? id = some t) :
    take plugins e (.start id) =
      ⟨e.setThread t.resume.2, Engine.advanceWork id t.resume.1⟩ := by
  simp [take, h]

/-- A first run finds no thread, comes too late, or sets the thread going. -/
theorem take_start_cases (plugins : Plugins σ) (e : Engine σ) (id : ThreadId) :
    (e.thread? id = none ∧ take plugins e (.start id) = ⟨e, []⟩) ∨
    ∃ t, e.thread? id = some t ∧
      ((t.isFresh = false ∧ t.Agrees t.resume.2 ∧
          take plugins e (.start id) = ⟨e.setThread t.resume.2, [.arrive id .idle]⟩) ∨
        ∃ p, t.Prepares .resumed p ∧
          take plugins e (.start id) = ⟨e.setThread p.run.2, Engine.advanceWork id p.run.1⟩) := by
  rcases ht : e.thread? id with _ | t
  · exact .inl ⟨rfl, take_start_none ht⟩
  · have htake : take plugins e (.start id) =
        ⟨e.setThread t.resume.2, Engine.advanceWork id t.resume.1⟩ := take_start_some ht
    refine .inr ⟨t, rfl, ?_⟩
    rcases t.resume_cases with ⟨hstale, hidle, hagree⟩ | ⟨p, hprep, hresume⟩
    · rw [hidle] at htake
      exact .inl ⟨hstale, hagree, htake⟩
    · rw [hresume] at htake
      exact .inr ⟨p, hprep, htake⟩

/-- A step makes every thread take the move that it is about, and no other. -/
theorem Step.affects (h : Step plugins m event m') (hn : m.engine.Numbered)
    (ht : m.engine.thread? id = some t) :
    ∃ t', m'.engine.thread? id = some t' ∧ Affects id m event m' t (event.moveOf id t) t' := by
  cases h with
  | work => exact affects_of_performed (Engine.performed_perform hn plugins _) hn rfl rfl ht
  | @task e before after task hqueue =>
    cases task with
    | start other =>
      have hdequeued : e.Keeps { e with queue := before ++ after } := .of_eq rfl rfl rfl rfl
      rcases take_start_cases plugins { e with queue := before ++ after } other with
        ⟨hr, htake⟩ | ⟨r, hr, ⟨hstale, hagree, htake⟩ | ⟨p, hprep, htake⟩⟩
      · rw [htake]
        refine affects_of_keeps hdequeued ht (if_neg ?_)
        rintro ⟨rfl, -⟩
        cases hr.symm.trans ht
      · -- a first run that comes too late leaves the thread as it is
        have hid : r.id = other := hn _ _ hr
        subst hid
        rw [htake]
        refine affects_of_keeps ?_ ht (if_neg ?_)
        · exact hdequeued.trans (Engine.keeps_setThread hr hagree)
        · rintro ⟨rfl, hfresh⟩
          cases hr.symm.trans ht
          cases hstale.symm.trans hfresh
      · have hid : r.id = other := hn _ _ hr
        have hdue := ite_due (·.isFresh) hr hprep.isFresh ht .resumed
        rw [htake]
        refine affects_of_setThread (s := p.run.2) hr (hprep.kin_run.id.symm.trans hid)
          (.of_eq rfl rfl rfl rfl) ht hdue ?_
        intro t' hagree
        exact .resumed hprep hagree rfl rfl
    | begin script => exact affects_of_keeps (.of_eq rfl rfl rfl rfl) ht rfl
    | resume context rest => exact affects_of_keeps (.of_eq rfl rfl rfl rfl) ht rfl
  | ask query =>
    exact affects_of_answered (Engine.answered_answer hn query) hn rfl rfl ht
  | permits tag count => exact affects_of_keeps (Engine.keeps_givePermits tag count) ht rfl
  | letGo => exact affects_of_keeps (.of_eq rfl rfl rfl rfl) ht rfl
  | outside host log => exact affects_of_keeps (.of_eq rfl rfl rfl rfl) ht rfl

/-- The next thing to happen is what the cursor machine came to, after the script that lost its
place, if any, was told. -/
def Shows (id : ThreadId) (arrival : Arrival) (m : Machine σ) : Prop :=
  ∃ aborted rest, m.stack = Engine.advanceWork id ⟨aborted, arrival⟩ ++ rest

/-! ## All threads -/

/-- Only a request changes the registry, the defaults or the number of threads. -/
theorem Step.asked_or_steady (h : Step plugins m event m') (hn : m.engine.Numbered) :
    (∃ query todo, event.asks? = some query ∧ m.engine.Answered query todo m'.engine) ∨
    (event.asks? = none ∧ m.engine.Steady m'.engine) := by
  cases h with
  | work =>
    obtain ⟨query, todo, next, hasks, -, -, hanswered⟩ | ⟨hasks, hsteady⟩ :=
      (Engine.performed_perform hn plugins _).asked_or_steady
    · exact .inl ⟨query, todo, hasks, hanswered⟩
    · exact .inr ⟨hasks, hsteady⟩
  | @task e before after task hqueue =>
    refine .inr ⟨rfl, ?_⟩
    cases task with
    | start other =>
      simp only [take]
      split
      · exact ⟨rfl, rfl, rfl, rfl⟩
      · exact ⟨rfl, rfl, rfl, by simp [Engine.setThread]⟩
    | begin script => exact ⟨rfl, rfl, rfl, rfl⟩
    | resume context rest => exact ⟨rfl, rfl, rfl, rfl⟩
  | ask query => exact .inl ⟨query, _, rfl, Engine.answered_answer hn query⟩
  | permits tag count => exact .inr ⟨rfl, (Engine.keeps_givePermits tag count).steady⟩
  | letGo => exact .inr ⟨rfl, rfl, rfl, rfl, rfl⟩
  | outside host log => exact .inr ⟨rfl, rfl, rfl, rfl, rfl⟩

theorem thread?_eq_none_iff {e : Engine σ} {id : Nat} :
    e.thread? id = none ↔ e.threads.length ≤ id :=
  List.getElem?_eq_none_iff

/-- A new thread comes from a request for it, and starts as it is created. -/
structure Creates (m : Machine σ) (event : Event σ) (id : ThreadId) (t : ThreadState)
    (overrides : Option ThreadConfig) (program : Sentence) (services : ServiceSet) : Prop where
  asks : event.asks? = some (.core (.createThread overrides))
  sentences : (m.engine.defaults.merge (overrides.getD .empty)).sentences = some program
  valid : (overrides.getD .empty).sentences.isSome = true ∨ m.engine.validated = false →
    m.engine.Passes program
  create : ThreadState.create id m.engine.scripts services program.asSequence
    ((m.engine.defaults.merge (overrides.getD .empty)).vars.getD [])
    (m.engine.defaults.merge (overrides.getD .empty)).entryLabel = .ok t

theorem Step.creates (h : Step plugins m event m') (hn : m.engine.Numbered)
    (hnone : m.engine.thread? id = none) (ht' : m'.engine.thread? id = some t') :
    ∃ overrides program services, Creates m event id t' overrides program services := by
  -- the engine has more threads than before, and only the request for a thread adds one
  have hle := thread?_eq_none_iff.1 hnone
  have hlt := Engine.lt_of_thread? ht'
  have steady : ¬ m.engine.Steady m'.engine := by
    intro hsteady
    have := hsteady.count
    omega
  obtain ⟨query, todo, hasks, hanswered⟩ | ⟨-, hsteady⟩ := h.asked_or_steady hn
  · obtain ⟨e', stack'⟩ := m'
    cases hanswered with
    | kept hkeeps => exact absurd hkeeps.steady steady
    | assigned ht => exact absurd (Engine.Keeps.refl _).steady_of_setThread steady
    | executed hquery ht hprep hkeeps => exact absurd hkeeps.steady_of_setThread steady
    | vetted hprogram hvalid hkeeps =>
      have hcount : m.engine.threads.length = _ := hkeeps.count
      omega
    | registered hregister hkeeps =>
      have hcount : m.engine.threads.length = _ := hkeeps.count
      omega
    | configured hvalid hkeeps =>
      have hcount : m.engine.threads.length = _ := hkeeps.count
      omega
    | @created overrides overrides' program t e₁ hasked hprogram hvalid hkeeps hcreate =>
      have hcount : m.engine.threads.length = e₁.threads.length := hkeeps.count
      have hscripts : m.engine.scripts = e₁.scripts := hkeeps.scripts
      have hid : id = e₁.threads.length := by
        simp only [List.length_append, List.length_singleton] at hlt
        show @Eq Nat id _
        omega
      subst hid hasked
      have hlast : (e₁.addThread t).thread? e₁.threads.length = some t := by
        simp [Engine.thread?, Engine.addThread]
      cases hlast.symm.trans ht'
      rw [← hscripts] at hcreate
      exact ⟨overrides', program, e₁.services, hasks, hprogram, hvalid, hcreate⟩
  · exact absurd hsteady steady

/-- Every step leaves at most the first item of the stack to tell a script to stop. -/
theorem Step.tail_aborts (h : Step plugins m event m') (hn : m.engine.Numbered)
    (hm : ∀ work ∈ m.stack.tail, work.aborts? = none) :
    ∀ work ∈ m'.stack.tail, work.aborts? = none := by
  cases h with
  | @work e work rest =>
    have htodo := (Engine.performed_perform hn plugins work).tail_aborts
    revert htodo
    generalize (perform plugins e work).1 = todo
    intro htodo
    cases todo with
    | nil => exact fun next hnext => hm next (List.mem_of_mem_tail hnext)
    | cons first todo =>
      -- the item that was below the top stays below the new ones
      intro next hnext
      rcases List.mem_append.1 hnext with hnext | hnext
      · exact htodo next hnext
      · exact hm next hnext
  | @task e before after task hqueue =>
    cases task with
    | start other =>
      simp only [take]
      split
      · simp
      · exact Engine.advanceWork_tail_aborts _ _
    | begin script => simp [take]
    | resume context rest => simp [take]
  | ask query =>
    have htodo := (Engine.answered_answer hn query).tail_aborts
    simpa [Machine.ask] using htodo
  | permits tag count => simp
  | letGo => simp
  | outside host log => simp

/-- Where an error of a thread comes from: it was there before, a script failed, or the cursor
machine of the thread came to it. -/
theorem Step.reports (h : Step plugins m event m') (hn : m.engine.Numbered) {work : Work σ}
    {error : ThreadError} (hwork : work ∈ m'.stack) (hreports : work.reports? = some (id, error)) :
    (∃ earlier ∈ m.stack, earlier.reports? = some (id, error)) ∨
      (∃ name failure, error = .script name failure) ∨
      m.engine.FailsBy id error fun id t => event.moveOf id t := by
  cases h with
  | @work e first rest =>
    rcases List.mem_append.1 hwork with hwork | hwork
    · rcases (Engine.performed_perform hn plugins first).reports hwork hreports with
        hbefore | hrest
      · exact .inl ⟨first, List.mem_cons_self, hbefore⟩
      · exact .inr hrest
    · exact .inl ⟨work, List.mem_cons_of_mem _ hwork, hreports⟩
  | @task e before after task hqueue =>
    cases task with
    | start other =>
      rcases take_start_cases plugins { e with queue := before ++ after } other with
        ⟨-, htake⟩ | ⟨t, ht, ⟨-, -, htake⟩ | ⟨p, hprep, htake⟩⟩
      · rw [htake] at hwork
        cases hwork
      · rw [htake] at hwork
        cases List.mem_singleton.1 hwork
        cases hreports
      · rw [htake] at hwork
        obtain ⟨rfl, harrival⟩ := Engine.advanceWork_reports hwork hreports
        refine .inr (.inr ⟨t, p, ht, ?_, harrival⟩)
        simpa [Event.moveOf, hprep.isFresh] using hprep
    | begin script =>
      rw [List.mem_singleton.1 hwork] at hreports
      cases hreports
    | resume context rest =>
      rw [List.mem_singleton.1 hwork] at hreports
      cases hreports
  | @ask e query =>
    have hwork : work ∈ (e.answer query).todo := by simpa [Machine.ask] using hwork
    exact .inr (.inr ((Engine.answered_answer hn query).reports hwork hreports))
  | permits tag count => cases hwork
  | letGo => cases hwork
  | outside host log => cases hwork

/-! ## The invariant -/

/-- What a thread was created with stays with it. -/
theorem Affects.origin {move : Move} (h : Affects id m event m' t move t') : t.SameOrigin t' := by
  cases h with
  | still hagree => exact hagree.sameOrigin
  | assigned hagree =>
    have hsame := hagree.of_setVar.sameOrigin
    exact ⟨hsame.id, hsame.scripts, hsame.services⟩
  | resumed hprep hagree => exact hprep.kin_run.toSameOrigin.trans hagree.sameOrigin
  | executed hprep hagree => exact hprep.kin_run.toSameOrigin.trans hagree.sameOrigin
  | completed hid hprep hagree => exact hprep.kin_run.toSameOrigin.trans hagree.sameOrigin
  | failed hid hcurrent hagree => exact ⟨hagree.id, hagree.scripts, hagree.services⟩
  | destroying hphase hagree => exact ⟨hagree.id, hagree.scripts, hagree.services⟩
  | cleared hagree => exact ⟨hagree.id, hagree.scripts, hagree.services⟩

/-- Every move leaves a thread sound. -/
theorem Affects.sound {move : Move} (h : Affects id m event m' t move t') (hs : t.Sound) :
    t'.Sound := by
  cases h with
  | still hagree => exact hagree.sound hs
  | assigned hagree => exact hagree.sound (hs.setVar _ _)
  | resumed hprep hagree => exact hagree.sound (hprep.sound_run hs)
  | executed hprep hagree => exact hagree.sound (hprep.sound_run hs)
  | completed hid hprep hagree => exact hagree.sound (hprep.sound_run hs)
  | failed hid hcurrent hagree => exact hagree.sound hs.free
  | destroying hphase hagree =>
    -- frames and slot are of account only while the thread runs
    refine hagree.sound (ThreadState.Ticketed.sound hs.ticketed ?_)
    simp
  | cleared hagree =>
    refine hagree.sound (ThreadState.Ticketed.sound ?_ ?_)
    · intro a ha
      cases ha
    · simp [ThreadState.clear]

/-- The end of a thread is the next thing to happen. -/
def Ending (id : ThreadId) (m : Machine σ) : Prop :=
  ∃ rest, m.stack = .arrive id .exhausted :: rest ∨ m.stack = .destroy id :: rest

/-- A move leaves a thread spent only by bringing it to the end of its program. -/
theorem Affects.spent {move : Move} (h : Affects id m event m' t move t') (hs : t.Sound)
    (hspent : t'.Spent) : t.Spent ∨ Ending id m' := by
  cases h with
  | still hagree => exact .inl (hagree.spent hspent)
  | assigned hagree => exact .inl (ThreadState.spent_setVar.1 (hagree.spent hspent))
  | resumed hprep hagree =>
    -- a first run starts with a free slot, so it cannot leave the thread spent
    obtain ⟨-, hflight⟩ := (hprep.ran hs).spent (hagree.spent hspent)
    cases hprep with
    | resumed hphase hstarted hfree => exact absurd hfree hflight
  | executed hprep hagree hasks hquery hafter =>
    obtain ⟨hend, -⟩ := (hprep.ran hs).spent (hagree.spent hspent)
    rw [hend] at hafter
    exact .inr ⟨_, .inl hafter⟩
  | completed hid hprep hagree =>
    obtain ⟨-, hflight⟩ := (hprep.ran hs).spent (hagree.spent hspent)
    cases hprep with
    | completed hcurrent => exact absurd rfl hflight
  | failed hid hcurrent hagree => exact absurd rfl (hagree.spent hspent).2.1
  | destroying hphase hagree => cases (hagree.spent hspent).1
  | cleared hagree => cases (hagree.spent hspent).1

/-- From the end of its program on, nothing comes between a thread and its destruction. -/
theorem Step.ending (h : Step plugins m event m') (hending : Ending id m)
    (ht : m.engine.thread? id = some t) (hphase : t.phase = .running) (hid : t.id = id) :
    Ending id m' ∨ m'.engine.thread? id = some { t with phase := .destroying } := by
  obtain ⟨rest, hstack | hstack⟩ := hending
  · -- what was arrived at is the end of the program, and it asks for the destruction
    obtain ⟨e, stack⟩ := m
    cases hstack
    cases h with
    | work => exact .inl ⟨_, .inr rfl⟩
  · obtain ⟨e, stack⟩ := m
    cases hstack
    cases h with
    | work =>
      subst hid
      refine .inr ?_
      simp only [perform, Engine.look_eq ht, ThreadState.isRunning_iff.2 hphase, if_true,
        Engine.modifyThread_eq ht]
      exact Engine.thread?_setThread_self ht

/-- Nobody can ask for anything between the end of a program and the destruction of its thread. -/
theorem Step.asks_of_ending (h : Step plugins m event m') (hending : Ending id m) :
    event.asks? = none := by
  obtain ⟨e, stack⟩ := m
  obtain ⟨rest, hstack | hstack⟩ := hending
  · cases hstack
    cases h
    rfl
  · cases hstack
    cases h
    rfl

/-- What holds in every state of a run. -/
structure Invariant (m : Machine σ) : Prop where
  numbered : m.engine.Numbered
  sound : ∀ {id t}, m.engine.thread? id = some t → t.Sound
  ending : ∀ {id t}, m.engine.thread? id = some t → t.Spent → Ending id m
  aborts : ∀ work ∈ m.stack.tail, work.aborts? = none

theorem invariant_opened (host : σ) (config : CoreConfig) : Invariant (opened host config) where
  numbered := by
    intro id t ht
    simp [opened, Engine.new, Engine.thread?] at ht
  sound := by
    intro id t ht
    simp [opened, Engine.new, Engine.thread?] at ht
  ending := by
    intro id t ht
    simp [opened, Engine.new, Engine.thread?] at ht
  aborts := by simp [opened]

/-- Every thread after a step was there before, or was created by the step. -/
theorem Step.thread_cases (h : Step plugins m event m') (hn : m.engine.Numbered)
    (ht' : m'.engine.thread? id = some t') :
    (∃ t, m.engine.thread? id = some t ∧ Affects id m event m' t (event.moveOf id t) t') ∨
    (m.engine.thread? id = none ∧ ∃ overrides program services,
      Creates m event id t' overrides program services) := by
  rcases ht : m.engine.thread? id with _ | t
  · exact .inr ⟨rfl, h.creates hn ht ht'⟩
  · obtain ⟨s, hs, haffects⟩ := h.affects hn ht
    cases hs.symm.trans ht'
    exact .inl ⟨t, rfl, haffects⟩

theorem Step.invariant (h : Step plugins m event m') (hm : Invariant m) : Invariant m' where
  numbered := by
    intro id t' ht'
    obtain ⟨t, ht, haffects⟩ | ⟨-, overrides, program, services, hcreates⟩ :=
      h.thread_cases hm.numbered ht'
    · exact haffects.origin.id.symm.trans (hm.numbered _ _ ht)
    · obtain ⟨start, -, -, rfl⟩ := ThreadState.create_eq_ok hcreates.create
      rfl
  sound := by
    intro id t' ht'
    obtain ⟨t, ht, haffects⟩ | ⟨-, overrides, program, services, hcreates⟩ :=
      h.thread_cases hm.numbered ht'
    · exact haffects.sound (hm.sound ht)
    · exact ThreadState.sound_create hcreates.create
  ending := by
    intro id t' ht' hspent
    obtain ⟨t, ht, haffects⟩ | ⟨-, overrides, program, services, hcreates⟩ :=
      h.thread_cases hm.numbered ht'
    · rcases haffects.spent (hm.sound ht) hspent with hbefore | hending
      · -- a thread that was spent before is one step closer to its destruction
        rcases h.ending (hm.ending ht hbefore) ht hbefore.1 (hm.numbered _ _ ht) with
          hending | hgone
        · exact hending
        · cases hgone.symm.trans ht'
          cases hspent.1
      · exact hending
    · -- a new thread has its slot free
      obtain ⟨start, -, -, rfl⟩ := ThreadState.create_eq_ok hcreates.create
      exact absurd rfl hspent.2.1
  aborts := h.tail_aborts hm.numbered hm.aborts

theorem Run.invariant {host : σ} {config : CoreConfig} {stages : List (Stage σ)}
    (h : Run plugins (opened host config) stages m) : Invariant m := by
  induction h with
  | start => exact invariant_opened host config
  | step hrun hstep ih => exact hstep.invariant ih

/-- Every step of a run continues a shorter run. -/
theorem Run.mem {start : Machine σ} {stages : List (Stage σ)} {stage : Stage σ}
    (h : Run plugins start stages m) (hmem : stage ∈ stages) :
    ∃ earlier, Run plugins start earlier stage.before ∧
      Step plugins stage.before stage.event stage.after := by
  induction h with
  | start => cases hmem
  | step hrun hstep ih =>
    rcases List.mem_append.1 hmem with hmem | hmem
    · exact ih hmem
    · rw [List.mem_singleton.1 hmem]
      exact ⟨_, hrun, hstep⟩

/-! ## A small run -/

/-- Scripts that end at once, and services that do nothing. -/
def idlePlugins : Plugins Unit where
  script _ := ⟨fun _ => .pure (.ok ()), fun _ => .pure ()⟩
  service _ := fun _ => .pure (.ok ())

/-- The settings for threads of a single instruction. -/
def sampleConfig : CoreConfig := ⟨.ofProgram (.instruction (.new "a"))⟩

/-- An engine with one script and one thread, whose first run is still to come. -/
def sample : Machine Unit :=
  let registered :=
    ((opened () sampleConfig).ask (.core (.registerScript "a" ⟨"a", some [], "a"⟩))).2
  (registered.ask (.core (.createThread none))).2.drain idlePlugins 2

theorem exists_run_sample :
    ∃ stages, Run idlePlugins (opened () sampleConfig) stages sample := by
  have hregistered := (.start : Run idlePlugins (opened () sampleConfig) [] _).step
    (.ask (.core (.registerScript "a" ⟨"a", some [], "a"⟩)))
  have hcreated := hregistered.step (.ask (.core (.createThread none)))
  obtain ⟨more, hrun⟩ := hcreated.drain 2
  exact ⟨_, hrun⟩

/-- The thread of the small run, handed to a program with a nested sequence before its script has
begun. -/
def nestedSample : Machine Unit :=
  let nested : Sequence := [.sequence [.label "inner", .instruction (.new "a")]]
  ((sample.runTasks idlePlugins 4).serve idlePlugins (.execute 0 nested none)).2

theorem exists_run_nestedSample :
    ∃ stages, Run idlePlugins (opened () sampleConfig) stages nestedSample := by
  have hstack : (sample.runTasks idlePlugins 4).stack = [] := by decide
  obtain ⟨stages, hsample⟩ := exists_run_sample
  obtain ⟨more, hrunning⟩ := hsample.runTasks 4
  obtain ⟨last, hrun⟩ := hrunning.serve hstack (.execute 0 _ none)
  exact ⟨_, hrun⟩

end Machine
end SentenceEngine
