import SentenceEngine.Proofs.Points

/-!
# Programs of built-in scripts cannot go wrong

A thread whose program passed a validation against the built-in scripts runs to its end without an
error, in a bounded number of steps, and what it logs and leaves in its variables is what the
interpreter says, as long as nobody else touches it. Other threads, scripts, services and outside
callers may do what they like in between.

* `Machine.Continues`: a thread stands at one of its points.
* `Machine.Step.continues`: no step takes it elsewhere.
* `Machine.Run.interprets`: the account of a whole run.
-/

namespace SentenceEngine

variable {σ : Type}

namespace Machine

namespace Event

/-- Whether a step is one that moves a thread on. -/
def drives (id : ThreadId) : Event σ → Bool
  | .work item => item.owner? == some id
  | .task taken => taken.owner == id
  | _ => false

/-- The entry that a script of a thread writes into the log. -/
def logged? (id : ThreadId) : Event σ → Option LogEntry
  | .work (.script context (.log entry _)) => if context.thread = id then some entry else none
  | _ => none

/-- The notification that is passed on. -/
def tells? : Event σ → Option Notification
  | .work item => item.tells?
  | _ => none

end Event

variable {plugins : Plugins σ} {id : ThreadId} {after : World} {t : ThreadState}
  {said said' : List String} {told told' : Prop} {steps : Nat} {m m' : Machine σ}
  {event : Event σ} {e : Engine σ} {work : Work σ} {own : List (Work σ)} {tasks : List (Task σ)}
  {result : List (Work σ) × Engine σ}

/-! ## Steps of a thread -/

/-- What a step of a thread comes to: it stands at a point again, and has logged what the step
logs. -/
def Follows (plugins : Plugins σ) (id : ThreadId) (after : World) (event : Event σ)
    (result : List (Work σ) × Engine σ) (own : List (Work σ)) (said : List String) (told : Prop)
    (steps : Nat) : Prop :=
  ∃ said' t tasks fewer,
    said'.map (Scripts.entry id) = said.map (Scripts.entry id) ++ (event.logged? id).toList ∧
    fewer + (if event.drives id then 1 else 0) ≤ steps ∧
    Stands plugins id after result.2 t said' told (result.1.filter (·.concerns id) ++ own) tasks
      fewer

theorem follows_of_proceeds (h : Proceeds plugins id after result own said' told steps)
    (hlogged : said'.map (Scripts.entry id) =
      said.map (Scripts.entry id) ++ (event.logged? id).toList) :
    Follows plugins id after event result own said told steps := by
  obtain ⟨t, tasks, fewer, hlt, hstands⟩ := h
  refine ⟨said', t, tasks, fewer, hlogged, ?_, hstands⟩
  split <;> omega

/-- A step that logs nothing. -/
theorem follows_silent (h : Proceeds plugins id after result own said told steps)
    (hlogged : event.logged? id = none) :
    Follows plugins id after event result own said told steps := by
  refine follows_of_proceeds h ?_
  rw [hlogged, Option.toList_none, List.append_nil]

/-- The services are told of the end of a thread, one after the other. Their code goes on as long as
it has something to do. -/
theorem telling_perform {more : List (Work σ)} (h : Telling id (work :: more)) (ho : e.Owned)
    (ht : e.thread? id = some t)
    (hquiet : ∀ query, work.asks? = some query → query.touches id = false) :
    e.Apart id (perform plugins e work).2 ∧
      (Telling id ((perform plugins e work).1.filter (·.concerns id) ++ more) ∨
        (perform plugins e work).1.filter (·.concerns id) ++ more = []) := by
  have hfinal : ∀ code : Behaviour σ Empty Outcome,
      (Work.hook (.willDestroy id) code).concerns id = true := by
    intro code
    exact Work.concerns_of_tells rfl (beq_self_eq_true id)
  have goes_on : ∀ (services : ServiceSet) (todo : List (Work σ))
      (code : Behaviour σ Empty Outcome), (∀ work ∈ todo, work.concerns id = false) →
      Telling id ((todo ++ [Work.hook (.willDestroy id) code]).filter (·.concerns id) ++
        [.notify services (.willDestroy id)]) := by
    intro services todo code htodo
    have hnone : todo.filter (·.concerns id) = [] := by
      rw [List.filter_eq_nil_iff]
      intro work hwork
      simp [htodo work hwork]
    rw [List.filter_append, hnone, List.nil_append, List.filter_cons_of_pos (hfinal code)]
    exact .hook code services
  cases h with
  | notify services =>
    cases services with
    | nil => exact ⟨.refl e, .inr rfl⟩
    | cons service services =>
      refine ⟨.refl e, .inl ?_⟩
      have hown : (perform plugins e (.notify (service :: services) (.willDestroy id))).1.filter
          (·.concerns id) = [.hook (.willDestroy id) (plugins.service service (.willDestroy id)),
            .notify services (.willDestroy id)] := by
        simp [perform, Work.concerns, Work.tells?, Notification.isFinal]
      rw [hown]
      exact .hook _ services
  | hook code services =>
    cases code with
    | pure outcome =>
      cases outcome with
      | ok done => exact ⟨.refl e, .inl (.notify services)⟩
      | error failure => exact ⟨.of_eq rfl rfl rfl rfl, .inl (.notify services)⟩
    | ask query next =>
      have hharmless : e.Harmless id query := by
        intro htouches
        cases (hquiet query rfl).symm.trans htouches
      have hspares := Engine.spares_answer ho hharmless fun hnone => by
        cases hnone.symm.trans ht
      exact ⟨hspares.apart, .inl (goes_on services _ _ hspares.todo)⟩
    | log entry next =>
      exact ⟨.of_eq rfl rfl rfl rfl, .inl (goes_on services [] _ (by simp))⟩
    | update change next =>
      exact ⟨.of_eq rfl rfl rfl rfl, .inl (goes_on services [] _ (by simp))⟩
    | wait reason rest => cases reason

/-- Code of the thread itself takes it from one point to another. -/
theorem follows_script {a : Instance} {rest : List Instruction} {code : Behaviour σ Wait Outcome}
    {more : Nat} (hholds : e.Holds id t []) (hscripts : t.scripts.HoldsBuiltins)
    (hflight : ∀ a, t.inFlight = some a → plugins.script a.script = Scripts.code a.script)
    (hsound : t.Sound) (hplugins : plugins.HasBuiltins) (hflies : Flies t a rest)
    (hphase : t.phase = .running) (hfits : ∀ i ∈ a.context.instruction :: rest, i.Fits)
    (hacts : Acts a.context rest ⟨t.vars, said⟩ after code more)
    (hsteps : more + effort rest + 6 ≤ steps) :
    Follows plugins id after (.work (.script a.context code))
      (perform plugins e (.script a.context code)) [] said told steps := by
  have hthread : a.context.thread = id :=
    (hsound.ticketed a hflies.flight).1.trans hholds.number
  have hrest : ∀ i ∈ rest, i.Fits := fun i hi => hfits i (List.mem_cons_of_mem _ hi)
  -- only the log says more than before; the other steps are silent
  cases hacts with
  | @log message hleads =>
    refine follows_of_proceeds (proceeds_log hholds hscripts hflight rfl hthread hflies hphase hfits
      hleads hsteps) ?_
    simp [Event.logged?, hthread]
  | @assign entries hleads =>
    cases entries with
    | nil =>
      -- nothing is left to write
      have hgoes : Goes t said after rest := ⟨hphase, hrest, hleads⟩
      exact follows_silent (proceeds_succeed hholds hscripts hflight rfl hthread hflies hgoes
        (by simpa using hsteps)) rfl
    | cons entry entries =>
      exact follows_silent (proceeds_assign hholds hscripts hflight rfl hthread hflies hphase hfits
        hleads (by simpa using hsteps)) rfl
  | choose hi hname hleads hnext =>
    exact follows_silent (proceeds_choose hholds hscripts hflight rfl hthread hflies hphase hfits hi
      hname hleads hnext hsteps) rfl
  | handOver hprogram hleads =>
    exact follows_silent (proceeds_handOver hholds hscripts hflight hsound hplugins rfl hthread
      hflies hphase hfits hprogram hleads hsteps) rfl

/-- Each item of work of a thread takes it from one point to another. -/
theorem follows_work (h : Stands plugins id after e t said told (work :: own) tasks steps)
    (ho : e.Owned) (hsound : t.Sound) (hplugins : plugins.HasBuiltins)
    (hquiet : work.owner? = none → ∀ query, work.asks? = some query → query.touches id = false)
    (htells : work.tells? = some (.willDestroy id) → told) :
    Follows plugins id after (.work work) (perform plugins e work) own said told steps := by
  obtain ⟨hholds, hscripts, hflight, hstand⟩ := h
  have hthread : ∀ {a : Instance} {rest : List Instruction}, Flies t a rest →
      a.context.thread = id := by
    intro a rest hflies
    exact (hsound.ticketed a hflies.flight).1.trans hholds.number
  -- the item on top of the stack tells the points apart, or all but the parts of a point
  generalize hown : work :: own = mine at hstand
  cases hstand with
  | created hgoes hstarted hfree hsteps =>
    cases hown
    exact follows_silent (proceeds_start hholds hscripts hflight rfl hgoes hstarted hfree
      hsteps) rfl
  | queued => cases hown
  | @arriving _ j k stopping leftover a rest hstopping hleftover hflies hgoes hsteps =>
    cases stopping with
    | nil =>
      cases hown
      exact follows_silent (proceeds_arrive hholds hscripts hflight rfl (hthread hflies) hleftover
        hflies hgoes (by omega)) rfl
    | cons first more =>
      cases hown
      refine follows_silent (proceeds_stopping hholds hscripts hflight rfl hstopping hleftover
        hflies hgoes hsteps) ?_
      cases hstopping <;> rfl
  | spawning hleftover hflies hgoes hsteps =>
    cases hown
    exact follows_silent (proceeds_spawn hholds hscripts hflight rfl (hthread hflies) hleftover
      hflies hgoes hsteps) rfl
  | waiting hleftover hflies hgoes hsteps =>
    subst hown
    refine follows_silent (proceeds_leftover hholds hscripts hflight rfl hleftover hflies hgoes
      hsteps) ?_
    cases hleftover <;> rfl
  | acting hflies hphase hfits hacts hsteps =>
    cases hown
    exact follows_script hholds hscripts hflight hsound hplugins hflies hphase hfits hacts hsteps
  | completing hflies hgoes hsteps =>
    cases hown
    exact follows_silent (proceeds_complete hholds hscripts hflight hsound hplugins rfl
      (hthread hflies) hflies hgoes hsteps) rfl
  | exhausted hleftover hgoes hsteps =>
    cases hown
    exact follows_silent (proceeds_exhausted hholds hscripts hflight rfl hleftover hgoes hsteps) rfl
  | ending hleftover hgoes hsteps =>
    cases hown
    exact follows_silent (proceeds_destroy hholds hscripts hflight rfl hleftover hgoes hsteps) rfl
  | @telling _ k telling leftover htelling hleftover hphase hworld hsteps =>
    cases telling with
    | nil => cases htelling
    | cons first more =>
      cases hown
      -- a step of a service, which may log and ask but takes nothing of the thread's steps
      have howner : work.owner? = none := by cases htelling <;> rfl
      have hlogged : (Event.work work).logged? id = none := by cases htelling <;> rfl
      have hnotify := htelling.tells List.mem_cons_self
      obtain ⟨hapart, hnext⟩ := telling_perform htelling ho hholds.thread (hquiet howner)
      refine ⟨said, t, [], steps, ?_, ?_, hholds.apart hapart, hscripts, hflight, ?_⟩
      · rw [hlogged, Option.toList_none, List.append_nil]
      · simp [Event.drives, howner]
      · rw [List.append_eq, ← List.append_assoc]
        rcases hnext with hnext | hdone
        · exact .telling hnext hleftover hphase hworld hsteps
        · rw [hdone]
          exact .clearing hleftover hphase hworld (htells hnotify) hsteps
  | clearing hleftover hphase hworld htold hsteps =>
    cases hown
    exact follows_silent (proceeds_clear hholds hscripts hflight hsound rfl hleftover hworld htold
      hsteps) rfl
  | @releasing _ j k stopping leftover hstopping hleftover hphase hsaid htold hsteps =>
    cases stopping with
    | nil =>
      cases hown
      exact follows_silent (proceeds_release hholds hscripts hflight rfl hleftover hphase hsaid
        htold (by omega)) rfl
    | cons first more =>
      cases hown
      refine follows_silent (proceeds_abort hholds hscripts hflight rfl hstopping hleftover hphase
        hsaid htold hsteps) ?_
      cases hstopping <;> rfl
  | ended hleftover hphase hended hsaid htold hsteps =>
    subst hown
    refine follows_silent (proceeds_ended hholds hscripts hflight rfl hleftover hphase hended hsaid
      htold hsteps) ?_
    cases hleftover <;> rfl

/-- Each task of a thread takes it from one point to another. -/
theorem follows_task {task : Task σ} {before rest : List (Task σ)}
    (h : Stands plugins id after e t said told [] tasks steps) (hsound : t.Sound)
    (hplugins : plugins.HasBuiltins) (hqueue : e.queue = before ++ task :: rest)
    (howner : task.owner = id) :
    Follows plugins id after (.task task)
      ((take plugins { e with queue := before ++ rest } task).stack,
        (take plugins { e with queue := before ++ rest } task).engine) [] said told steps := by
  obtain ⟨hholds, hscripts, hflight, hstand⟩ := h
  have hidle : tasks ≠ [] := by
    rintro rfl
    exact hholds.not_take hqueue howner
  generalize hown : ([] : List (Work σ)) = mine at hstand
  cases hstand with
  | queued hgoes hstarted hfree hsteps =>
    obtain ⟨rfl, hdropped⟩ := hholds.take hqueue howner
    exact follows_silent (proceeds_resume hdropped hscripts hflight hsound hplugins rfl hgoes
      hstarted hfree hsteps) rfl
  | waiting hleftover hflies hgoes hsteps =>
    subst hown
    obtain ⟨rfl, hdropped⟩ := hholds.take hqueue howner
    exact follows_silent (proceeds_begin hdropped hscripts hflight rfl howner hflies hgoes
      (by omega)) rfl
  | _ => exact absurd rfl hidle

/-! ## Steps -/

/-- A thread stands at a point from which it takes a bounded number of steps. -/
def Continues (plugins : Plugins σ) (id : ThreadId) (after : World) (m : Machine σ)
    (said : List String) (told : Prop) (steps : Nat) : Prop :=
  ∃ t tasks, Stands plugins id after m.engine t said told (m.stackOf id) tasks steps

theorem Event.drives_of_not_concerns (h : event.concerns id = false) :
    event.drives id = false := by
  cases event with
  | work item =>
    have hnone : (item.owner? == some id) = false := by
      have hboth : item.concerns id = false := h
      rw [Work.concerns, Bool.or_eq_false_iff] at hboth
      exact hboth.1
    exact hnone
  | task taken => exact h
  | _ => rfl

theorem Event.logged?_of_not_concerns (h : event.concerns id = false) :
    event.logged? id = none := by
  unfold Event.logged?
  split
  · split
    next hthread =>
      have howner := Event.drives_of_not_concerns h
      simp [Event.drives, Work.owner?, hthread] at howner
    next => rfl
  · rfl

/-- No step takes a thread away from its points, as long as nobody else touches it. -/
theorem Step.continues (h : Step plugins m event m') (hm : Invariant m)
    (hplugins : plugins.HasBuiltins) (hbefore : Continues plugins id after m said told steps)
    (hquiet : event.drives id = false →
      ∀ query, event.asks? = some query → query.touches id = false)
    (htold : told → told') (htells : event.tells? = some (.willDestroy id) → told') :
    ∃ said' fewer,
      said'.map (Scripts.entry id) = said.map (Scripts.entry id) ++ (event.logged? id).toList ∧
      fewer + (if event.drives id then 1 else 0) ≤ steps ∧
      Continues plugins id after m' said' told' fewer := by
  obtain ⟨t, tasks, hholds, hscripts, hflight, hstand⟩ := hbefore
  have hstands : Stands plugins id after m.engine t said told' (m.stackOf id) tasks steps :=
    ⟨hholds, hscripts, hflight, hstand.of_told htold⟩
  have hsound : t.Sound := hm.sound hholds.thread
  rcases hconcerns : event.concerns id with _ | _
  · -- what does not concern the thread leaves it at its point
    have hdrives := Event.drives_of_not_concerns hconcerns
    have hharmless : ∀ query, event.asks? = some query → m.engine.Harmless id query := by
      intro query hasks htouches
      cases (hquiet hdrives query hasks).symm.trans htouches
    obtain ⟨hapart, hstack⟩ := h.spares hm hconcerns hharmless fun hnone => by
      cases hnone.symm.trans hholds.thread
    refine ⟨said, steps, ?_, ?_, t, tasks, hholds.apart hapart, hscripts, hflight, ?_⟩
    · rw [Event.logged?_of_not_concerns hconcerns, Option.toList_none, List.append_nil]
    · simp [hdrives]
    · rw [hstack]
      exact hstands.stand
  · -- what concerns it is the first of its items, or its only task
    cases h with
    | @work e work rest =>
      have hown : stackOf ⟨e, work :: rest⟩ id = work :: rest.filter (·.concerns id) :=
        List.filter_cons_of_pos hconcerns
      rw [hown] at hstands
      have hforeign : work.owner? = none →
          ∀ query, work.asks? = some query → query.touches id = false := by
        intro howner
        apply hquiet
        simp [Event.drives, howner]
      obtain ⟨said', t', tasks', fewer, hlogged, hfewer, hstands'⟩ :=
        follows_work hstands hm.owned hsound hplugins hforeign htells
      refine ⟨said', fewer, hlogged, hfewer, t', tasks', ?_⟩
      rw [stackOf, List.filter_append]
      exact hstands'
    | @task e before rest task hqueue =>
      have howner : task.owner = id := beq_iff_eq.1 hconcerns
      obtain ⟨said', t', tasks', fewer, hlogged, hfewer, hstands'⟩ :=
        follows_task hstands hsound hplugins hqueue howner
      refine ⟨said', fewer, hlogged, hfewer, t', tasks', ?_⟩
      rw [List.append_nil] at hstands'
      exact hstands'
    | _ => cases hconcerns

/-! ## No endless runs -/

/-- A run without an end in which only services act, and do not call back. -/
def EndlessServices (plugins : Plugins σ) (f : Nat → Machine σ) : Prop :=
  ∀ n, ∃ item, Step plugins (f n) (.work item) (f (n + 1)) ∧ item.owner? = none ∧
    item.asks? = none

theorem EndlessServices.shift {f : Nat → Machine σ} (h : EndlessServices plugins f) (k : Nat) :
    EndlessServices plugins fun n => f (n + k) := by
  intro n
  have hstep := h (n + k)
  rwa [Nat.add_right_comm] at hstep

theorem EndlessServices.next {f : Nat → Machine σ} {rest : List (Work σ)}
    (h : EndlessServices plugins f) (hstart : f 0 = ⟨e, work :: rest⟩) :
    f 1 = ⟨(perform plugins e work).2, (perform plugins e work).1 ++ rest⟩ ∧
      work.owner? = none ∧ work.asks? = none := by
  obtain ⟨item, hstep, howner, hasks⟩ := h 0
  rw [hstart] at hstep
  generalize hnext : f (0 + 1) = m' at hstep
  cases hstep
  exact ⟨rfl, howner, hasks⟩

/-- An item of work that services are done with at some time. -/
def Finishes (plugins : Plugins σ) (work : Work σ) : Prop :=
  ∀ f e rest, EndlessServices plugins f → f 0 = ⟨e, work :: rest⟩ → ∃ k, (f k).stack = rest

/-- Code of a service that does not call back comes to an end. -/
theorem finishes_hook (notification : Notification) (code : Behaviour σ Empty Outcome) :
    Finishes plugins (.hook notification code) := by
  induction code with
  | pure outcome =>
    intro f e rest h hstart
    refine ⟨1, ?_⟩
    rw [(h.next hstart).1]
    cases outcome <;> rfl
  | ask query next ih =>
    -- this would call back
    intro f e rest h hstart
    cases (h.next hstart).2.2
  | log entry next ih =>
    intro f e rest h hstart
    obtain ⟨k, hk⟩ := ih _ _ rest (h.shift 1) (h.next hstart).1
    exact ⟨k + 1, hk⟩
  | update change next ih =>
    intro f e rest h hstart
    obtain ⟨k, hk⟩ := ih _ _ _ rest (h.shift 1) (h.next hstart).1
    exact ⟨k + 1, hk⟩
  | wait reason next ih => cases reason

theorem finishes_notify (services : ServiceSet) (notification : Notification) :
    Finishes plugins (.notify services notification) := by
  induction services with
  | nil =>
    intro f e rest h hstart
    refine ⟨1, ?_⟩
    rw [(h.next hstart).1]
    rfl
  | cons service services ih =>
    intro f e rest h hstart
    -- the first service is done after some steps, and then the others are told
    obtain ⟨k, hk⟩ := finishes_hook notification _ _ _ _ (h.shift 1) (h.next hstart).1
    obtain ⟨j, hj⟩ := ih _ (f (k + 1)).engine rest (h.shift (k + 1)) (by
      rw [Nat.zero_add]
      exact congrArg (Machine.mk _) hk)
    exact ⟨j + (k + 1), hj⟩

theorem finishes_of_owner (howner : work.owner? = none) : Finishes plugins work := by
  intro f e rest h hstart
  cases work with
  | hook notification code => exact finishes_hook notification code f e rest h hstart
  | notify services notification => exact finishes_notify services notification f e rest h hstart
  | announce notification =>
    obtain ⟨k, hk⟩ := finishes_notify _ notification _ _ rest (h.shift 1) (h.next hstart).1
    exact ⟨k + 1, hk⟩
  | reopen =>
    refine ⟨1, ?_⟩
    rw [(h.next hstart).1]
    rfl
  | arrive other arrival => cases arrival <;> cases howner
  | _ => cases howner

/-- Services that do not call back are done at some time. -/
theorem not_endlessServices (f : Nat → Machine σ) : ¬ EndlessServices plugins f := by
  suffices h : ∀ stack f, (f 0).stack = stack → ¬ EndlessServices plugins f from h _ f rfl
  intro stack
  induction stack with
  | nil =>
    intro f hstack h
    obtain ⟨item, hstep, -⟩ := h 0
    generalize f 0 = m at hstep hstack
    generalize f (0 + 1) = m' at hstep
    cases hstep
    cases hstack
  | cons work rest ih =>
    intro f hstack h
    have hstart : f 0 = ⟨(f 0).engine, work :: rest⟩ := by rw [← hstack]
    obtain ⟨k, hk⟩ := finishes_of_owner (h.next hstart).2.1 f _ rest h hstart
    exact ih (fun n => f (n + k)) (by rwa [Nat.zero_add]) (h.shift k)

/-- A step of a thread, or one of a service that does not call back. -/
def Event.Within (id : ThreadId) (event : Event σ) : Prop :=
  event.drives id = true ∨ ∃ item, event = .work item ∧ item.owner? = none ∧ item.asks? = none

theorem Event.Within.quiet (h : event.Within id) (hdrives : event.drives id = false) :
    event.asks? = none := by
  rcases h with hown | ⟨item, rfl, -, hasks⟩
  · cases hdrives.symm.trans hown
  · exact hasks

/-- A thread that stands at a point takes its steps and is done, unless others go on for ever. -/
theorem Continues.finite (h : Continues plugins id after m said told steps) (hm : Invariant m)
    (hplugins : plugins.HasBuiltins) (f : Nat → Machine σ) (hstart : f 0 = m) :
    ¬ ∀ n, ∃ event, Step plugins (f n) event (f (n + 1)) ∧ event.Within id := by
  induction steps using Nat.strongRecOn generalizing m said told f with
  | ind steps ih =>
    intro hall
    -- the point of the thread at every time, with no more steps than before
    have hpoint : ∀ n, Invariant (f n) ∧ ∃ said told fewer, fewer ≤ steps ∧
        Continues plugins id after (f n) said told fewer := by
      intro n
      induction n with
      | zero =>
        rw [hstart]
        exact ⟨hm, said, told, steps, Nat.le_refl _, h⟩
      | succ n ihn =>
        obtain ⟨hinv, said, told, fewer, hle, hcontinues⟩ := ihn
        obtain ⟨event, hstep, hwithin⟩ := hall n
        have hquiet : event.drives id = false →
            ∀ query, event.asks? = some query → query.touches id = false := by
          intro hdrives query hasks
          cases (hwithin.quiet hdrives).symm.trans hasks
        obtain ⟨said', less, -, hless, hcontinues'⟩ := hstep.continues hinv hplugins hcontinues
          hquiet (fun _ => trivial) (fun _ => trivial)
        exact ⟨hstep.invariant hinv, said', True, less, by omega, hcontinues'⟩
    by_cases hdrives : ∃ n event, Step plugins (f n) event (f (n + 1)) ∧ event.drives id = true
    · -- after a step of the thread fewer are left
      obtain ⟨n, event, hstep, hdrives⟩ := hdrives
      obtain ⟨hinv, said, told, fewer, hle, hcontinues⟩ := hpoint n
      have hquiet : event.drives id = false →
          ∀ query, event.asks? = some query → query.touches id = false := by
        intro hother
        cases hdrives.symm.trans hother
      obtain ⟨said', less, -, hless, hcontinues'⟩ := hstep.continues hinv hplugins hcontinues
        hquiet (fun _ => trivial) (fun _ => trivial)
      rw [if_pos hdrives] at hless
      refine ih less (by omega) hcontinues' (hstep.invariant hinv) (fun k => f (k + (n + 1))) ?_ ?_
      · rw [Nat.zero_add]
      · intro k
        have hnext := hall (k + (n + 1))
        rwa [Nat.add_right_comm] at hnext
    · -- otherwise only services act
      have hservices : EndlessServices plugins f := by
        intro n
        obtain ⟨event, hstep, hown | ⟨item, rfl, howner, hasks⟩⟩ := hall n
        · exact absurd ⟨n, event, hstep, hown⟩ hdrives
        · exact ⟨item, hstep, howner, hasks⟩
      exact not_endlessServices f hservices

/-! ## Runs -/

/-- A thread that comes into being has its first run to come, and nothing else. -/
theorem Creates.born {overrides : Option ThreadConfig} {program : Sentence} {services : ServiceSet}
    (h : Creates m event id t overrides program services) (hstep : Step plugins m event m')
    (hunborn : Unborn id m) (ht : m'.engine.thread? id = some t) :
    m'.stackOf id = [.start id] ∧ m'.engine.Holds id t [] := by
  obtain ⟨hengine, hstack⟩ := hstep.asked h.asks (hunborn.not_concerns hstep)
  have hid : t.id = id := by
    obtain ⟨start, -, -, rfl⟩ := ThreadState.create_eq_ok h.create
    rfl
  -- an engine that was let go creates no threads
  have halive : m.engine.alive = true := by
    rcases hdead : m.engine.alive with _ | _
    · simp only [Engine.answer, hdead, Bool.false_eq_true, if_false] at hengine
      rw [hengine] at ht
      cases hunborn.thread.symm.trans ht
    · rfl
  simp only [Engine.answer, halive, if_true, Engine.answerCore] at hengine hstack
  rw [hengine] at ht
  obtain ⟨htodo, hawake, htasks⟩ :=
    Engine.born_createThread hunborn.thread ht hunborn.awake
  rw [htodo, hunborn.stack] at hstack
  refine ⟨hstack, ?_, hid, ?_, ?_⟩
  · rw [hengine]
    exact ht
  · rw [hengine]
    exact hawake
  · rw [hengine, htasks]
    exact hunborn.tasks

/-- What a thread has come to and what it has still to come to, in a run from its creation on. -/
def Accounts (plugins : Plugins σ) (id : ThreadId) (after : World) (most : Nat)
    (stages : List (Stage σ)) (m : Machine σ) : Prop :=
  ∃ said steps,
    stages.filterMap (·.event.logged? id) = said.map (Scripts.entry id) ∧
    steps + stages.countP (·.event.drives id) ≤ most ∧
    Continues plugins id after m said
      (∃ s ∈ stages, s.event.tells? = some (.willDestroy id)) steps

/-- Nobody but a thread itself asks for a change of it. -/
def Untouched (id : ThreadId) (stages : List (Stage σ)) : Prop :=
  ∀ s ∈ stages, s.event.drives id = false →
    ∀ query, s.event.asks? = some query → query.touches id = false

theorem Accounts.step {most : Nat} {stages : List (Stage σ)}
    (h : Accounts plugins id after most stages m) (hm : Invariant m)
    (hplugins : plugins.HasBuiltins) (hstep : Step plugins m event m')
    (hquiet : event.drives id = false →
      ∀ query, event.asks? = some query → query.touches id = false) :
    Accounts plugins id after most (stages ++ [⟨m, event, m'⟩]) m' := by
  obtain ⟨said, steps, hlogged, hsteps, hcontinues⟩ := h
  let last : Stage σ := ⟨m, event, m'⟩
  have htold : (∃ s ∈ stages, s.event.tells? = some (.willDestroy id)) →
      ∃ s ∈ stages ++ [last], s.event.tells? = some (.willDestroy id) := by
    rintro ⟨s, hs, htells⟩
    exact ⟨s, List.mem_append_left _ hs, htells⟩
  have htells : event.tells? = some (.willDestroy id) →
      ∃ s ∈ stages ++ [last], s.event.tells? = some (.willDestroy id) :=
    fun htells => ⟨last, List.mem_append_right _ (List.mem_singleton.2 rfl), htells⟩
  obtain ⟨said', fewer, hsaid, hfewer, hcontinues'⟩ :=
    hstep.continues hm hplugins hcontinues hquiet htold htells
  refine ⟨said', fewer, ?_, ?_, hcontinues'⟩
  · have hentry : [last].filterMap (·.event.logged? id) = (event.logged? id).toList := by
      rcases hlast : event.logged? id with _ | entry <;> simp [last, hlast]
    rw [List.filterMap_append, hlogged, hsaid, hentry]
  · have hcount : (stages ++ [last]).countP (·.event.drives id) =
        stages.countP (·.event.drives id) + if event.drives id then 1 else 0 := by
      rw [List.countP_append, List.countP_singleton]
    show fewer + (stages ++ [last]).countP (·.event.drives id) ≤ most
    rw [hcount]
    omega

theorem Untouched.snoc {stages : List (Stage σ)} {s : Stage σ} (h : Untouched id stages)
    (hquiet : s.event.drives id = false →
      ∀ query, s.event.asks? = some query → query.touches id = false) :
    Untouched id (stages ++ [s]) := by
  intro s' hs'
  rcases List.mem_append.1 hs' with hs' | hs'
  · exact h s' hs'
  · rw [List.mem_singleton.1 hs']
    exact hquiet

end Machine
end SentenceEngine
