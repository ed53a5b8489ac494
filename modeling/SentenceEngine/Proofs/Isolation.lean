import SentenceEngine.Proofs.Steps

/-!
# Threads leave each other alone

Every item of work and every task belongs to one thread or to none, and what belongs to one thread
leaves the others as they are: their states, their work on the stack, their tasks and their waiting
scripts. Requests are the only way out: a script, a service or an outside caller can ask for a
change of any thread.

* `Work.concerns`, `Task.owner`: what belongs to a thread.
* `Query.touches`: the requests that can change a thread.
* `Engine.Apart`, `Machine.Step.spares`: what stays as it is.
* `Machine.Unborn`: how things are before a thread is created.
-/

namespace SentenceEngine

variable {σ : Type}

/-! ## Ownership -/

/-- The thread that a task belongs to. -/
def Task.owner : Task σ → ThreadId
  | .start id => id
  | .begin script => script.context.thread
  | .resume context _ => context.thread

/-- The notifications that tell of the end or the failure of a thread. -/
def Notification.isFinal (id : ThreadId) : Notification → Bool
  | .willDestroy other => other == id
  | .error other _ => other == id
  | _ => false

namespace Work

/-- The thread that an item of work moves on. -/
def owner? : Work σ → Option ThreadId
  | .script context _ => some context.thread
  | .abortHook context _ => some context.thread
  | .abort aborted => some aborted.context.thread
  | .arrive _ (.dispatch dispatched) => some dispatched.context.thread
  | .arrive id _ => some id
  | .spawn spawned => some spawned.context.thread
  | .complete context => some context.thread
  | .fail id _ => some id
  | .destroy id => some id
  | .clear id => some id
  | .release id => some id
  | .start id => some id
  | _ => none

/-- The notification that an item of work passes on. -/
def tells? : Work σ → Option Notification
  | .hook notification _ => some notification
  | .notify _ notification => some notification
  | .announce notification => some notification
  | _ => none

/-- Whether an item of work moves a thread on, or tells of its end or its failure. -/
def concerns (id : ThreadId) (work : Work σ) : Bool :=
  work.owner? == some id || work.tells?.any (·.isFinal id)

theorem concerns_of_owner {id : ThreadId} {work : Work σ} (h : work.owner? = some id) :
    work.concerns id = true := by
  simp [concerns, h]

theorem concerns_of_tells {id : ThreadId} {notification : Notification} {work : Work σ}
    (h : work.tells? = some notification) (hfinal : notification.isFinal id = true) :
    work.concerns id = true := by
  simp [concerns, h, hfinal]

/-- Code that goes on is about the same threads. -/
theorem Continues.concerns {e : Engine σ} {id : ThreadId} {work next : Work σ}
    (h : work.Continues e next) : next.concerns id = work.concerns id := by
  cases h <;> rfl

theorem filter_own {id : ThreadId} {work : Work σ} (h : work.owner? = some id) :
    [work].filter (·.concerns id) = [work] := by
  simp [concerns_of_owner h]

/-- What the services are told of on the way to the next item concerns nobody. -/
theorem filter_told {id : ThreadId} {services : ServiceSet} {notification : Notification}
    {work : Work σ} (hsilent : notification.isFinal id = false) (h : work.owner? = some id) :
    [.notify services notification, work].filter (·.concerns id) = [work] := by
  have hnotify : (Work.notify services notification : Work σ).concerns id = false := by
    simp [concerns, owner?, tells?, hsilent]
  simp [hnotify, concerns_of_owner h]

end Work

/-- Whether a request can change a thread that is there. -/
def Query.touches (id : ThreadId) : Query → Bool
  | .setVar other _ _ => other == id
  | .execute other _ _ => other == id
  | .transfer context _ _ => context.thread == id
  | .destroy other => other == id
  | .core .destroyAll => true
  | .core .destroyCore => true
  | _ => false

/-- The cursor machine dispatches for its own thread. -/
theorem ThreadState.thread_of_dispatch {t : ThreadState} {a : Instance}
    (h : t.run.1.arrival = .dispatch a) : a.context.thread = t.id := by
  unfold run at h
  split at h
  · cases h
  · split at h
    · cases h
    · cases h
    · split at h
      · cases h
      · cases h
        rfl

namespace Engine

variable {e e' e'' : Engine σ} {id other : ThreadId}

/-- The tasks of a thread, in order. -/
def tasksOf (e : Engine σ) (id : ThreadId) : List (Task σ) := e.queue.filter (·.owner == id)

/-- No script of a thread waits. -/
def Awake (e : Engine σ) (id : ThreadId) : Prop := ∀ s ∈ e.suspended, s.context.thread ≠ id

/-- A change of the engine that leaves one thread alone. -/
structure Apart (id : ThreadId) (e e' : Engine σ) : Prop where
  thread : e'.thread? id = e.thread? id
  active : id ∉ e.active → id ∉ e'.active
  awake : e.Awake id → e'.Awake id
  tasks : e.Awake id → e'.tasksOf id = e.tasksOf id

theorem Apart.of_eq (hthreads : e'.threads = e.threads) (hactive : e'.active = e.active)
    (hsuspended : e'.suspended = e.suspended) (hqueue : e'.queue = e.queue) : e.Apart id e' where
  thread := by rw [thread?, thread?, hthreads]
  active := by
    intro h
    rwa [hactive]
  awake := by
    intro h
    rwa [Awake, hsuspended]
  tasks := by
    intro _
    rw [tasksOf, tasksOf, hqueue]

theorem Apart.refl (e : Engine σ) : e.Apart id e := .of_eq rfl rfl rfl rfl

theorem Apart.trans (h : e.Apart id e') (h' : e'.Apart id e'') : e.Apart id e'' where
  thread := h'.thread.trans h.thread
  active := fun hactive => h'.active (h.active hactive)
  awake := fun hawake => h'.awake (h.awake hawake)
  tasks := fun hawake => (h'.tasks (h.awake hawake)).trans (h.tasks hawake)

theorem apart_setThread {t : ThreadState} (hne : t.id ≠ id) : e.Apart id (e.setThread t) where
  thread := thread?_setThread_ne (Ne.symm hne)
  active := fun h => h
  awake := fun h => h
  tasks := fun _ => rfl

theorem apart_modifyThread {f : ThreadState → ThreadState} (hn : e.Numbered) (hne : other ≠ id)
    (hf : ∀ t : ThreadState, (f t).id = t.id) : e.Apart id (e.modifyThread other f) := by
  rcases ht : e.thread? other with _ | t
  · rw [modifyThread_none ht]
    exact .refl e
  · rw [modifyThread_eq ht]
    apply apart_setThread
    rwa [hf, hn _ _ ht]

theorem apart_enqueue {task : Task σ} (hne : task.owner ≠ id) : e.Apart id (e.enqueue task) where
  thread := rfl
  active := fun h => h
  awake := fun h => h
  tasks := by
    intro _
    simp [tasksOf, enqueue, List.filter_append, hne]

/-- The first run of a thread is no task of another one. -/
theorem tasksOf_filter_start (hne : other ≠ id) :
    (e.queue.filter fun task => !task.isStartOf other).filter (·.owner == id) = e.tasksOf id := by
  rw [tasksOf, List.filter_filter]
  apply List.filter_congr
  intro task _
  cases task with
  | start third =>
    by_cases hthird : third = id
    · subst hthird
      simp [Task.owner, Task.isStartOf, Ne.symm hne]
    · simp [Task.owner, hthird]
  | begin script => simp [Task.owner, Task.isStartOf]
  | resume context rest => simp [Task.owner, Task.isStartOf]

theorem apart_dropStart (hn : e.Numbered) (hne : other ≠ id) : e.Apart id (e.dropStart other) := by
  unfold dropStart
  split
  · let dropped : Engine σ := { e with queue := e.queue.filter fun task => !task.isStartOf other }
    have hdropped : e.Apart id dropped :=
      ⟨rfl, fun h => h, fun h => h, fun _ => tasksOf_filter_start hne⟩
    exact hdropped.trans (apart_modifyThread hn hne fun _ => rfl)
  · exact .refl e

theorem apart_wakeCancelled (meant : Context → Bool) : e.Apart id (e.wakeCancelled meant) where
  thread := rfl
  active := fun h => h
  awake := by
    intro h s hs
    exact h s (List.mem_filter.1 hs).1
  tasks := by
    intro h
    simp only [tasksOf, wakeCancelled, List.filter_append]
    -- no script of the thread waits, so none of the tasks that are added is its own
    have hnone : ∀ task ∈ (e.suspended.filter fun s =>
        s.reason == .cancellation && meant s.context).map Suspended.wake,
        ¬ (task.owner == id) = true := by
      intro task htask
      obtain ⟨s, hs, rfl⟩ := List.mem_map.1 htask
      simpa [Suspended.wake, Task.owner] using h s (List.mem_filter.1 hs).1
    rw [List.filter_eq_nil_iff.2 hnone, List.append_nil]

theorem apart_cancel (hn : e.Numbered) {context : Context} (hne : context.thread ≠ id) :
    e.Apart id (e.cancel context) := by
  have hmarked : e.Apart id (e.modifyThread context.thread fun t =>
      { t with cancelled := context.ticket :: t.cancelled }) :=
    apart_modifyThread hn hne fun _ => rfl
  exact hmarked.trans (apart_wakeCancelled fun c =>
    c.thread == context.thread && c.ticket == context.ticket)

theorem apart_release (hn : e.Numbered) (hne : other ≠ id) : e.Apart id (e.release other) := by
  have hended : e.Apart id (e.modifyThread other fun t => { t with ended := true }) :=
    apart_modifyThread hn hne fun _ => rfl
  have hwoken := hended.trans (apart_wakeCancelled fun c => c.thread == other)
  refine hwoken.trans ⟨rfl, ?_, fun h => h, fun _ => rfl⟩
  intro h hmem
  exact h (List.mem_filter.1 hmem).1

theorem apart_handPermits (tag : String) (count : Nat) : e.Apart id (e.handPermits tag count) := by
  induction count generalizing e with
  | zero => exact .refl e
  | succ count ih =>
    unfold handPermits
    dsimp only
    split
    next s hs =>
      let handed : Engine σ := { e.enqueue s.wake with
        suspended := e.suspended.eraseP fun s => s.reason == .permit tag }
      have hhanded : e.Apart id handed := by
        refine ⟨rfl, fun h => h, ?_, ?_⟩
        · intro h s' hs'
          exact h s' (List.mem_of_mem_eraseP hs')
        · intro h
          have hne : s.context.thread ≠ id := h s (List.mem_of_find?_eq_some hs)
          simp [handed, tasksOf, enqueue, List.filter_append, Suspended.wake, Task.owner, hne]
      exact hhanded.trans ih
    next => exact .refl e

theorem apart_givePermits (tag : String) (count : Nat) : e.Apart id (e.givePermits tag count) :=
  (apart_handPermits _ _).trans (.of_eq rfl rfl rfl rfl)

/-! ## Requests -/

/-- Every thread stands under its own number, and the script in flight of each belongs to it. -/
def Owned (e : Engine σ) : Prop := ∀ id t, e.thread? id = some t → t.id = id ∧ t.Ticketed

theorem Owned.numbered (h : e.Owned) : e.Numbered := fun id t ht => (h id t ht).1

/-- The script in flight of a thread concerns no other thread. -/
theorem Owned.inFlight (h : e.Owned) {t : ThreadState} (ht : e.thread? other = some t)
    {a : Instance} (ha : t.inFlight = some a) : a.context.thread = other := by
  obtain ⟨hid, hticketed⟩ := h other t ht
  exact (hticketed a ha).1.trans hid

theorem not_concerns_of_owner {work : Work σ} (howner : work.owner? = some other)
    (htells : work.tells? = none) (hne : other ≠ id) : work.concerns id = false := by
  simp [Work.concerns, howner, htells, hne]

/-- A request that leaves a thread alone: it touches others only, or the thread is not there. -/
def Harmless (e : Engine σ) (id : ThreadId) (query : Query) : Prop :=
  query.touches id = true → e.thread? id = none ∧ id ∉ e.active

/-- A change of the engine that leaves one thread alone, also by the work that follows. -/
structure Spares (id : ThreadId) (e : Engine σ) (todo : List (Work σ)) (e' : Engine σ) : Prop where
  apart : e.Apart id e'
  todo : ∀ work ∈ todo, work.concerns id = false

theorem Apart.spares (h : e.Apart id e') : e.Spares id [] e' := ⟨h, by simp⟩

theorem Apart.spares_one (h : e.Apart id e') {work : Work σ} (hwork : work.concerns id = false) :
    e.Spares id [work] e' := ⟨h, by simpa using hwork⟩

/-- What a thread that moves leaves to do is its own. -/
theorem owner_advanceWork {t p : ThreadState} (ho : e.Owned) (ht : e.thread? other = some t)
    {move : Move} (hprep : t.Prepares move p) {work : Work σ}
    (hwork : work ∈ advanceWork other p.run.1) :
    work.owner? = some other ∧ work.tells? = none := by
  have harrive : (.arrive other p.run.1.arrival : Work σ).owner? = some other := by
    rcases harrival : p.run.1.arrival with _ | _ | _ | a
    · rfl
    · rfl
    · rfl
    · have hid := (hprep.kin.id.symm.trans (ho other t ht).1)
      exact congrArg some ((ThreadState.thread_of_dispatch harrival).trans hid)
  unfold advanceWork at hwork
  split at hwork
  next a ha =>
    -- the script that loses its place was in flight in the same thread
    have hflight : t.inFlight = some a := by
      have hbefore := ThreadState.aborted_run ha
      cases hprep with
      | resumed => exact hbefore
      | executed => exact hbefore
      | completed => cases hbefore
    rcases List.mem_cons.1 hwork with rfl | hmem
    · exact ⟨congrArg some (ho.inFlight ht hflight), rfl⟩
    · rw [List.mem_singleton.1 hmem]
      exact ⟨harrive, rfl⟩
  next =>
    rw [List.mem_singleton.1 hwork]
    exact ⟨harrive, rfl⟩

theorem advanceWork_spares {t : ThreadState} (ho : e.Owned) (hne : other ≠ id)
    {p : ThreadState} (ht : e.thread? other = some t) {move : Move} (hprep : t.Prepares move p)
    {work : Work σ} (hwork : work ∈ advanceWork other p.run.1) : work.concerns id = false := by
  obtain ⟨howner, htells⟩ := owner_advanceWork ho ht hprep hwork
  exact not_concerns_of_owner howner htells hne

theorem spares_transfer (ho : e.Owned) {caller : Option Context} {program : Sequence}
    {entry : Option String} (hne : e.thread? id = none ∨ other ≠ id) :
    e.Spares id (e.transfer other caller program entry).todo
      (e.transfer other caller program entry).engine := by
  unfold transfer
  split
  · exact (Apart.refl e).spares
  next t ht =>
    split
    · exact (Apart.refl e).spares
    next advance s htransfer =>
      obtain ⟨p, hprep, hrun⟩ := ThreadState.transfer_eq_ok htransfer
      have hother : other ≠ id := by
        rcases hne with hnone | hother
        · rintro rfl
          cases hnone.symm.trans ht
        · exact hother
      have hid : s.id = other := by
        have hkin := hprep.kin_run.id
        rw [hrun] at hkin
        exact hkin.symm.trans (ho other t ht).1
      have hset : e.Apart id (e.setThread s) := apart_setThread (by rwa [hid])
      constructor
      · exact hset.trans (apart_dropStart (numbered_setThread ho.numbered) hother)
      · intro work hwork
        have hrun' : p.run.1 = advance := congrArg Prod.fst hrun
        rw [← hrun'] at hwork
        exact advanceWork_spares ho hother ht hprep hwork

theorem apart_validateFor (program : Sentence) (replaced : Bool) :
    e.Apart id (e.validateFor program replaced).2 := by
  obtain ⟨log, validated, hvalidate⟩ := validateFor_eq (e := e) program replaced
  rw [hvalidate]
  exact .of_eq rfl rfl rfl rfl

theorem thread?_addThread_ne {index : Nat} (hne : index ≠ e.threads.length) (t : ThreadState) :
    (e.addThread t).thread? index = e.thread? index := by
  by_cases hlt : index < e.threads.length
  · simp [thread?, addThread, List.getElem?_append_left hlt]
  · have hgt : e.threads.length < index := by omega
    have hend : (e.threads ++ [t]).length ≤ index := by
      rw [List.length_append, List.length_singleton]
      omega
    rw [thread?, thread?, List.getElem?_eq_none (Nat.le_of_lt hgt)]
    exact List.getElem?_eq_none hend

/-- A new thread leaves those alone that were there before. -/
theorem spares_createThread {overrides : Option ThreadConfig}
    (hnew : e.thread? id = none → (e.createThread overrides).engine.thread? id = none) :
    e.Spares id (e.createThread overrides).todo (e.createThread overrides).engine := by
  revert hnew
  unfold createThread
  dsimp only
  split
  · intro _
    exact (Apart.refl e).spares
  next program hprogram =>
    have hvalidate : e.Apart id
        (e.validateFor program (overrides.getD .empty).sentences.isSome).2 :=
      apart_validateFor program _
    split
    next error e₁ hresult =>
      intro _
      rw [hresult] at hvalidate
      exact hvalidate.spares
    next e₁ hresult =>
      rw [hresult] at hvalidate
      split
      · intro _
        exact hvalidate.spares
      next t hcreate =>
        intro hnew
        obtain ⟨start, -, -, rfl⟩ := ThreadState.create_eq_ok hcreate
        have hlast : ∀ s : ThreadState, (e₁.addThread s).thread? e₁.threads.length = some s := by
          intro s
          simp [thread?, addThread]
        -- the new thread is not the one in question, which would have come into being
        have hne : @Ne Nat e₁.threads.length id := by
          intro heq
          have hnone : e.thread? id = none := by
            rw [← hvalidate.thread, ← heq]
            simp [thread?]
          have hmissing := hnew hnone
          rw [← heq] at hmissing
          cases (hlast _).symm.trans hmissing
        constructor
        · refine hvalidate.trans ⟨?_, ?_, fun h => h, fun _ => rfl⟩
          · exact thread?_addThread_ne (Ne.symm hne) _
          · intro h hmem
            rcases List.mem_append.1 hmem with hmem | hmem
            · exact h hmem
            · exact hne (List.mem_singleton.1 hmem).symm
        · intro work hwork
          simp only [List.mem_cons, List.not_mem_nil, or_false] at hwork
          rcases hwork with rfl | rfl
          · rfl
          · exact not_concerns_of_owner rfl rfl hne

/-- A new thread starts with its first run to come, and nothing else. -/
theorem born_createThread {overrides : Option ThreadConfig} {t : ThreadState}
    (hnone : e.thread? id = none) (ht : (e.createThread overrides).engine.thread? id = some t)
    (hawake : e.Awake id) :
    (e.createThread overrides).todo.filter (·.concerns id) = [.start id] ∧
      (e.createThread overrides).engine.Awake id ∧
      (e.createThread overrides).engine.tasksOf id = e.tasksOf id := by
  have absent : ∀ {e'}, e.Apart id e' → ¬ e'.thread? id = some t := by
    intro e' hapart hsome
    cases (hapart.thread.trans hnone).symm.trans hsome
  revert ht
  unfold createThread
  dsimp only
  split
  · intro ht
    exact absurd ht (absent (.refl e))
  next program hprogram =>
    have hvalidate : e.Apart id
        (e.validateFor program (overrides.getD .empty).sentences.isSome).2 :=
      apart_validateFor program _
    split
    next error e₁ hresult =>
      intro ht
      rw [hresult] at hvalidate
      exact absurd ht (absent hvalidate)
    next e₁ hresult =>
      rw [hresult] at hvalidate
      split
      · intro ht
        exact absurd ht (absent hvalidate)
      next s hcreate =>
        intro ht
        have hid : @Eq Nat e₁.threads.length id := by
          by_cases heq : @Eq Nat id e₁.threads.length
          · exact heq.symm
          · have hsame := thread?_addThread_ne heq s
            exact absurd (hsame.symm.trans ht) (absent hvalidate)
        refine ⟨?_, hvalidate.awake hawake, hvalidate.tasks hawake⟩
        have hstart : (Work.start e₁.threads.length : Work σ).concerns id = true :=
          Work.concerns_of_owner (congrArg some hid)
        have hcreated :
            (Work.notify e₁.services (.created e₁.threads.length) : Work σ).concerns id = false := rfl
        rw [List.filter_cons_of_neg (by simp [hcreated]), List.filter_cons_of_pos hstart, hid]
        rfl

theorem spares_destroys (hactive : id ∉ e.active) {rest : List (Work σ)}
    (hrest : ∀ work ∈ rest, work.concerns id = false) :
    e.Spares id (e.active.map .destroy ++ rest) e where
  apart := .refl e
  todo := by
    intro work hwork
    rcases List.mem_append.1 hwork with hmem | hmem
    · obtain ⟨other, hother, rfl⟩ := List.mem_map.1 hmem
      refine not_concerns_of_owner rfl rfl ?_
      rintro rfl
      exact hactive hother
    · exact hrest work hmem

theorem spares_answerCore {query : CoreQuery} (hharmless : e.Harmless id (.core query))
    (hnew : e.thread? id = none → (e.answerCore query).engine.thread? id = none) :
    e.Spares id (e.answerCore query).todo (e.answerCore query).engine := by
  cases query with
  | threads => exact (Apart.refl e).spares
  | createThread overrides => exact spares_createThread hnew
  | destroyAll =>
    have hnothing : ∀ work ∈ ([] : List (Work σ)), work.concerns id = false := by simp
    simpa [answerCore] using spares_destroys (hharmless rfl).2 hnothing
  | destroyCore =>
    refine spares_destroys (hharmless rfl).2 ?_
    intro work hwork
    simp only [List.mem_cons, List.not_mem_nil, or_false] at hwork
    rcases hwork with rfl | rfl <;> rfl
  | initializeCore =>
    unfold answerCore
    split
    · exact (Apart.refl e).spares
    · have hopen : e.Apart id { e with initialized := true } := .of_eq rfl rfl rfl rfl
      exact hopen.spares_one rfl
  | configure config =>
    obtain ⟨log, defaults, validated, hconfigure⟩ := configure_eq (e := e) config
    have hapart : e.Apart id (e.configure config).2 := by
      rw [hconfigure]
      exact .of_eq rfl rfl rfl rfl
    exact hapart.spares
  | validate program =>
    obtain ⟨log, hvalidate⟩ := validate_eq (e := e) program
    have hapart : e.Apart id (e.validate program).2 := by
      rw [hvalidate]
      exact .of_eq rfl rfl rfl rfl
    exact hapart.spares
  | registerScript name factory =>
    obtain ⟨log, scripts, hregister⟩ := registerScript_eq (e := e) name factory
    have hapart : e.Apart id (e.registerScript name factory).2 := by
      rw [hregister]
      exact .of_eq rfl rfl rfl rfl
    exact hapart.spares
  | registerService service =>
    obtain ⟨services, hregister⟩ := registerService_eq (e := e) service
    have hapart : e.Apart id (e.registerService service).2 := by
      rw [hregister]
      exact .of_eq rfl rfl rfl rfl
    exact hapart.spares
  | scriptNames => exact (Apart.refl e).spares
  | aliases name => exact (Apart.refl e).spares

/-- Serving a harmless request leaves the thread alone. -/
theorem spares_answer (ho : e.Owned) {query : Query} (hharmless : e.Harmless id query)
    (hnew : e.thread? id = none → (e.answer query).engine.thread? id = none) :
    e.Spares id (e.answer query).todo (e.answer query).engine := by
  have apart_or : ∀ {other : ThreadId}, (other == id) = query.touches id →
      e.thread? id = none ∨ other ≠ id := by
    intro other htouches
    by_cases hother : other = id
    · refine .inl (hharmless ?_).1
      rw [← htouches]
      exact beq_iff_eq.2 hother
    · exact .inr hother
  cases query with
  | setVar other name value =>
    refine Apart.spares ?_
    show e.Apart id (e.modifyThread other fun t => t.setVar name value)
    by_cases hother : other = id
    · -- a request for the thread itself is harmless only as long as the thread is not there
      have hnone : e.thread? other = none := by
        rw [hother]
        exact (hharmless (beq_iff_eq.2 hother)).1
      rw [modifyThread_none hnone]
      exact .refl e
    · exact apart_modifyThread ho.numbered hother fun t => t.setVar_id name value
  | execute other program entry => exact spares_transfer ho (apart_or rfl)
  | transfer context program entry => exact spares_transfer ho (apart_or rfl)
  | destroy other =>
    show e.Spares id (e.destroyThread other).todo (e.destroyThread other).engine
    unfold destroyThread
    split
    next hrunning =>
      obtain ⟨t, ht, -⟩ := exists_of_look hrunning
      refine (Apart.refl e).spares_one (not_concerns_of_owner rfl rfl ?_)
      have hor : e.thread? id = none ∨ other ≠ id := apart_or rfl
      rcases hor with hnone | hne
      · rintro rfl
        cases hnone.symm.trans ht
      · exact hne
    next => exact (Apart.refl e).spares
  | core query =>
    revert hnew
    show (e.thread? id = none →
      (match e.answer (.core query) with | response => response).engine.thread? id = none) → _
    unfold answer
    split
    · intro hnew
      exact spares_answerCore hharmless hnew
    · intro _
      exact (Apart.refl e).spares
  | _ => exact (Apart.refl e).spares

/-! ## Work -/

variable {plugins : Plugins σ} {work : Work σ} {todo : List (Work σ)}

theorem Spares.append (h : e.Spares id todo e') {last : Work σ}
    (hlast : last.concerns id = false) : e.Spares id (todo ++ [last]) e' where
  apart := h.apart
  todo := by
    intro next hnext
    rcases List.mem_append.1 hnext with hmem | hmem
    · exact h.todo next hmem
    · rw [List.mem_singleton.1 hmem]
      exact hlast

theorem Apart.spares_two (h : e.Apart id e') {first second : Work σ}
    (hfirst : first.concerns id = false) (hsecond : second.concerns id = false) :
    e.Spares id [first, second] e' := (h.spares_one hfirst).append hsecond

/-- The script that loses its place with its thread belongs to the thread. -/
theorem Owned.thread_of_look (ho : e.Owned) {a : Instance}
    (ha : e.look other none (·.inFlight) = some a) : a.context.thread = other := by
  rcases ht : e.thread? other with _ | t
  · simp [look, ht] at ha
  · rw [look_eq ht] at ha
    exact ho.inFlight ht ha

/-- An item of work that does not concern a thread leaves it alone, as long as it asks for no change
of the thread. -/
theorem WorkedOff.spares (h : e.WorkedOff plugins work todo e') (ho : e.Owned)
    (hother : work.concerns id = false)
    (hharmless : ∀ query, work.asks? = some query → e.Harmless id query)
    (hnew : e.thread? id = none → e'.thread? id = none) : e.Spares id todo e' := by
  -- whatever the item moves on is another thread, and so is what it leaves for that thread
  have owner_ne : ∀ {other : ThreadId}, work.owner? = some other → other ≠ id := by
    rintro other howner rfl
    cases (Work.concerns_of_owner howner).symm.trans hother
  have others : ∀ {other : ThreadId} {next : Work σ}, work.owner? = some other →
      next.owner? = some other → next.tells? = none → next.concerns id = false := by
    intro other next howner hnext htells
    exact not_concerns_of_owner hnext htells (owner_ne howner)
  have same : e.Apart id e := .refl e
  cases h with
  | asked hasks hnext =>
    exact (spares_answer ho (hharmless _ hasks) hnew).append (hnext.concerns.trans hother)
  | continued hasks hnext =>
    refine Apart.spares_one ?_ (hnext.concerns.trans hother)
    exact .of_eq rfl rfl rfl rfl
  | suspended =>
    refine Apart.spares ⟨rfl, fun h => h, ?_, fun _ => rfl⟩
    intro hawake s hs
    rcases List.mem_append.1 hs with hmem | hmem
    · exact hawake s hmem
    · rw [List.mem_singleton.1 hmem]
      exact owner_ne rfl
  | ended hrunning => exact same.spares_two rfl (others rfl rfl rfl)
  | failed hcurrent =>
    refine Apart.spares_one ?_ (others rfl rfl rfl)
    exact apart_modifyThread ho.numbered (owner_ne rfl) fun _ => rfl
  | spoken => exact Apart.spares (.of_eq rfl rfl rfl rfl)
  | called => exact same.spares_two hother hother
  | announced => exact same.spares_one hother
  | aborted => exact (apart_cancel ho.numbered (owner_ne rfl)).spares_one (others rfl rfl rfl)
  | exhausted => exact same.spares_one (others rfl rfl rfl)
  | fatal => exact same.spares_one (others rfl rfl rfl)
  | dispatched => exact same.spares_two rfl (others rfl rfl rfl)
  | @spawned script =>
    have hne : (Task.begin script : Task σ).owner ≠ id := owner_ne rfl
    exact (apart_enqueue hne).spares
  | completed ht hprep =>
    have hid := hprep.kin_run.id.symm.trans (ho _ _ ht).1
    refine ⟨apart_setThread ?_, ?_⟩
    · rw [hid]
      exact owner_ne rfl
    · intro next hnext
      exact advanceWork_spares ho (owner_ne rfl) ht hprep hnext
  | @reported other error =>
    have hne : other ≠ id := owner_ne rfl
    refine same.spares_two ?_ (others rfl rfl rfl)
    simp [Work.concerns, Work.owner?, Work.tells?, Notification.isFinal, hne]
  | @destroying other hrunning =>
    have hne : other ≠ id := owner_ne rfl
    refine Apart.spares_two ?_ ?_ ?_
    · exact apart_modifyThread ho.numbered hne fun _ => rfl
    · simp [Work.concerns, Work.owner?, Work.tells?, Notification.isFinal, hne]
    · exact others rfl rfl rfl
  | @cleared other =>
    have hne : other ≠ id := owner_ne rfl
    have hdropped := keeps_dropStart ho.numbered other
    constructor
    · refine (apart_dropStart ho.numbered hne).trans ?_
      exact apart_modifyThread (hdropped.numbered ho.numbered) hne fun _ => rfl
    · intro next hnext
      simp only [List.mem_append, Option.mem_toList, Option.map_eq_some_iff, List.mem_singleton]
        at hnext
      rcases hnext with ⟨a, ha, rfl⟩ | rfl
      · exact others rfl (congrArg some (ho.thread_of_look ha)) rfl
      · exact others rfl rfl rfl
  | released => exact (apart_release ho.numbered (owner_ne rfl)).spares
  | @started other =>
    have hne : (Task.start other : Task σ).owner ≠ id := owner_ne rfl
    refine Apart.spares ((apart_enqueue hne).trans (apart_modifyThread ?_ hne ?_))
    · exact (keeps_enqueue _).numbered ho.numbered
    · intro t
      split <;> rfl
  | reopened => exact Apart.spares (.of_eq rfl rfl rfl rfl)
  | _ => exact same.spares

end Engine

namespace Machine

variable {plugins : Plugins σ} {m m' : Machine σ} {event : Event σ} {id : ThreadId}

/-- What concerns a thread on the stack. -/
def stackOf (m : Machine σ) (id : ThreadId) : List (Work σ) := m.stack.filter (·.concerns id)

/-- Whether a step concerns a thread. -/
def Event.concerns (id : ThreadId) : Event σ → Bool
  | .work item => item.concerns id
  | .task taken => taken.owner == id
  | _ => false

theorem Invariant.owned (hm : Invariant m) : m.engine.Owned :=
  fun _ _ ht => ⟨hm.numbered _ _ ht, (hm.sound ht).ticketed⟩

theorem stackOf_append {e : Engine σ} {todo rest : List (Work σ)}
    (h : ∀ work ∈ todo, work.concerns id = false) :
    stackOf ⟨e, todo ++ rest⟩ id = rest.filter (·.concerns id) := by
  have hnone : todo.filter (·.concerns id) = [] := by
    rw [List.filter_eq_nil_iff]
    intro work hwork
    simp [h work hwork]
  simp [stackOf, List.filter_append, hnone]

/-- A step that does not concern a thread leaves it alone, as long as it asks for no change of the
thread. -/
theorem Step.spares (h : Step plugins m event m') (hm : Invariant m)
    (hother : event.concerns id = false)
    (hharmless : ∀ query, event.asks? = some query → m.engine.Harmless id query)
    (hnew : m.engine.thread? id = none → m'.engine.thread? id = none) :
    m.engine.Apart id m'.engine ∧ m'.stackOf id = m.stackOf id := by
  cases h with
  | @work e work rest =>
    have hworked := Engine.workedOff_perform plugins e work
    have hspares := hworked.spares hm.owned hother hharmless hnew
    refine ⟨hspares.apart, ?_⟩
    have hnot : ¬ work.concerns id = true := by
      have hfalse : work.concerns id = false := hother
      simp [hfalse]
    rw [stackOf_append hspares.todo, stackOf, List.filter_cons_of_neg hnot]
  | @task e before after task hqueue =>
    have hne : task.owner ≠ id := by simpa [Event.concerns] using hother
    let e₁ : Engine σ := { e with queue := before ++ after }
    have hdropped : e.Apart id e₁ := by
      refine ⟨rfl, fun h => h, fun h => h, ?_⟩
      intro _
      simp [e₁, Engine.tasksOf, hqueue, List.filter_append, hne]
    cases task with
    | start other =>
      have hother : other ≠ id := hne
      rcases take_start_cases plugins e₁ other with
        ⟨-, htake⟩ | ⟨t, ht, ⟨-, hagree, htake⟩ | ⟨p, hprep, htake⟩⟩
      · rw [htake]
        exact ⟨hdropped, rfl⟩
      · -- the start came too late, and nothing is arrived at
        have hid : t.resume.2.id = other := hagree.id.symm.trans (hm.owned other t ht).1
        rw [htake]
        refine ⟨hdropped.trans (Engine.apart_setThread (by rwa [hid])), ?_⟩
        simp [stackOf, Work.concerns, Work.owner?, Work.tells?, hother]
      · have hid : p.run.2.id = other := hprep.kin_run.id.symm.trans (hm.owned other t ht).1
        rw [htake]
        refine ⟨hdropped.trans (Engine.apart_setThread (by rwa [hid])), ?_⟩
        have htodo : ∀ work ∈ (Engine.advanceWork other p.run.1 : List (Work σ)),
            work.concerns id = false := by
          intro work hwork
          exact Engine.advanceWork_spares hm.owned hother ht hprep hwork
        simpa [stackOf] using htodo
    | begin script =>
      refine ⟨hdropped, ?_⟩
      have hscript : script.context.thread ≠ id := hne
      simp [take, stackOf, Work.concerns, Work.owner?, Work.tells?, hscript]
    | resume context rest =>
      refine ⟨hdropped, ?_⟩
      have hcontext : context.thread ≠ id := hne
      simp [take, stackOf, Work.concerns, Work.owner?, Work.tells?, hcontext]
  | @ask e query =>
    have hspares := Engine.spares_answer hm.owned (hharmless query rfl) hnew
    exact ⟨hspares.apart, stackOf_append hspares.todo⟩
  | permits tag count => exact ⟨Engine.apart_givePermits tag count, rfl⟩
  | letGo => exact ⟨.of_eq rfl rfl rfl rfl, rfl⟩
  | outside host log => exact ⟨.of_eq rfl rfl rfl rfl, rfl⟩

/-! ## Before a thread is there -/

/-- Nothing of a thread is there yet. -/
structure Unborn (id : ThreadId) (m : Machine σ) : Prop where
  thread : m.engine.thread? id = none
  active : id ∉ m.engine.active
  awake : m.engine.Awake id
  tasks : m.engine.tasksOf id = []
  stack : m.stackOf id = []

/-- A thread of which nothing is there is nothing that a step can be about. -/
theorem Unborn.not_concerns (h : Unborn id m) (hstep : Step plugins m event m') :
    event.concerns id = false := by
  cases hstep with
  | @work e work rest =>
    have hnone := List.filter_eq_nil_iff.1 h.stack work List.mem_cons_self
    simpa [Event.concerns] using hnone
  | @task e before after task hqueue =>
    have hmem : task ∈ e.queue := by simp [hqueue]
    have hnone := List.filter_eq_nil_iff.1 h.tasks task hmem
    simpa [Event.concerns] using hnone
  | _ => rfl

theorem Unborn.step (h : Unborn id m) (hm : Invariant m) (hstep : Step plugins m event m')
    (hnone : m'.engine.thread? id = none) : Unborn id m' := by
  obtain ⟨hapart, hstack⟩ := hstep.spares hm (h.not_concerns hstep)
    (fun _ _ _ => ⟨h.thread, h.active⟩) fun _ => hnone
  exact ⟨hnone, hapart.active h.active, hapart.awake h.awake, (hapart.tasks h.awake).trans h.tasks,
    hstack.trans h.stack⟩

theorem Run.unborn {host : σ} {config : CoreConfig} {stages : List (Stage σ)}
    (h : Run plugins (opened host config) stages m) (hnone : m.engine.thread? id = none) :
    Unborn id m := by
  induction h with
  | start =>
    refine ⟨hnone, ?_, ?_, rfl, rfl⟩
    · simp [opened, Engine.new]
    · simp [opened, Engine.new, Engine.Awake]
  | @step stages m m' event hrun hstep ih =>
    rcases ht : m.engine.thread? id with _ | t
    · exact (ih ht).step hrun.invariant hstep hnone
    · -- threads are never forgotten
      obtain ⟨t', ht', -⟩ := hstep.affects hrun.invariant.numbered ht
      cases ht'.symm.trans hnone

/-- What serves a request takes over its answer. -/
theorem Step.asked (h : Step plugins m event m') {query : Query} (hasks : event.asks? = some query)
    (hother : event.concerns id = false) :
    m'.engine = (m.engine.answer query).engine ∧
      m'.stackOf id = (m.engine.answer query).todo.filter (·.concerns id) ++ m.stackOf id := by
  cases h with
  | @work e work rest =>
    -- the code that asked goes on below the answer, and is as foreign as before
    have goes_on : ∀ {todo : List (Work σ)} {next : Work σ},
        next.concerns id = work.concerns id →
        stackOf ⟨(e.answer query).engine, todo ++ [next] ++ rest⟩ id =
          todo.filter (·.concerns id) ++ stackOf ⟨e, work :: rest⟩ id := by
      intro todo next hnext
      have hfalse : work.concerns id = false := hother
      simp [stackOf, List.filter_append, hnext, hfalse]
    cases work with
    | script context code =>
      cases code with
      | ask _ _ =>
        cases hasks
        exact ⟨rfl, goes_on rfl⟩
      | _ => cases hasks
    | hook notification code =>
      cases code with
      | ask _ _ =>
        cases hasks
        exact ⟨rfl, goes_on rfl⟩
      | _ => cases hasks
    | abortHook context code =>
      cases code with
      | ask _ _ =>
        cases hasks
        exact ⟨rfl, goes_on rfl⟩
      | _ => cases hasks
    | _ => cases hasks
  | @ask e query' =>
    cases hasks
    refine ⟨rfl, ?_⟩
    simp [stackOf, Machine.ask]
  | _ => cases hasks

end Machine
end SentenceEngine
