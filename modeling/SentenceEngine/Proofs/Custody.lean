import SentenceEngine.Proofs.Termination

/-!
# Where dispatched scripts are

From its dispatch to its end a script is in one place at a time: it is arrived at, made a task of,
ready, executed, waiting, or about to be completed. A step moves scripts from place to place, brings
in at most the one that it dispatches, and lets go of at most the one whose end it works off. What
is noted about a thread, the tickets of the scripts that were told to stop and whether the thread
has ended, changes only where a script is told to stop and where a thread is released.

* `Machine.held`: the scripts that are somewhere.
* `Engine.Serves`, `Engine.custody`: what requests leave as it is.
* `Engine.forall_answer`: what requests leave to do.
* `Machine.Step.hands`, `Machine.Step.marks`: what a step does to the scripts and to the notes.
* `Machine.Custody`, `Machine.Run.custody`: every script that is somewhere was dispatched, is there
  once, and has not ended.
-/

namespace SentenceEngine

variable {σ : Type}

/-- The script that an item of work starts, goes on with or completes. -/
def Work.holds? : Work σ → Option Context
  | .script context _ => some context
  | .arrive _ (.dispatch dispatched) => some dispatched.context
  | .spawn spawned => some spawned.context
  | .complete context => some context
  | _ => none

/-- The thread that arrives at a dispatch, and the script that it dispatches. -/
def Work.arrives? : Work σ → Option (ThreadId × Instance)
  | .arrive id (.dispatch dispatched) => some (id, dispatched)
  | _ => none

theorem Work.arrives?_of_holds {work : Work σ} (h : work.holds? = none) :
    work.arrives? = none := by
  cases work with
  | arrive id arrival =>
    cases arrival with
    | dispatch dispatched => cases h
    | _ => rfl
  | _ => rfl

/-- The script that a task starts or goes on with. -/
def Task.holds? : Task σ → Option Context
  | .start _ => none
  | .begin script => some script.context
  | .resume context _ => some context

/-- Work that a request leaves unless it makes a thread move. -/
def Work.isErrand : Work σ → Bool
  | .notify _ _ => true
  | .announce notification => notification.thread?.isNone
  | .destroy _ => true
  | .start _ => true
  | .reopen => true
  | _ => false

theorem Work.holds?_of_isErrand {work : Work σ} (h : work.isErrand = true) :
    work.holds? = none := by
  cases work <;> first | rfl | cases h

namespace ThreadState

variable {t t' p : ThreadState}

/-- Two states of one thread with the same notes about its scripts. -/
structure SameMarks (t t' : ThreadState) : Prop where
  id : t'.id = t.id
  cancelled : t'.cancelled = t.cancelled
  ended : t'.ended = t.ended

theorem SameMarks.trans {t'' : ThreadState} (h : t.SameMarks t') (h' : t'.SameMarks t'') :
    t.SameMarks t'' :=
  ⟨h'.id.trans h.id, h'.cancelled.trans h.cancelled, h'.ended.trans h.ended⟩

theorem sameMarks_run (t : ThreadState) : t.SameMarks t.run.2 := by
  unfold run
  split
  · exact ⟨rfl, rfl, rfl⟩
  · split
    · exact ⟨rfl, rfl, rfl⟩
    · exact ⟨rfl, rfl, rfl⟩
    · split <;> exact ⟨rfl, rfl, rfl⟩

theorem Prepares.sameMarks_run {move : Move} (h : t.Prepares move p) : t.SameMarks p.run.2 := by
  have hprepared : t.SameMarks p := by cases h <;> exact ⟨rfl, rfl, rfl⟩
  exact hprepared.trans p.sameMarks_run

theorem sameMarks_resume (t : ThreadState) : t.SameMarks t.resume.2 := by
  unfold resume
  dsimp only
  split
  · exact ⟨rfl, rfl, rfl⟩
  · have hprepared : t.SameMarks { t with startPending := false, started := true } :=
      ⟨rfl, rfl, rfl⟩
    exact hprepared.trans (sameMarks_run _)

theorem sameMarks_setVar (t : ThreadState) (name : String) (value : Json) :
    t.SameMarks (t.setVar name value) := by
  obtain ⟨vars, hvars⟩ := t.setVar_eq name value
  rw [hvars]
  exact ⟨rfl, rfl, rfl⟩

/-- What the cursor machine dispatches takes the slot, under the next ticket. -/
theorem run_of_dispatch {a : Instance} (h : t.run.1.arrival = .dispatch a) :
    t.run.2.ticket = t.ticket + 1 ∧ t.run.2.inFlight = some a := by
  revert h
  unfold run
  split
  · rintro ⟨⟩
  · split
    · rintro ⟨⟩
    · rintro ⟨⟩
    · split
      · rintro ⟨⟩
      · rintro ⟨⟩
        exact ⟨rfl, rfl⟩

end ThreadState

namespace Engine

variable {e e' e'' : Engine σ} {id : ThreadId} {t t' p : ThreadState}

/-! ## What requests leave as it is -/

/-- What requests leave as it is. To the queue they do one thing: they take first runs out of it. -/
structure Serves (e e' : Engine σ) : Prop where
  host : e'.host = e.host
  suspended : e'.suspended = e.suspended
  queue : ∃ keeps : Task σ → Bool, e'.queue = e.queue.filter keeps ∧
    ∀ task, (∀ id, task ≠ .start id) → keeps task = true

theorem Serves.of_eq (hhost : e'.host = e.host) (hsuspended : e'.suspended = e.suspended)
    (hqueue : e'.queue = e.queue) : e.Serves e' where
  host := hhost
  suspended := hsuspended
  queue := by
    refine ⟨fun _ => true, ?_, fun _ _ => rfl⟩
    rw [hqueue, List.filter_eq_self.2 fun _ _ => rfl]

theorem Serves.refl (e : Engine σ) : e.Serves e := .of_eq rfl rfl rfl

theorem Serves.trans (h : e.Serves e') (h' : e'.Serves e'') : e.Serves e'' where
  host := h'.host.trans h.host
  suspended := h'.suspended.trans h.suspended
  queue := by
    obtain ⟨keeps, hqueue, hkeeps⟩ := h.queue
    obtain ⟨keeps', hqueue', hkeeps'⟩ := h'.queue
    refine ⟨fun task => keeps' task && keeps task, ?_, ?_⟩
    · rw [hqueue', hqueue, List.filter_filter]
    · intro task htask
      simp [hkeeps task htask, hkeeps' task htask]

theorem Serves.sublist (h : e.Serves e') : e'.queue.Sublist e.queue := by
  obtain ⟨keeps, hqueue, -⟩ := h.queue
  rw [hqueue]
  exact List.filter_sublist

/-- What there is in the queue apart from first runs stays there. -/
theorem Serves.filterMap_queue (h : e.Serves e') {α : Type} {f : Task σ → Option α}
    (hf : ∀ id, f (.start id) = none) : e'.queue.filterMap f = e.queue.filterMap f := by
  obtain ⟨keeps, hqueue, hkeeps⟩ := h.queue
  rw [hqueue, List.filterMap_filter]
  congr 1
  funext task
  cases task with
  | start id => simp [hf]
  | begin script => rw [if_pos (hkeeps _ (by simp))]
  | resume context rest => rw [if_pos (hkeeps _ (by simp))]

theorem serves_modifyThread (f : ThreadState → ThreadState) : e.Serves (e.modifyThread id f) := by
  unfold modifyThread
  split
  · exact .of_eq rfl rfl rfl
  · exact .refl e

theorem serves_dequeue (id : ThreadId) :
    e.Serves { e with queue := e.queue.filter fun task => !task.isStartOf id } := by
  refine ⟨rfl, rfl, _, rfl, ?_⟩
  intro task htask
  cases task with
  | start other => exact absurd rfl (htask other)
  | begin script => rfl
  | resume context rest => rfl

theorem serves_dropStart (id : ThreadId) : e.Serves (e.dropStart id) := by
  unfold dropStart
  split
  · exact (serves_dequeue id).trans (serves_modifyThread _)
  · exact .refl e

/-- The scripts that are ready or wait. -/
def stored (e : Engine σ) : List Context :=
  e.queue.filterMap Task.holds? ++ e.suspended.map (·.context)

/-- What is noted about a thread: the tickets of the scripts that were told to stop, the last one
first, and whether the thread has ended. -/
def marks (e : Engine σ) (id : ThreadId) : List Nat × Bool :=
  e.look id ([], false) fun t => (t.cancelled, t.ended)

/-- The scripts that are ready or wait, and what is noted about all threads. -/
def custody (e : Engine σ) : List Context × (ThreadId → List Nat × Bool) := (e.stored, e.marks)

theorem marks_eq (ht : e.thread? id = some t) : e.marks id = (t.cancelled, t.ended) := look_eq ht

theorem custody_setThread (ht : e.thread? t.id = some t) (h : t.SameMarks t') :
    (e.setThread t').custody = e.custody := by
  have hmarks : (e.setThread t').marks = e.marks := by
    funext id
    by_cases hid : id = t'.id
    · subst hid
      rw [h.id] at *
      have hset : (e.setThread t').thread? t.id = some t' := by
        rw [← h.id]
        exact thread?_setThread_self (by rwa [h.id])
      rw [marks_eq hset, marks_eq ht, h.cancelled, h.ended]
    · rw [marks, marks, look, look, thread?_setThread_ne hid]
  rw [custody, hmarks]
  rfl

theorem custody_modifyThread {f : ThreadState → ThreadState} (hn : e.Numbered) (id : ThreadId)
    (hf : ∀ t : ThreadState, t.SameMarks (f t)) : (e.modifyThread id f).custody = e.custody := by
  rcases ht : e.thread? id with _ | t
  · rw [modifyThread_none ht]
  · rw [modifyThread_eq ht]
    apply custody_setThread _ (hf t)
    rwa [hn _ _ ht]

theorem custody_dropStart (hn : e.Numbered) (id : ThreadId) :
    (e.dropStart id).custody = e.custody := by
  unfold dropStart
  split
  · let dropped : Engine σ := { e with queue := e.queue.filter fun task => !task.isStartOf id }
    have hdropped : dropped.custody = e.custody := by
      -- what is dropped is a first run, which holds no script
      have hqueue : dropped.queue.filterMap Task.holds? = e.queue.filterMap Task.holds? :=
        (serves_dequeue id).filterMap_queue fun _ => rfl
      show (dropped.queue.filterMap Task.holds? ++ _, _) = _
      rw [hqueue]
      rfl
    have hn' : dropped.Numbered := hn
    refine (custody_modifyThread hn' id ?_).trans hdropped
    intro t
    exact ⟨rfl, rfl, rfl⟩
  · rfl

/-- A new thread has nothing noted about it, as if it were still to come. -/
theorem custody_addThread (hcancelled : t.cancelled = []) (hended : t.ended = false) :
    (e.addThread t).custody = e.custody := by
  have hmarks : (e.addThread t).marks = e.marks := by
    funext id
    by_cases hnew : @Eq Nat id e.threads.length
    · subst hnew
      have hlast : (e.addThread t).thread? e.threads.length = some t := by simp [thread?, addThread]
      rw [marks_eq hlast, hcancelled, hended]
      simp [marks, look, thread?]
    · rw [marks, marks, look, look, thread?_addThread_ne hnew]
  rw [custody, hmarks]
  rfl

theorem custody_createThread (overrides : Option ThreadConfig) :
    (e.createThread overrides).engine.custody = e.custody := by
  unfold createThread
  dsimp only
  split
  · rfl
  next program _ =>
    obtain ⟨log, validated, hvalidate⟩ :=
      validateFor_eq (e := e) program (overrides.getD .empty).sentences.isSome
    rcases hresult : e.validateFor program (overrides.getD .empty).sentences.isSome with
      ⟨error | done, e₁⟩
    · rw [hresult] at hvalidate
      cases hvalidate
      rfl
    · rw [hresult] at hvalidate
      cases hvalidate
      dsimp only
      split
      · rfl
      next t hcreate =>
        obtain ⟨start, -, -, rfl⟩ := ThreadState.create_eq_ok hcreate
        exact custody_addThread rfl rfl

theorem custody_answerCore (query : CoreQuery) :
    (e.answerCore query).engine.custody = e.custody := by
  cases query with
  | createThread overrides => exact custody_createThread overrides
  | initializeCore =>
    unfold answerCore
    split <;> rfl
  | configure config =>
    obtain ⟨log, defaults, validated, hconfigure⟩ := configure_eq (e := e) config
    simp only [answerCore, respond, hconfigure]
    rfl
  | validate program =>
    obtain ⟨log, hvalidate⟩ := validate_eq (e := e) program
    simp only [answerCore, respond, hvalidate]
    rfl
  | registerScript name factory =>
    obtain ⟨log, scripts, hregister⟩ := registerScript_eq (e := e) name factory
    simp only [answerCore, respond, hregister]
    rfl
  | registerService service =>
    obtain ⟨services, hregister⟩ := registerService_eq (e := e) service
    simp only [answerCore, respond, hregister]
    rfl
  | _ => rfl

/-- A transfer is refused, or the thread runs what was prepared for it. -/
theorem transfer_cases (id : ThreadId) (caller : Option Context) (program : Sequence)
    (entry : Option String) :
    (∃ error, e.transfer id caller program entry = e.respond (.error error)) ∨
    ∃ t p, e.thread? id = some t ∧ t.Prepares (.executed caller program entry) p ∧
      e.transfer id caller program entry =
        ⟨.ok (), advanceWork id p.run.1, (e.setThread p.run.2).dropStart id⟩ := by
  unfold transfer
  rcases ht : e.thread? id with _ | t
  · exact .inl ⟨_, rfl⟩
  rcases htransfer : t.transfer caller program entry with error | ⟨advance, s⟩
  · simp only [htransfer]
    exact .inl ⟨_, rfl⟩
  · obtain ⟨p, hprep, hrun⟩ := ThreadState.transfer_eq_ok htransfer
    simp only [htransfer]
    refine .inr ⟨t, p, rfl, hprep, ?_⟩
    rw [hrun]

theorem serves_transfer (id : ThreadId) (caller : Option Context) (program : Sequence)
    (entry : Option String) : e.Serves (e.transfer id caller program entry).engine := by
  rcases transfer_cases (e := e) id caller program entry with
    ⟨error, hrefused⟩ | ⟨t, p, -, -, hgranted⟩
  · rw [hrefused]
    exact .refl e
  · rw [hgranted]
    have hset : e.Serves (e.setThread p.run.2) := .of_eq rfl rfl rfl
    exact hset.trans (serves_dropStart id)

theorem serves_createThread (overrides : Option ThreadConfig) :
    e.Serves (e.createThread overrides).engine := by
  unfold createThread
  dsimp only
  split
  · exact .refl e
  next program _ =>
    obtain ⟨log, validated, hvalidate⟩ :=
      validateFor_eq (e := e) program (overrides.getD .empty).sentences.isSome
    rcases hresult : e.validateFor program (overrides.getD .empty).sentences.isSome with
      ⟨error | done, e₁⟩
    · rw [hresult] at hvalidate
      cases hvalidate
      exact .of_eq rfl rfl rfl
    · rw [hresult] at hvalidate
      cases hvalidate
      dsimp only
      split
      · exact .of_eq rfl rfl rfl
      · exact .of_eq rfl rfl rfl

/-- A request leaves the state of scripts and services alone, and all that waits or is ready apart
from first runs. -/
theorem serves_answer (query : Query) : e.Serves (e.answer query).engine := by
  cases query with
  | setVar id name value => exact serves_modifyThread _
  | execute id program entry => exact serves_transfer _ _ _ _
  | transfer context program entry => exact serves_transfer _ _ _ _
  | destroy id =>
    simp only [answer, destroyThread]
    split <;> exact .refl e
  | core query =>
    simp only [answer]
    split
    · cases query with
      | createThread overrides => exact serves_createThread overrides
      | initializeCore =>
        simp only [answerCore]
        split
        · exact .refl e
        · exact .of_eq rfl rfl rfl
      | configure config =>
        obtain ⟨log, defaults, validated, hconfigure⟩ := configure_eq (e := e) config
        simp only [answerCore, respond, hconfigure]
        exact .of_eq rfl rfl rfl
      | validate program =>
        obtain ⟨log, hvalidate⟩ := validate_eq (e := e) program
        simp only [answerCore, respond, hvalidate]
        exact .of_eq rfl rfl rfl
      | registerScript name factory =>
        obtain ⟨log, scripts, hregister⟩ := registerScript_eq (e := e) name factory
        simp only [answerCore, respond, hregister]
        exact .of_eq rfl rfl rfl
      | registerService service =>
        obtain ⟨services, hregister⟩ := registerService_eq (e := e) service
        simp only [answerCore, respond, hregister]
        exact .of_eq rfl rfl rfl
      | _ => exact .refl e
    · exact .refl e
  | _ => exact .refl e

theorem custody_transfer (hn : e.Numbered) (caller : Option Context) (program : Sequence)
    (entry : Option String) :
    (e.transfer id caller program entry).engine.custody = e.custody := by
  rcases transfer_cases (e := e) id caller program entry with
    ⟨error, hrefused⟩ | ⟨t, p, ht, hprep, hgranted⟩
  · rw [hrefused]
    rfl
  · rw [hgranted]
    have hset : (e.setThread p.run.2).custody = e.custody := by
      apply custody_setThread _ hprep.sameMarks_run
      rwa [hn _ _ ht]
    exact (custody_dropStart (numbered_setThread hn) id).trans hset

/-- No request starts a script, tells one to stop or ends a thread; all of this is work that it
leaves. -/
theorem custody_answer (hn : e.Numbered) (query : Query) :
    (e.answer query).engine.custody = e.custody := by
  cases query with
  | setVar id name value =>
    apply custody_modifyThread hn id
    intro t
    exact t.sameMarks_setVar name value
  | execute id program entry => exact custody_transfer hn _ _ _
  | transfer context program entry => exact custody_transfer hn _ _ _
  | destroy id =>
    simp only [answer, destroyThread]
    split <;> rfl
  | core query =>
    simp only [answer]
    split
    · exact custody_answerCore query
    · rfl
  | _ => rfl

/-! ## Scripts that come in -/

/-- A script takes the slot of its thread, under the next ticket. -/
def Takes (e : Engine σ) (a : Instance) (e' : Engine σ) : Prop :=
  ∃ t t', e.thread? a.context.thread = some t ∧ e'.thread? a.context.thread = some t' ∧
    t'.ticket = t.ticket + 1 ∧ t'.inFlight = some a

/-- Newly left work holds no script, or one that has just taken the slot of its thread and is
arrived at. -/
def Loads (e : Engine σ) (todo : List (Work σ)) (e' : Engine σ) : Prop :=
  ∃ script : Option Instance, (∀ a ∈ script, e.Takes a e') ∧
    todo.filterMap Work.holds? = (script.map (·.context)).toList ∧
    todo.filterMap Work.arrives? = (script.map fun a => (a.context.thread, a)).toList

theorem Loads.nothing {todo : List (Work σ)} (h : ∀ work ∈ todo, work.holds? = none) :
    e.Loads todo e' := by
  have harrives : ∀ work ∈ todo, work.arrives? = none := by
    intro work hwork
    exact Work.arrives?_of_holds (h work hwork)
  refine ⟨none, ?_, ?_, ?_⟩
  · rintro a ⟨⟩
  · rw [List.filterMap_eq_nil_iff.2 h]
    rfl
  · rw [List.filterMap_eq_nil_iff.2 harrives]
    rfl

theorem filterMap_advanceWork {α : Type} {f : Work σ → Option α}
    (hf : ∀ aborted, f (.abort aborted) = none) (id : ThreadId) (advance : Advance) :
    (advanceWork id advance).filterMap f = (f (.arrive id advance.arrival)).toList := by
  have harrive : [.arrive id advance.arrival].filterMap f =
      (f (.arrive id advance.arrival)).toList := by
    cases h : f (.arrive id advance.arrival) <;> simp [h]
  rcases advanceWork_cases (σ := σ) id advance with ⟨aborted, htodo⟩ | htodo
  · rw [htodo, List.filterMap_cons_none (hf aborted), harrive]
  · rw [htodo, harrive]

/-- What the cursor machine arrives at holds no script unless it is a dispatch. -/
theorem loads_advanceWork (hn : e.Numbered) (ht : e.thread? id = some t) {move : Move}
    (hprep : t.Prepares move p) (ht' : e'.thread? id = some t') (hagree : p.run.2.Agrees t') :
    e.Loads (advanceWork id p.run.1) e' := by
  by_cases hdispatch : ∃ a, p.run.1.arrival = .dispatch a
  · obtain ⟨a, harrival⟩ := hdispatch
    obtain ⟨hticket, hflight⟩ := ThreadState.run_of_dispatch harrival
    have hprepared : p.ticket = t.ticket := by cases hprep <;> rfl
    have hthread : a.context.thread = id := by
      rw [ThreadState.thread_of_dispatch harrival, ← hprep.kin.id]
      exact hn _ _ ht
    refine ⟨some a, ?_, ?_, ?_⟩
    · rintro _ ⟨⟩
      rw [Takes, hthread]
      refine ⟨t, t', ht, ht', ?_, ?_⟩
      · rw [← hagree.ticket, hticket, hprepared]
      · rw [← hagree.inFlight, hflight]
    · rw [filterMap_advanceWork (fun _ => rfl), harrival]
      rfl
    · rw [filterMap_advanceWork (fun _ => rfl), harrival, ← hthread]
      rfl
  · -- nothing is dispatched
    apply Loads.nothing
    intro work hwork
    have harrive : Work.holds? (.arrive id p.run.1.arrival : Work σ) = none := by
      cases harrival : p.run.1.arrival with
      | dispatch a => exact absurd ⟨a, harrival⟩ hdispatch
      | _ => rfl
    have hnothing : (advanceWork id p.run.1 : List (Work σ)).filterMap Work.holds? = [] := by
      rw [filterMap_advanceWork (fun _ => rfl), harrive]
      rfl
    exact List.filterMap_eq_nil_iff.1 hnothing work hwork

theorem loads_transfer (hn : e.Numbered) (caller : Option Context) (program : Sequence)
    (entry : Option String) :
    e.Loads (e.transfer id caller program entry).todo
      (e.transfer id caller program entry).engine := by
  rcases transfer_cases (e := e) id caller program entry with
    ⟨error, hrefused⟩ | ⟨t, p, ht, hprep, hgranted⟩
  · rw [hrefused]
    exact .nothing (by simp [respond])
  · rw [hgranted]
    have hid : p.run.2.id = id := hprep.kin_run.id.symm.trans (hn _ _ ht)
    have hset : (e.setThread p.run.2).thread? p.run.2.id = some p.run.2 :=
      thread?_setThread_self (by rwa [hid])
    rw [hid] at hset
    obtain ⟨t', ht', hagree⟩ := (keeps_dropStart (numbered_setThread hn) id).agrees hset
    exact loads_advanceWork hn ht hprep ht' hagree

theorem errands_answerCore (query : CoreQuery) :
    ∀ work ∈ (e.answerCore query).todo, work.isErrand = true := by
  intro work hwork
  cases query with
  | createThread overrides =>
    rcases createThread_cases (e := e) overrides with
      ⟨error, -, htodo, -⟩ | ⟨-, htodo, -⟩
    · simp [answerCore, htodo] at hwork
    · simp only [answerCore, htodo, List.mem_cons, List.not_mem_nil, or_false] at hwork
      rcases hwork with rfl | rfl <;> rfl
  | destroyAll =>
    obtain ⟨id, -, rfl⟩ := List.mem_map.1 hwork
    rfl
  | destroyCore =>
    simp only [answerCore, List.mem_append, List.mem_map, List.mem_cons, List.not_mem_nil,
      or_false] at hwork
    rcases hwork with ⟨id, -, rfl⟩ | rfl | rfl <;> rfl
  | initializeCore =>
    simp only [answerCore] at hwork
    split at hwork
    · cases hwork
    · rw [List.mem_singleton.1 hwork]
      rfl
  | _ => cases hwork

/-- What a request leaves to do: errands, or what comes of a transfer of control. -/
theorem answer_cases (query : Query) :
    (∃ id caller program entry, query.executes? = some (id, caller, program, entry) ∧
        (e.answer query).todo = (e.transfer id caller program entry).todo ∧
        (e.answer query).engine = (e.transfer id caller program entry).engine) ∨
      ∀ work ∈ (e.answer query).todo, work.isErrand = true := by
  have nothing : ∀ work ∈ ([] : List (Work σ)), work.isErrand = true := by simp
  cases query with
  | execute id program entry => exact .inl ⟨_, _, _, _, rfl, rfl, rfl⟩
  | transfer context program entry => exact .inl ⟨_, _, _, _, rfl, rfl, rfl⟩
  | destroy id =>
    right
    simp only [answer, destroyThread]
    split
    · simp [Work.isErrand]
    · exact nothing
  | core query =>
    right
    simp only [answer]
    split
    · exact errands_answerCore query
    · exact nothing
  | _ => exact .inr nothing

/-- What holds of all that can come of a run of the cursor machine. -/
theorem forall_advanceWork {P : Work σ → Prop} (habort : ∀ script, P (.abort script))
    (harrive : ∀ id arrival, P (.arrive id arrival)) (id : ThreadId) (advance : Advance) :
    ∀ work ∈ (advanceWork id advance : List (Work σ)), P work := by
  intro work hwork
  rcases advanceWork_cases (σ := σ) id advance with ⟨aborted, htodo⟩ | htodo
  · rw [htodo] at hwork
    rcases List.mem_cons.1 hwork with rfl | hwork
    · exact habort aborted
    · rw [List.mem_singleton.1 hwork]
      exact harrive _ _
  · rw [htodo] at hwork
    rw [List.mem_singleton.1 hwork]
    exact harrive _ _

/-- What holds of all that a request can leave to do. -/
theorem forall_answer {P : Work σ → Prop} (herrand : ∀ work : Work σ, work.isErrand = true → P work)
    (habort : ∀ script, P (.abort script)) (harrive : ∀ id arrival, P (.arrive id arrival))
    (query : Query) : ∀ work ∈ (e.answer query).todo, P work := by
  rcases answer_cases (e := e) query with
    ⟨id, caller, program, entry, -, htodo, -⟩ | herrands
  · rw [htodo]
    rcases transfer_cases (e := e) id caller program entry with
      ⟨error, hrefused⟩ | ⟨t, p, -, -, hgranted⟩
    · simp [hrefused, respond]
    · rw [hgranted]
      exact forall_advanceWork habort harrive id _
  · intro work hwork
    exact herrand work (herrands work hwork)

/-- What a request leaves to do holds no script, or the one that it made the thread dispatch. -/
theorem loads_answer (hn : e.Numbered) (query : Query) :
    e.Loads (e.answer query).todo (e.answer query).engine := by
  rcases answer_cases (e := e) query with
    ⟨id, caller, program, entry, -, htodo, hengine⟩ | herrands
  · rw [htodo, hengine]
    exact loads_transfer hn caller program entry
  · apply Loads.nothing
    intro work hwork
    exact Work.holds?_of_isErrand (herrands work hwork)

end Engine

namespace Work

/-- The script whose end an item of work works off: an end in vain, a failure, or a good end that
was told to the services. -/
def settles? (e : Engine σ) : Work σ → Option Context
  | .script context (.pure (.ok _)) =>
    if e.look context.thread false (·.isRunning) then none else some context
  | .script context (.pure (.error _)) => some context
  | .complete context => some context
  | _ => none

/-- The ticket of the script of a thread that an item of work tells to stop. -/
def stops? (id : ThreadId) (work : Work σ) : Option Nat :=
  (work.aborts?.filter (·.context.thread == id)).map (·.context.ticket)

/-- The script of code that goes on goes on with it. -/
theorem Continues.holds? {e : Engine σ} {work next : Work σ} (h : work.Continues e next) :
    (work.settles? e).toList ++ [next].filterMap Work.holds? = work.holds?.toList := by
  cases h with
  | script hcode => cases hcode <;> rfl
  | hook => rfl
  | abortHook => rfl

theorem Continues.arrives? {e : Engine σ} {work next : Work σ} (h : work.Continues e next) :
    [next].filterMap Work.arrives? = [] := by
  cases h <;> rfl

end Work

namespace Engine

variable {e e' : Engine σ} {id : ThreadId} {t t' p : ThreadState} {work : Work σ}
  {todo : List (Work σ)} {plugins : Plugins σ}

/-! ## Scripts that are moved on -/

/-- What an item of work does with the scripts: it moves them on, works off the end of at most one,
and brings in at most one, which has just taken the slot of its thread and is arrived at. -/
def Hands (e : Engine σ) (work : Work σ) (todo : List (Work σ)) (e' : Engine σ) : Prop :=
  ∃ script : Option Instance, (∀ a ∈ script, e.Takes a e') ∧
    todo.filterMap Work.arrives? = (script.map fun a => (a.context.thread, a)).toList ∧
    ((work.settles? e).toList ++ (todo.filterMap Work.holds? ++ e'.stored)).Perm
      ((script.map (·.context)).toList ++ (work.holds?.toList ++ e.stored))

theorem hands_of_perm (harrives : todo.filterMap Work.arrives? = [])
    (h : ((work.settles? e).toList ++ (todo.filterMap Work.holds? ++ e'.stored)).Perm
      (work.holds?.toList ++ e.stored)) : e.Hands work todo e' := by
  refine ⟨none, ?_, harrives, h⟩
  rintro a ⟨⟩

/-- The script of an item of work that moves no other one goes on in `last`, or it is at its end. -/
theorem Loads.hands (h : e.Loads todo e') (hstored : e'.stored = e.stored) {last : List (Work σ)}
    (harrives : last.filterMap Work.arrives? = [])
    (hlast : (work.settles? e).toList ++ last.filterMap Work.holds? = work.holds?.toList) :
    e.Hands work (todo ++ last) e' := by
  obtain ⟨script, htakes, hholds, harrived⟩ := h
  refine ⟨script, htakes, ?_, ?_⟩
  · rw [List.filterMap_append, harrived, harrives, List.append_nil]
  · rw [List.filterMap_append, hholds, hstored, ← hlast, List.perm_iff_count]
    intro context
    simp only [List.count_append]
    omega

theorem hands_of_stored (hstored : e'.stored = e.stored)
    (harrives : todo.filterMap Work.arrives? = [])
    (hlast : (work.settles? e).toList ++ todo.filterMap Work.holds? = work.holds?.toList) :
    e.Hands work todo e' := by
  have hnothing : e.Loads [] e' := .nothing (by simp)
  exact hnothing.hands hstored harrives hlast

theorem stored_of_custody (h : e'.custody = e.custody) : e'.stored = e.stored :=
  congrArg Prod.fst h

@[simp]
theorem stored_modifyThread (f : ThreadState → ThreadState) :
    (e.modifyThread id f).stored = e.stored := by
  unfold modifyThread
  split <;> rfl

theorem perm_wakeCancelled (meant : Context → Bool) :
    (e.wakeCancelled meant).stored.Perm e.stored := by
  have hwoken : ∀ waiting : List (Suspended σ),
      (waiting.map Suspended.wake).filterMap Task.holds? = waiting.map (·.context) := by
    intro waiting
    rw [List.filterMap_map, ← List.filterMap_eq_map]
    rfl
  simp only [stored, wakeCancelled, List.filterMap_append, hwoken, List.append_assoc]
  -- those that go on and those that wait on are all that waited
  apply List.Perm.append_left
  rw [← List.map_append]
  exact (List.filter_append_perm _ _).map _

theorem perm_cancel (context : Context) : (e.cancel context).stored.Perm e.stored := by
  have hwoken := perm_wakeCancelled
    (e := e.modifyThread context.thread fun t =>
      { t with cancelled := context.ticket :: t.cancelled })
    fun c => c.thread == context.thread && c.ticket == context.ticket
  rwa [stored_modifyThread] at hwoken

theorem perm_release (id : ThreadId) : (e.release id).stored.Perm e.stored := by
  have hwoken := perm_wakeCancelled (e := e.modifyThread id fun t => { t with ended := true })
    fun c => c.thread == id
  rwa [stored_modifyThread] at hwoken

theorem perm_handPermits (tag : String) (count : Nat) :
    (e.handPermits tag count).stored.Perm e.stored := by
  induction count generalizing e with
  | zero => exact .refl _
  | succ count ih =>
    unfold handPermits
    dsimp only
    split
    next s hs =>
      refine ih.trans ?_
      obtain ⟨hwants, before, after, hsuspended, hbefore⟩ := List.find?_eq_some_iff_append.1 hs
      have hnot : ∀ other ∈ before, ¬ (other.reason == Wait.permit tag) = true := by
        intro other hother
        simpa using hbefore other hother
      have herased : e.suspended.eraseP (·.reason == Wait.permit tag) = before ++ after := by
        rw [hsuspended, List.eraseP_append_right _ hnot]
        simp [hwants]
      -- the script that gets a permit goes from the waiting ones to the end of the queue
      simp only [stored, enqueue]
      rw [herased, hsuspended, List.perm_iff_count]
      intro context
      simp only [List.filterMap_append, List.filterMap_cons, List.filterMap_nil, List.map_append,
        List.map_cons, List.count_append, List.count_cons, Suspended.wake, Task.holds?,
        List.count_nil]
      omega
    next => exact .refl _

/-- What an item of work does with the scripts. -/
theorem WorkedOff.hands (h : e.WorkedOff plugins work todo e') (hn : e.Numbered) :
    e.Hands work todo e' := by
  cases h with
  | asked hasks hnext =>
    exact (loads_answer hn _).hands (stored_of_custody (custody_answer hn _)) hnext.arrives?
      hnext.holds?
  | continued hasks hnext => exact hands_of_stored rfl hnext.arrives? hnext.holds?
  | suspended =>
    apply hands_of_perm rfl
    rw [List.perm_iff_count]
    intro other
    simp only [Work.settles?, Work.holds?, stored, List.map_append, List.map_cons, List.map_nil,
      List.filterMap_nil, Option.toList_none, Option.toList_some, List.nil_append,
      List.count_append]
    omega
  | ended hrunning =>
    -- the script is about to be completed
    apply hands_of_stored rfl rfl
    simp only [Work.settles?, hrunning, if_true]
    rfl
  | endedLate hgone =>
    apply hands_of_stored rfl rfl
    simp [Work.settles?, hgone, Work.holds?]
  | failed hcurrent => exact hands_of_stored (stored_modifyThread _) rfl rfl
  | aborted => exact hands_of_perm rfl (perm_cancel _)
  | spawned =>
    apply hands_of_perm rfl
    rw [List.perm_iff_count]
    intro other
    simp only [Work.settles?, Work.holds?, stored, enqueue, Task.holds?, List.filterMap_append,
      List.filterMap_cons, List.filterMap_nil, Option.toList_none, Option.toList_some,
      List.nil_append, List.count_append]
    omega
  | @completed context t p ht hprep =>
    have hid := hprep.kin_run.id.symm.trans (hn _ _ ht)
    have hset := thread?_setThread_self (by rwa [hid] : e.thread? _ = some t)
    rw [hid] at hset
    have hloads : e.Loads _ _ := loads_advanceWork hn ht hprep hset (.refl _)
    have hhands : e.Hands (.complete context) (_ ++ []) _ := hloads.hands rfl rfl rfl
    rwa [List.append_nil] at hhands
  | destroying hrunning => exact hands_of_stored (stored_modifyThread _) rfl rfl
  | @cleared other =>
    have hdropped := stored_of_custody (custody_dropStart hn other)
    apply hands_of_stored
    · exact (stored_modifyThread _).trans hdropped
    · cases e.look other none (·.inFlight) <;> rfl
    · cases e.look other none (·.inFlight) <;> rfl
  | released => exact hands_of_perm rfl (perm_release _)
  | @started other =>
    have hqueued : (e.enqueue (.start other)).stored = e.stored := by
      simp [stored, enqueue, Task.holds?]
    exact hands_of_stored ((stored_modifyThread _).trans hqueued) rfl rfl
  | _ => exact hands_of_stored rfl rfl rfl

/-! ## Notes -/

theorem marks_of_custody (h : e'.custody = e.custody) : e'.marks = e.marks := congrArg Prod.snd h

theorem marks_modifyThread {f : ThreadState → ThreadState} {other : ThreadId} (hn : e.Numbered)
    (hf : ∀ t : ThreadState, (f t).id = t.id) (ht : e.thread? id = some t) :
    (e.modifyThread other f).marks id =
      if other = id then ((f t).cancelled, (f t).ended) else (t.cancelled, t.ended) := by
  by_cases hid : other = id
  · subst hid
    have hset : (e.setThread (f t)).thread? (f t).id = some (f t) := by
      apply thread?_setThread_self
      rwa [hf, hn _ _ ht]
    rw [hf, hn _ _ ht] at hset
    rw [modifyThread_eq ht, marks_eq hset, if_pos rfl]
  · rw [if_neg hid]
    rcases hs : e.thread? other with _ | s
    · rw [modifyThread_none hs, marks_eq ht]
    · have hne : id ≠ (f s).id := by
        rw [hf, hn _ _ hs]
        exact Ne.symm hid
      rw [modifyThread_eq hs, marks_eq ((thread?_setThread_ne hne).trans ht)]

/-- What an item of work notes about a thread: that a script was told to stop, or that the thread
has ended. -/
def Notes (e : Engine σ) (work : Work σ) (e' : Engine σ) : Prop :=
  ∀ id t, e.thread? id = some t →
    e'.marks id = ((work.stops? id).toList ++ t.cancelled, t.ended || work.releases? == some id)

theorem notes_of_marks (h : e'.marks = e.marks) (haborts : work.aborts? = none)
    (hreleases : work.releases? = none) : e.Notes work e' := by
  intro id t ht
  rw [h, marks_eq ht]
  simp [Work.stops?, haborts, hreleases]

theorem WorkedOff.notes (h : e.WorkedOff plugins work todo e') (hn : e.Numbered) :
    e.Notes work e' := by
  have same : ∀ {work : Work σ} {e' : Engine σ}, e'.custody = e.custody → work.aborts? = none →
      work.releases? = none → e.Notes work e' := by
    intro work e' hcustody haborts hreleases
    exact notes_of_marks (marks_of_custody hcustody) haborts hreleases
  cases h with
  | asked hasks hnext => cases hnext <;> exact same (custody_answer hn _) rfl rfl
  | continued hasks hnext => cases hnext <;> exact same rfl rfl rfl
  | failed hcurrent => exact same (custody_modifyThread hn _ fun _ => ⟨rfl, rfl, rfl⟩) rfl rfl
  | @aborted script =>
    intro id t ht
    refine (marks_modifyThread hn ?_ ht).trans ?_
    · intro s
      rfl
    · by_cases hid : script.context.thread = id <;>
        simp [hid, Work.stops?, Work.aborts?, Work.releases?, Option.filter]
  | completed ht hprep =>
    apply same _ rfl rfl
    apply custody_setThread _ hprep.sameMarks_run
    rwa [hn _ _ ht]
  | destroying hrunning => exact same (custody_modifyThread hn _ fun _ => ⟨rfl, rfl, rfl⟩) rfl rfl
  | @cleared other =>
    apply same _ rfl rfl
    have hdropped := (keeps_dropStart hn other).numbered hn
    refine (custody_modifyThread hdropped other ?_).trans (custody_dropStart hn other)
    intro t
    exact ⟨rfl, rfl, rfl⟩
  | @released other =>
    intro id t ht
    refine (marks_modifyThread hn ?_ ht).trans ?_
    · intro s
      rfl
    · by_cases hid : other = id <;> simp [hid, Work.stops?, Work.aborts?, Work.releases?]
  | @started other =>
    apply notes_of_marks _ rfl rfl
    have hn' : (e.enqueue (.start other)).Numbered := hn
    apply (marks_of_custody (custody_modifyThread hn' other _)).trans
    · rfl
    · intro t
      split <;> exact ⟨rfl, rfl, rfl⟩
  | _ => exact notes_of_marks rfl rfl rfl

end Engine

namespace Machine

variable {plugins : Plugins σ} {m m' : Machine σ} {event : Event σ} {id : ThreadId}
  {t : ThreadState}

/-! ## Steps -/

/-- The scripts that are somewhere: on the stack, ready, or waiting. -/
def held (m : Machine σ) : List Context := m.stack.filterMap Work.holds? ++ m.engine.stored

/-- The script whose end a step works off. -/
def Event.settles? (e : Engine σ) : Event σ → Option Context
  | .work item => item.settles? e
  | _ => none

theorem filterMap_cons_eq {α β : Type} (f : α → Option β) (x : α) (xs : List α) :
    (x :: xs).filterMap f = (f x).toList ++ xs.filterMap f := by
  cases h : f x <;> simp [h]

/-- What a step does with the scripts: it moves them on, works off the end of at most one, and
brings in at most one, which has just taken the slot of its thread and is arrived at. -/
theorem Step.hands (h : Step plugins m event m') (hn : m.engine.Numbered) :
    ∃ (script : Option Instance) (todo : List (Work σ)),
      (∀ a ∈ script, m.engine.Takes a m'.engine) ∧ m'.stack = todo ++ m.stack.tail ∧
      todo.filterMap Work.arrives? = (script.map fun a => (a.context.thread, a)).toList ∧
      ((event.settles? m.engine).toList ++ m'.held).Perm
        ((script.map (·.context)).toList ++ m.held) := by
  -- steps that bring in no script
  have nothing : ∀ todo : List (Work σ), m'.stack = todo ++ m.stack.tail →
      todo.filterMap Work.arrives? = [] → event.settles? m.engine = none →
      m'.held.Perm m.held →
      ∃ (script : Option Instance) (todo : List (Work σ)),
        (∀ a ∈ script, m.engine.Takes a m'.engine) ∧ m'.stack = todo ++ m.stack.tail ∧
        todo.filterMap Work.arrives? = (script.map fun a => (a.context.thread, a)).toList ∧
        ((event.settles? m.engine).toList ++ m'.held).Perm
          ((script.map (·.context)).toList ++ m.held) := by
    intro todo hstack harrives hsettles hperm
    refine ⟨none, todo, ?_, hstack, harrives, ?_⟩
    · rintro a ⟨⟩
    · rw [hsettles]
      exact hperm
  cases h with
  | @work e work rest =>
    obtain ⟨script, htakes, harrives, hperm⟩ :=
      (Engine.workedOff_perform plugins e work).hands hn
    refine ⟨script, _, htakes, rfl, harrives, ?_⟩
    rw [List.perm_iff_count]
    intro context
    have hcount := hperm.count_eq context
    simp only [held, List.filterMap_append, filterMap_cons_eq, List.count_append,
      Event.settles?] at hcount ⊢
    omega
  | @task e before after task hqueue =>
    cases task with
    | start other =>
      -- a first run holds no script, but it can dispatch one
      let dequeued : Engine σ := { e with queue := before ++ after }
      have hdequeued : dequeued.stored = e.stored := by
        simp only [dequeued, Engine.stored, hqueue, List.filterMap_append, filterMap_cons_eq]
        rfl
      have hheld : ∀ e' : Engine σ, e'.stored = e.stored → ∀ stack : List (Work σ),
          stack.filterMap Work.holds? = [] → (held ⟨e', stack⟩).Perm (held ⟨e, []⟩) := by
        intro e' hstored stack hstack
        simp [held, hstored, hstack]
      rcases take_start_cases plugins dequeued other with
        ⟨-, htake⟩ | ⟨t, ht, ⟨-, -, htake⟩ | ⟨p, hprep, htake⟩⟩
      · rw [htake] at nothing ⊢
        exact nothing [] rfl rfl rfl (hheld _ hdequeued _ rfl)
      · rw [htake] at nothing ⊢
        exact nothing _ (List.append_nil _).symm rfl rfl (hheld _ hdequeued _ rfl)
      · have hn' : dequeued.Numbered := hn
        have hid := hprep.kin_run.id.symm.trans (hn' _ _ ht)
        have hset := Engine.thread?_setThread_self (by rwa [hid] : dequeued.thread? _ = some t)
        rw [hid] at hset
        have hloads : dequeued.Loads _ _ :=
          Engine.loads_advanceWork hn' ht hprep hset (.refl _)
        obtain ⟨script, htakes, hholds, harrives⟩ := hloads
        rw [htake]
        refine ⟨script, _, htakes, (List.append_nil _).symm, harrives, ?_⟩
        have hstored : (dequeued.setThread p.run.2).stored = e.stored := hdequeued
        rw [held, held, hholds, hstored]
        exact .refl _
    | begin script =>
      apply nothing _ (List.append_nil _).symm rfl rfl
      rw [List.perm_iff_count]
      intro context
      simp only [held, take, Engine.stored, hqueue, List.filterMap_append, filterMap_cons_eq,
        List.filterMap_nil, List.count_append, Work.holds?, Task.holds?, List.count_nil]
      omega
    | resume waiting rest =>
      apply nothing _ (List.append_nil _).symm rfl rfl
      rw [List.perm_iff_count]
      intro context
      simp only [held, take, Engine.stored, hqueue, List.filterMap_append, filterMap_cons_eq,
        List.filterMap_nil, List.count_append, Work.holds?, Task.holds?, List.count_nil]
      omega
  | @ask e query =>
    obtain ⟨script, htakes, hholds, harrives⟩ := Engine.loads_answer hn query
    have hstored := Engine.stored_of_custody (Engine.custody_answer hn query)
    refine ⟨script, _, htakes, rfl, harrives, ?_⟩
    have hheld : ((⟨e, []⟩ : Machine σ).ask query).2.held =
        (script.map (·.context)).toList ++ e.stored := by
      simp only [held, Machine.ask, List.append_nil, hholds, hstored]
    rw [hheld]
    exact .refl _
  | permits tag count => exact nothing [] rfl rfl rfl (Engine.perm_handPermits _ _)
  | letGo => exact nothing [] rfl rfl rfl (.refl _)
  | outside host log => exact nothing [] rfl rfl rfl (.refl _)

theorem Stage.dispatched?_of_takes {a : Instance} (h : m.engine.Takes a m'.engine) :
    Stage.dispatched? a.context.thread ⟨m, event, m'⟩ = some a := by
  obtain ⟨t, t', ht, ht', hticket, hflight⟩ := h
  simp [Stage.dispatched?, lastTicket_eq ht, lastTicket_eq ht', slot_eq ht', hticket, hflight]

/-! ## The account of the scripts -/

/-- Every script that is somewhere was dispatched, is there once, and has not ended. -/
structure Custody (stages : List (Stage σ)) (m : Machine σ) : Prop where
  once : m.held.Nodup
  dispatched : ∀ context ∈ m.held, ∃ a ∈ dispatches context.thread stages, a.context = context
  unsettled : ∀ context ∈ m.held, ∀ a manner,
    (a, manner) ∈ retirements context.thread stages → a.context = context → manner.tells = true

/-- No two scripts of a thread were dispatched under one ticket. -/
theorem Ledger.unique {stages : List (Stage σ)} (hl : Ledger id stages m) {a b : Instance}
    (ha : a ∈ dispatches id stages) (hb : b ∈ dispatches id stages)
    (hticket : a.context.ticket = b.context.ticket) : a = b := by
  obtain ⟨i, hi, rfl⟩ := List.getElem_of_mem ha
  obtain ⟨j, hj, rfl⟩ := List.getElem_of_mem hb
  have hlt := List.pairwise_iff_getElem.1 hl.increasing
  rcases Nat.lt_trichotomy i j with hij | rfl | hij
  · have := hlt i j hi hj hij
    omega
  · rfl
  · have := hlt j i hj hi hij
    omega

theorem Ledger.mem_of_retired {stages : List (Stage σ)} (hl : Ledger id stages m) {a : Instance}
    {manner : Retirement} (ha : (a, manner) ∈ retirements id stages) :
    a ∈ dispatches id stages := by
  rw [hl.balance]
  exact List.mem_append_left _ (List.mem_map.2 ⟨_, ha, rfl⟩)

theorem Stage.slot_of_retired {s : Stage σ} {a : Instance} {manner : Retirement}
    (h : s.retired? id = some (a, manner)) : s.before.slot id = some a := by
  unfold retired? at h
  split at h
  · cases h
  · obtain ⟨script, hslot, heq⟩ := Option.map_eq_some_iff.1 h
    cases heq
    exact hslot

/-- A script that was dispatched before is not the one that is dispatched now. -/
theorem Ledger.ne_of_dispatched {stages : List (Stage σ)} (hl : Ledger id stages m)
    (h : Step plugins m event m') (hm : Invariant m) {a b : Instance}
    (ha : a ∈ dispatches id stages) (hb : Stage.dispatched? id ⟨m, event, m'⟩ = some b) :
    a.context ≠ b.context := by
  intro heq
  have hold := (hl.bounded a ha).2
  have hnew : m.lastTicket id < b.context.ticket := ((h.booked hm id).fresh b hb).2.1
  rw [heq] at hold
  omega

/-- A step ends the script that it retires as completed or failed, and this script is somewhere. -/
theorem Step.settles_of_retired {s : Stage σ} (h : Step plugins s.before s.event s.after)
    {t t' : ThreadState} {a : Instance} {manner : Retirement}
    (hretires : Retires id s t t' a manner) :
    manner.tells = true ∨ ∃ context ∈ s.before.held, context.thread = id ∧
      context.ticket = a.context.ticket ∧ s.event.settles? s.before.engine = some context := by
  obtain ⟨⟨e, stack⟩, event, m'⟩ := s
  cases hretires with
  | @completed context rest p hevent hthread hticket =>
    cases hevent
    obtain ⟨rest, hstack⟩ := h.stack_of_event
    cases hstack
    refine .inr ⟨context, ?_, hthread, hticket, rfl⟩
    exact List.mem_append_left _ (List.mem_filterMap.2 ⟨_, List.mem_cons_self, rfl⟩)
  | @failed context failure rest hevent hthread hticket =>
    cases hevent
    obtain ⟨rest, hstack⟩ := h.stack_of_event
    cases hstack
    refine .inr ⟨context, ?_, hthread, hticket, rfl⟩
    exact List.mem_append_left _ (List.mem_filterMap.2 ⟨_, List.mem_cons_self, rfl⟩)
  | superseded => exact .inl rfl
  | destroyed => exact .inl rfl

/-- What is somewhere after a step was there before, or is dispatched by it. -/
theorem Step.origin (h : Step plugins m event m') (hn : m.engine.Numbered) {context : Context}
    (hcontext : context ∈ m'.held) :
    context ∈ m.held ∨
      ∃ a, Stage.dispatched? context.thread ⟨m, event, m'⟩ = some a ∧ a.context = context := by
  obtain ⟨script, -, htakes, -, -, hperm⟩ := h.hands hn
  have hmem := hperm.mem_iff.1 (List.mem_append_right _ hcontext)
  rcases List.mem_append.1 hmem with hmem | hmem
  · simp only [Option.mem_toList, Option.map_eq_some_iff] at hmem
    obtain ⟨a, ha, rfl⟩ := hmem
    exact .inr ⟨a, Stage.dispatched?_of_takes (htakes a ha), rfl⟩
  · exact .inl hmem

/-- After a step every script is in one place, and the one whose end was worked off is in none. -/
theorem Custody.nodup_step {stages : List (Stage σ)} (hc : Custody stages m)
    (hl : ∀ id, Ledger id stages m) (h : Step plugins m event m') (hm : Invariant m) :
    ((event.settles? m.engine).toList ++ m'.held).Nodup := by
  obtain ⟨script, -, htakes, -, -, hperm⟩ := h.hands hm.numbered
  rw [hperm.nodup_iff]
  cases script with
  | none => exact hc.once
  | some a =>
    refine List.nodup_cons.2 ⟨?_, hc.once⟩
    intro hmem
    obtain ⟨b, hb, heq⟩ := hc.dispatched _ hmem
    exact (hl _).ne_of_dispatched h hm hb (Stage.dispatched?_of_takes (htakes a rfl)) heq

theorem Custody.step {stages : List (Stage σ)} (hc : Custody stages m)
    (hl : ∀ id, Ledger id stages m) (h : Step plugins m event m') (hm : Invariant m) :
    Custody (stages ++ [⟨m, event, m'⟩]) m' := by
  have hafter := hc.nodup_step hl h hm
  constructor
  · exact (List.nodup_append.1 hafter).2.1
  · intro context hcontext
    rw [dispatches, filterMap_snoc]
    rcases h.origin hm.numbered hcontext with hold | ⟨a, ha, rfl⟩
    · obtain ⟨a, ha, heq⟩ := hc.dispatched context hold
      exact ⟨a, List.mem_append_left _ ha, heq⟩
    · refine ⟨a, List.mem_append_right _ ?_, rfl⟩
      rw [ha]
      exact List.mem_singleton_self a
  · rintro context hcontext a manner hretired rfl
    rcases mem_of_filterMap_snoc hretired with hretired | hretired
    · rcases h.origin hm.numbered hcontext with hold | ⟨b, hb, heq⟩
      · exact hc.unsettled _ hold a manner hretired rfl
      · -- a script that is dispatched now was not retired before
        have hdispatched := (hl _).mem_of_retired hretired
        exact absurd heq.symm ((hl _).ne_of_dispatched h hm hdispatched hb)
    · obtain ⟨t, t', -, -, hretires⟩ := (h.booked hm _).retires a manner hretired
      rcases h.settles_of_retired hretires with
        htells | ⟨settled, hheld, hthread, hticket, hsettles⟩
      · exact htells
      · -- the script whose end is worked off is this one, and it is nowhere afterwards
        exfalso
        have hslot : a ∈ dispatches a.context.thread stages := by
          rw [(hl _).balance]
          exact List.mem_append_right _ (Option.mem_toList.2 (Stage.slot_of_retired hretired))
        obtain ⟨b, hb, rfl⟩ := hc.dispatched settled hheld
        rw [hthread] at hb
        cases (hl _).unique hb hslot hticket
        rw [hsettles] at hafter
        exact (List.nodup_cons.1 hafter).1 hcontext

/-- Every script that is somewhere was dispatched, is there once, and has not ended. -/
theorem Run.custody {host : σ} {config : CoreConfig} {stages : List (Stage σ)}
    (h : Run plugins (opened host config) stages m) : Custody stages m := by
  induction h with
  | start =>
    constructor
    · exact List.nodup_nil
    · rintro context ⟨⟩
    · rintro context ⟨⟩
  | step hrun hstep ih => exact ih.step (fun id => (hrun.ledger id).1) hstep hrun.invariant

end Machine
end SentenceEngine
