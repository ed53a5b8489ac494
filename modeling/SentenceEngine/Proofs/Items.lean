import SentenceEngine.Proofs.Effects

/-!
# Items of work

What doing an item of work comes to, said once and item by item: the work that it leaves on the
stack, and the engine after it. Whatever else is to be said of the items of work is read off this.

* `Work.Continues`: code that goes on.
* `Engine.WorkedOff`, `Engine.workedOff_perform`: what each item of work comes to.
* `Engine.Performed`: all that an item of work can do to the threads.
-/

namespace SentenceEngine

variable {σ : Type}

/-! ## Code that goes on -/

/-- Code goes on with the reply to what it asks for, or after it writes to the log, changes the
state or waits. -/
inductive Behaviour.Precedes {ω α : Type} (e : Engine σ) :
    Behaviour σ ω α → Behaviour σ ω α → Prop
  | ask {query : Query} {next : query.Reply → Behaviour σ ω α} :
      Precedes e (.ask query next) (next (e.answer query).reply)
  | log {entry : LogEntry} {next : Behaviour σ ω α} : Precedes e (.log entry next) next
  | update {change : σ → σ} {next : σ → Behaviour σ ω α} :
      Precedes e (.update change next) (next e.host)
  | wait {reason : ω} {next : Behaviour σ ω α} : Precedes e (.wait reason next) next

/-- What code does to the state of scripts and services in its next step. -/
def Behaviour.change {ω α : Type} : Behaviour σ ω α → σ → σ
  | .update change _ => change
  | _ => id

/-- What an item of work does to the state of scripts and services. -/
def Work.change : Work σ → σ → σ
  | .script _ code => code.change
  | .hook _ code => code.change
  | .abortHook _ code => code.change
  | _ => id

/-- The tag of the permit that a script waits for. -/
def Work.waitsFor? : Work σ → Option String
  | .script _ (.wait (.permit tag) _) => some tag
  | _ => none

/-- An item of work that is code goes on as an item of its kind. -/
inductive Work.Continues (e : Engine σ) : Work σ → Work σ → Prop
  | script {context : Context} {code next : Behaviour σ Wait Outcome}
      (hcode : code.Precedes e next) : Continues e (.script context code) (.script context next)
  | hook {notification : Notification} {code next : Behaviour σ Empty Outcome}
      (hcode : code.Precedes e next) :
      Continues e (.hook notification code) (.hook notification next)
  | abortHook {context : Context} {code next : Behaviour σ Empty Unit}
      (hcode : code.Precedes e next) :
      Continues e (.abortHook context code) (.abortHook context next)

namespace Work

variable {e : Engine σ} {work next : Work σ}

theorem Continues.isCode (h : work.Continues e next) : next.isCode = true := by
  cases h <;> rfl

/-- Code that asks for nothing makes no thread move as long as it goes on. -/
theorem Continues.moveOf (h : work.Continues e next) (hasks : work.asks? = none) (id : ThreadId)
    (t : ThreadState) : work.moveOf id t = .still := by
  cases h with
  | script hcode =>
    cases hcode with
    | ask => cases hasks
    | _ => rfl
  | hook hcode =>
    cases hcode with
    | ask => cases hasks
    | _ => rfl
  | abortHook hcode =>
    cases hcode with
    | ask => cases hasks
    | _ => rfl

/-- Code that asks for something leaves the state of scripts and services as it is. -/
theorem Continues.change (h : work.Continues e next) {query : Query}
    (hasks : work.asks? = some query) : work.change = id := by
  cases h with
  | script hcode =>
    cases hcode with
    | ask => rfl
    | _ => cases hasks
  | hook hcode =>
    cases hcode with
    | ask => rfl
    | _ => cases hasks
  | abortHook hcode =>
    cases hcode with
    | ask => rfl
    | _ => cases hasks

end Work

namespace Engine

variable {plugins : Plugins σ} {e e' : Engine σ} {work : Work σ} {todo : List (Work σ)}
  {id : ThreadId} {t : ThreadState}

/-! ## Item by item -/

/-- What doing an item of work comes to: the work that it leaves, and the engine after it. -/
inductive WorkedOff (plugins : Plugins σ) (e : Engine σ) :
    Work σ → List (Work σ) → Engine σ → Prop
  /-- Code goes on below what its request leaves to do. -/
  | asked {work next : Work σ} {query : Query} (hasks : work.asks? = some query)
      (hnext : work.Continues e next) :
      WorkedOff plugins e work ((e.answer query).todo ++ [next]) (e.answer query).engine
  /-- Code that asks for nothing goes on, and changes at most the state of scripts and services and
  the log. A script that waits for a permit takes it. -/
  | continued {work next : Work σ} {host : σ} {log : List LogEntry} {permits : Dictionary Nat}
      (hasks : work.asks? = none) (hnext : work.Continues e next)
      (hhost : host = work.change e.host)
      (hpermits : permits = e.permits ∨
        ∃ tag, work.waitsFor? = some tag ∧ e.takePermit? tag = some { e with permits }) :
      WorkedOff plugins e work [next] { e with host, log, permits }
  | suspended {context : Context} {reason : Wait} {rest : Behaviour σ Wait Outcome} :
      WorkedOff plugins e (.script context (.wait reason rest)) []
        { e with suspended := e.suspended ++ [⟨reason, context, rest⟩] }
  /-- The good end of a script is told while its thread runs, and then the script is completed. -/
  | ended {context : Context} {done : Unit}
      (hrunning : e.look context.thread false (·.isRunning) = true) :
      WorkedOff plugins e (.script context (.pure (.ok done)))
        [.notify (e.servicesOf context.thread) (.after context.thread context.instruction),
          .complete context] e
  | endedLate {context : Context} {done : Unit}
      (hgone : e.look context.thread false (·.isRunning) = false) :
      WorkedOff plugins e (.script context (.pure (.ok done))) [] e
  /-- The failure of a script lets its thread fail while it is in flight. -/
  | failed {context : Context} {failure : Failure}
      (hcurrent : e.look context.thread false (·.isCurrent context.ticket) = true) :
      WorkedOff plugins e (.script context (.pure (.error failure)))
        [.fail context.thread (.script context.name failure)]
        (e.modifyThread context.thread fun t => { t with inFlight := none })
  | failedLate {context : Context} {failure : Failure}
      (hlost : e.look context.thread false (·.isCurrent context.ticket) = false) :
      WorkedOff plugins e (.script context (.pure (.error failure))) [] e
  /-- A service is done. If it failed, the log says so. -/
  | spoken {notification : Notification} {outcome : Outcome} {log : List LogEntry} :
      WorkedOff plugins e (.hook notification (.pure outcome)) [] { e with log }
  | stopped {context : Context} {done : Unit} :
      WorkedOff plugins e (.abortHook context (.pure done)) [] e
  | told {notification : Notification} : WorkedOff plugins e (.notify [] notification) [] e
  | called {service : ServiceId} {services : ServiceSet} {notification : Notification} :
      WorkedOff plugins e (.notify (service :: services) notification)
        [.hook notification (plugins.service service notification),
          .notify services notification] e
  | announced {notification : Notification} :
      WorkedOff plugins e (.announce notification) [.notify e.services notification] e
  | aborted {script : Instance} :
      WorkedOff plugins e (.abort script)
        [.abortHook script.context ((plugins.script script.script).abort script.context)]
        (e.cancel script.context)
  | idle {id : ThreadId} : WorkedOff plugins e (.arrive id .idle) [] e
  | exhausted {id : ThreadId} : WorkedOff plugins e (.arrive id .exhausted) [.destroy id] e
  | fatal {id : ThreadId} {error : ThreadError} :
      WorkedOff plugins e (.arrive id (.fatal error)) [.fail id error] e
  | dispatched {id : ThreadId} {script : Instance} :
      WorkedOff plugins e (.arrive id (.dispatch script))
        [.notify (e.servicesOf id) (.before id script.context.instruction), .spawn script] e
  | spawned {script : Instance} :
      WorkedOff plugins e (.spawn script) [] (e.enqueue (.begin script))
  /-- The script in flight is completed, and its thread goes on. -/
  | completed {context : Context} {t p : ThreadState}
      (ht : e.thread? context.thread = some t) (hprep : t.Prepares (.completed context) p) :
      WorkedOff plugins e (.complete context) (advanceWork context.thread p.run.1)
        (e.setThread p.run.2)
  | completedLate {context : Context}
      (hlost : e.look context.thread false (·.isCurrent context.ticket) = false) :
      WorkedOff plugins e (.complete context) [] e
  | reported {id : ThreadId} {error : ThreadError} :
      WorkedOff plugins e (.fail id error)
        [.notify (e.servicesOf id) (.error id error), .destroy id] e
  /-- The destruction of a thread that runs begins, and is told. -/
  | destroying {id : ThreadId} (hrunning : e.look id false (·.isRunning) = true) :
      WorkedOff plugins e (.destroy id) [.notify (e.servicesOf id) (.willDestroy id), .clear id]
        (e.modifyThread id fun t => { t with phase := .destroying })
  | destroyedLate {id : ThreadId} (hgone : e.look id false (·.isRunning) = false) :
      WorkedOff plugins e (.destroy id) [] e
  | cleared {id : ThreadId} :
      WorkedOff plugins e (.clear id)
        (((e.look id none (·.inFlight)).map Work.abort).toList ++ [.release id])
        ((e.dropStart id).modifyThread id (·.clear))
  | released {id : ThreadId} : WorkedOff plugins e (.release id) [] (e.release id)
  | started {id : ThreadId} :
      WorkedOff plugins e (.start id) []
        ((e.enqueue (.start id)).modifyThread id fun t =>
          if t.isRunning && !t.started then { t with startPending := true } else t)
  | reopened : WorkedOff plugins e .reopen [] { e with initialized := false }

theorem workedOff_settle (context : Context) (outcome : Outcome) :
    e.WorkedOff plugins (.script context (.pure outcome)) (Machine.settle e context outcome).1
      (Machine.settle e context outcome).2 := by
  cases outcome with
  | ok done =>
    simp only [Machine.settle]
    split
    next hrunning => exact .ended hrunning
    next hgone => exact .endedLate (Bool.not_eq_true _ ▸ hgone)
  | error failure =>
    simp only [Machine.settle]
    split
    next hcurrent => exact .failed hcurrent
    next hlost => exact .failedLate (Bool.not_eq_true _ ▸ hlost)

theorem workedOff_suspend (context : Context) (reason : Wait) (rest : Behaviour σ Wait Outcome) :
    e.WorkedOff plugins (.script context (.wait reason rest))
      (Machine.suspend e context rest reason).1 (Machine.suspend e context rest reason).2 := by
  -- what it waits for is there, or the script is laid aside
  cases reason with
  | permit tag =>
    simp only [Machine.suspend]
    split
    next taken htaken =>
      obtain ⟨permits, rfl⟩ : ∃ permits, taken = { e with permits } := by
        unfold takePermit? at htaken
        split at htaken
        · cases htaken
          exact ⟨_, rfl⟩
        · cases htaken
      exact .continued rfl (.script .wait) rfl (.inr ⟨tag, rfl, htaken⟩)
    next => exact .suspended
  | cancellation =>
    simp only [Machine.suspend]
    split
    · exact .continued rfl (.script .wait) rfl (.inl rfl)
    · exact .suspended

theorem workedOff_complete (context : Context) :
    e.WorkedOff plugins (.complete context) (Machine.perform plugins e (.complete context)).1
      (Machine.perform plugins e (.complete context)).2 := by
  simp only [Machine.perform]
  rcases ht : e.thread? context.thread with _ | t
  · exact .completedLate (by simp [look, ht])
  rcases hcurrent : t.isCurrent context.ticket with _ | _
  · simp only [hcurrent]
    exact .completedLate (by rw [look_eq ht, hcurrent])
  · simp only [hcurrent, if_true, ThreadState.complete_eq]
    exact .completed ht (.completed hcurrent)

/-- Doing an item of work comes to this and to nothing else. -/
theorem workedOff_perform (plugins : Plugins σ) (e : Engine σ) (work : Work σ) :
    e.WorkedOff plugins work (Machine.perform plugins e work).1
      (Machine.perform plugins e work).2 := by
  cases work with
  | script context code =>
    cases code with
    | pure outcome => exact workedOff_settle context outcome
    | ask query next => exact .asked rfl (.script .ask)
    | log entry next => exact .continued rfl (.script .log) rfl (.inl rfl)
    | update change next => exact .continued rfl (.script .update) rfl (.inl rfl)
    | wait reason rest => exact workedOff_suspend context reason rest
  | hook notification code =>
    cases code with
    | pure outcome => cases outcome <;> exact .spoken
    | ask query next => exact .asked rfl (.hook .ask)
    | log entry next => exact .continued rfl (.hook .log) rfl (.inl rfl)
    | update change next => exact .continued rfl (.hook .update) rfl (.inl rfl)
    | wait reason rest => exact reason.elim
  | abortHook context code =>
    cases code with
    | pure done => exact .stopped
    | ask query next => exact .asked rfl (.abortHook .ask)
    | log entry next => exact .continued rfl (.abortHook .log) rfl (.inl rfl)
    | update change next => exact .continued rfl (.abortHook .update) rfl (.inl rfl)
    | wait reason rest => exact reason.elim
  | notify services notification =>
    cases services with
    | nil => exact .told
    | cons service services => exact .called
  | announce notification => exact .announced
  | abort script => exact .aborted
  | arrive id arrival =>
    cases arrival with
    | idle => exact .idle
    | exhausted => exact .exhausted
    | fatal error => exact .fatal
    | dispatch script => exact .dispatched
  | spawn script => exact .spawned
  | complete context => exact workedOff_complete context
  | fail id error => exact .reported
  | destroy id =>
    simp only [Machine.perform]
    split
    next hrunning => exact .destroying hrunning
    next hgone => exact .destroyedLate (Bool.not_eq_true _ ▸ hgone)
  | clear id => exact .cleared
  | release id => exact .released
  | start id => exact .started
  | reopen => exact .reopened

/-- Code that asks for something goes on below what its request leaves. -/
theorem WorkedOff.of_asks {query : Query} (h : e.WorkedOff plugins work todo e')
    (hasks : work.asks? = some query) :
    ∃ next, work.Continues e next ∧ todo = (e.answer query).todo ++ [next] ∧
      e' = (e.answer query).engine := by
  cases h with
  | asked hasked hnext =>
    cases hasked.symm.trans hasks
    exact ⟨_, hnext, rfl, rfl⟩
  | continued hnone => cases hnone.symm.trans hasks
  | _ => cases hasks

/-- The good end of a script is told while its thread runs. -/
theorem WorkedOff.of_success {context : Context} {done : Unit}
    (h : e.WorkedOff plugins (.script context (.pure (.ok done))) todo e') :
    (e.look context.thread false (·.isRunning) = true ∧ e' = e ∧
      todo = [.notify (e.servicesOf context.thread) (.after context.thread context.instruction),
        .complete context]) ∨
    (e.look context.thread false (·.isRunning) = false ∧ e' = e ∧ todo = []) := by
  cases h with
  | asked hasks => cases hasks
  | continued hasks hnext =>
    cases hnext with
    | script hcode => cases hcode
  | ended hrunning => exact .inl ⟨hrunning, rfl, rfl⟩
  | endedLate hgone => exact .inr ⟨hgone, rfl, rfl⟩

/-- The failure of a script is of account while it is in flight. -/
theorem WorkedOff.of_failure {context : Context} {failure : Failure}
    (h : e.WorkedOff plugins (.script context (.pure (.error failure))) todo e') :
    (e.look context.thread false (·.isCurrent context.ticket) = true ∧
      e' = e.modifyThread context.thread (fun t => { t with inFlight := none }) ∧
      todo = [.fail context.thread (.script context.name failure)]) ∨
    (e.look context.thread false (·.isCurrent context.ticket) = false ∧ e' = e ∧ todo = []) := by
  cases h with
  | asked hasks => cases hasks
  | continued hasks hnext =>
    cases hnext with
    | script hcode => cases hcode
  | failed hcurrent => exact .inl ⟨hcurrent, rfl, rfl⟩
  | failedLate hlost => exact .inr ⟨hlost, rfl, rfl⟩

/-! ## What it does to the threads -/

/-- All that doing an item of work can bring about. -/
inductive Performed (e : Engine σ) : Work σ → List (Work σ) → Engine σ → Prop
  | asked {work next : Work σ} {query : Query} {todo : List (Work σ)} {e' : Engine σ}
      (hasks : work.asks? = some query) (hcode : next.isCode = true)
      (hanswered : e.Answered query todo e') : Performed e work (todo ++ [next]) e'
  | kept {work : Work σ} {todo : List (Work σ)} {e' : Engine σ} (hasks : work.asks? = none)
      (hkeeps : e.Keeps e')
      (hstill : ∀ id t, e.thread? id = some t → work.moveOf id t = .still)
      (haborts : ∀ next ∈ todo, next.aborts? = none)
      (hreports : ∀ next ∈ todo, next.reports? = none ∨ next.reports? = work.reports?) :
      Performed e work todo e'
  | failed {context : Context} {failure : Failure} {t : ThreadState}
      (ht : e.thread? context.thread = some t) (hcurrent : t.isCurrent context.ticket = true) :
      Performed e (.script context (.pure (.error failure)))
        [.fail context.thread (.script context.name failure)]
        (e.setThread { t with inFlight := none })
  | completed {context : Context} {t p : ThreadState} (ht : e.thread? context.thread = some t)
      (hprep : t.Prepares (.completed context) p) :
      Performed e (.complete context) (advanceWork context.thread p.run.1) (e.setThread p.run.2)
  | destroying {id : ThreadId} {t : ThreadState} (ht : e.thread? id = some t)
      (hphase : t.phase = .running) :
      Performed e (.destroy id) [.notify (e.servicesOf id) (.willDestroy id), .clear id]
        (e.setThread { t with phase := .destroying })
  | cleared {id : ThreadId} {t : ThreadState} {e' : Engine σ} (ht : e.thread? id = some t)
      (hkeeps : (e.setThread t.clear).Keeps e') :
      Performed e (.clear id) ((t.inFlight.map Work.abort).toList ++ [.release id]) e'

/-- Only a request changes the registry, the defaults or the number of threads. -/
theorem Performed.asked_or_steady {work : Work σ} {todo : List (Work σ)}
    (h : e.Performed work todo e') :
    (∃ query todo' next, work.asks? = some query ∧ todo = todo' ++ [next] ∧
      next.isCode = true ∧ e.Answered query todo' e') ∨
    (work.asks? = none ∧ e.Steady e') := by
  cases h with
  | asked hasks hcode hanswered => exact .inl ⟨_, _, _, hasks, rfl, hcode, hanswered⟩
  | kept hasks hkeeps => exact .inr ⟨hasks, hkeeps.steady⟩
  | failed ht => exact .inr ⟨rfl, (Keeps.refl _).steady_of_setThread⟩
  | completed ht => exact .inr ⟨rfl, (Keeps.refl _).steady_of_setThread⟩
  | destroying ht => exact .inr ⟨rfl, (Keeps.refl _).steady_of_setThread⟩
  | cleared ht hkeeps => exact .inr ⟨rfl, hkeeps.steady_of_setThread⟩

theorem Performed.tail_aborts {work : Work σ} {todo : List (Work σ)}
    (h : e.Performed work todo e') :
    ∀ next ∈ todo.tail, next.aborts? = none := by
  cases h with
  | @asked _ last query todo _ hasks hcode hanswered =>
    intro next hnext
    cases todo with
    | nil => simp at hnext
    | cons first todo =>
      simp only [List.cons_append, List.tail_cons, List.mem_append, List.mem_singleton] at hnext
      -- the code that asked comes last, and code tells nobody to stop
      rcases hnext with hnext | rfl
      · exact hanswered.tail_aborts next hnext
      · exact Work.aborts?_of_isCode hcode
  | kept hasks hkeeps hstill haborts =>
    exact fun next hnext => haborts next (List.mem_of_mem_tail hnext)
  | failed => simp
  | completed => exact advanceWork_tail_aborts _ _
  | destroying => simp [Work.aborts?]
  | @cleared id t _ ht hkeeps =>
    cases t.inFlight <;> simp [Work.aborts?]

theorem Performed.reports {work : Work σ} {todo : List (Work σ)} (h : e.Performed work todo e')
    {next : Work σ} {error : ThreadError} (hnext : next ∈ todo)
    (hreports : next.reports? = some (id, error)) :
    work.reports? = some (id, error) ∨ (∃ name failure, error = .script name failure) ∨
      e.FailsBy id error fun id t => work.moveOf id t := by
  cases h with
  | @asked _ last query todo _ hasks hcode hanswered =>
    rcases List.mem_append.1 hnext with hnext | hnext
    · obtain ⟨t, p, ht, hprep, harrival⟩ := hanswered.reports hnext hreports
      refine .inr (.inr ⟨t, p, ht, ?_, harrival⟩)
      show t.Prepares (work.moveOf _ t) p
      rwa [Work.moveOf_of_asks hasks]
    · rw [List.mem_singleton.1 hnext, Work.reports?_of_isCode hcode] at hreports
      cases hreports
  | kept hasks hkeeps hstill haborts hreported =>
    rcases hreported next hnext with hnone | hsame
    · cases hnone.symm.trans hreports
    · exact .inl (hsame.symm.trans hreports)
  | failed =>
    rw [List.mem_singleton.1 hnext] at hreports
    cases hreports
    exact .inr (.inl ⟨_, _, rfl⟩)
  | @completed context t p ht hprep =>
    obtain ⟨rfl, harrival⟩ := advanceWork_reports hnext hreports
    refine .inr (.inr ⟨t, p, ht, ?_, harrival⟩)
    have hcurrent : t.isCurrent context.ticket = true := by
      cases hprep with
      | completed hcurrent => exact hcurrent
    simpa [Work.moveOf, hcurrent] using hprep
  | destroying =>
    simp only [List.mem_cons, List.not_mem_nil, or_false] at hnext
    rcases hnext with rfl | rfl <;> cases hreports
  | @cleared other t _ ht hkeeps =>
    simp only [List.mem_append, Option.mem_toList, Option.map_eq_some_iff, List.mem_singleton]
      at hnext
    rcases hnext with ⟨a, -, rfl⟩ | rfl <;> cases hreports

theorem Performed.head_aborts {work : Work σ} {todo : List (Work σ)} (h : e.Performed work todo e')
    {a : Instance} (ha : todo.head?.bind Work.aborts? = some a) :
    ∃ id t, e.thread? id = some t ∧ t.inFlight = some a ∧ (work.moveOf id t).tells = true := by
  cases h with
  | @asked _ next query todo _ hasks hcode hanswered =>
    cases todo with
    | nil => cases (Work.aborts?_of_isCode hcode).symm.trans ha
    | cons first todo =>
      obtain ⟨id, t, ht, hflight, htells⟩ := hanswered.head_aborts ha
      refine ⟨id, t, ht, hflight, ?_⟩
      rwa [Work.moveOf_of_asks hasks]
  | kept hasks hkeeps hstill haborts =>
    obtain ⟨next, hnext, hab⟩ := Option.bind_eq_some_iff.1 ha
    cases (haborts next (List.mem_of_head? hnext)).symm.trans hab
  | failed => cases ha
  | completed ht hprep =>
    rw [advanceWork_head_aborts] at ha
    have hflight := ThreadState.aborted_run ha
    cases hprep
    cases hflight
  | destroying => cases ha
  | @cleared id t _ ht hkeeps =>
    refine ⟨id, t, ht, ?_, by simp [Work.moveOf, Move.tells]⟩
    rcases hflight : t.inFlight with _ | script
    · rw [hflight] at ha
      cases ha
    · rw [hflight] at ha
      simpa [Work.aborts?] using ha

/-- Work that leaves the engine alone and whose further work is of no account. -/
theorem Performed.plain (hasks : work.asks? = none) (hkeeps : e.Keeps e')
    (hstill : ∀ id t, e.thread? id = some t → work.moveOf id t = .still)
    (hplain : ∀ next ∈ todo, next.Plain) : e.Performed work todo e' :=
  .kept hasks hkeeps hstill (fun next hnext => (hplain next hnext).1)
    fun next hnext => .inl (hplain next hnext).2

theorem Performed.done (hasks : work.asks? = none) (hkeeps : e.Keeps e')
    (hstill : ∀ id t, e.thread? id = some t → work.moveOf id t = .still) :
    e.Performed work [] e' := .plain hasks hkeeps hstill (by simp)

/-- A move that is not due in a thread is none. -/
theorem ite_not_due {other : ThreadId} {due : ThreadState → Bool}
    (hnot : e.look other false due = false) (ht : e.thread? id = some t) (move : Move) :
    (if other = id ∧ due t = true then move else .still) = .still := by
  refine if_neg ?_
  rintro ⟨rfl, hdue⟩
  rw [look_eq ht, hdue] at hnot
  cases hnot

theorem performed_clear (hn : e.Numbered) (id : ThreadId) :
    e.Performed (.clear id)
      (((e.look id none (·.inFlight)).map Work.abort).toList ++ [.release id])
      ((e.dropStart id).modifyThread id (·.clear)) := by
  have hdropped := keeps_dropStart hn id
  rcases ht : e.thread? id with _ | t
  · -- no thread to clear
    have hnone : (e.dropStart id).thread? id = none := by
      rcases hsome : (e.dropStart id).thread? id with _ | t'
      · rfl
      · obtain ⟨t, ht', -⟩ := hdropped.exists_before hsome
        rw [ht] at ht'
        cases ht'
    rw [modifyThread_none hnone]
    refine .plain rfl hdropped ?_ ?_
    · intro id' t' ht'
      refine if_neg ?_
      rintro rfl
      cases ht.symm.trans ht'
    · simp [look, ht, Work.Plain, Work.aborts?, Work.reports?]
  · -- dropping a pending start leaves only marks, so the thread is cleared as it was
    rw [look_eq ht]
    obtain ⟨t', ht', hagree⟩ := hdropped.agrees ht
    rw [modifyThread_eq ht']
    have hid : t.id = id := hn _ _ ht
    exact .cleared ht (hdropped.setThread (s := t.clear) (hid.symm ▸ ht) hagree.clear)

/-- An item of work does to the threads what it comes to, and nothing else. -/
theorem WorkedOff.performed (h : e.WorkedOff plugins work todo e') (hn : e.Numbered) :
    e.Performed work todo e' := by
  have same : ∀ {work : Work σ}, work.asks? = none →
      (∀ id t, e.thread? id = some t → work.moveOf id t = .still) → e.Performed work [] e :=
    fun hasks hstill => .done hasks (.refl e) hstill
  cases h with
  | asked hasks hnext => exact .asked hasks hnext.isCode (answered_answer hn _)
  | continued hasks hnext =>
    refine .plain hasks (.of_eq rfl rfl rfl rfl) (fun id t _ => hnext.moveOf hasks id t) ?_
    have hcode := hnext.isCode
    simp [Work.Plain, Work.aborts?_of_isCode hcode, Work.reports?_of_isCode hcode]
  | suspended => exact .done rfl (.of_eq rfl rfl rfl rfl) fun _ _ _ => rfl
  | ended hrunning =>
    refine .plain rfl (.refl e) (fun _ _ _ => rfl) ?_
    simp [Work.Plain, Work.aborts?, Work.reports?]
  | endedLate hgone => exact same rfl fun _ _ _ => rfl
  | failed hcurrent =>
    obtain ⟨t, ht, hcurrent⟩ := exists_of_look hcurrent
    rw [modifyThread_eq ht]
    exact .failed ht hcurrent
  | failedLate hlost => exact same rfl fun _ _ ht => ite_not_due hlost ht _
  | spoken => exact .done rfl (.of_eq rfl rfl rfl rfl) fun _ _ _ => rfl
  | stopped => exact same rfl fun _ _ _ => rfl
  | told => exact same rfl fun _ _ _ => rfl
  | @called service services notification =>
    refine .kept rfl (.refl e) (fun _ _ _ => rfl) (by simp [Work.aborts?]) ?_
    -- the services that are still to be told hear of the same error
    simp only [List.mem_cons, List.not_mem_nil, or_false]
    rintro next (rfl | rfl)
    · exact .inl rfl
    · exact .inr (by cases notification <;> rfl)
  | @announced notification =>
    refine .kept rfl (.refl e) (fun _ _ _ => rfl) (by simp [Work.aborts?]) ?_
    simp only [List.mem_cons, List.not_mem_nil, or_false]
    rintro next rfl
    exact .inr (by cases notification <;> rfl)
  | aborted =>
    exact .plain rfl (keeps_cancel hn _) (fun _ _ _ => rfl)
      (by simp [Work.Plain, Work.aborts?, Work.reports?])
  | idle => exact same rfl fun _ _ _ => rfl
  | exhausted =>
    exact .plain rfl (.refl e) (fun _ _ _ => rfl)
      (by simp [Work.Plain, Work.aborts?, Work.reports?])
  | fatal =>
    exact .kept rfl (.refl e) (fun _ _ _ => rfl) (by simp [Work.aborts?])
      (by simp [Work.reports?])
  | dispatched =>
    exact .plain rfl (.refl e) (fun _ _ _ => rfl)
      (by simp [Work.Plain, Work.aborts?, Work.reports?])
  | spawned => exact .done rfl (keeps_enqueue _) fun _ _ _ => rfl
  | completed ht hprep => exact .completed ht hprep
  | completedLate hlost => exact same rfl fun _ _ ht => ite_not_due hlost ht _
  | reported =>
    exact .kept rfl (.refl e) (fun _ _ _ => rfl) (by simp [Work.aborts?])
      (by simp [Work.reports?])
  | destroying hrunning =>
    obtain ⟨t, ht, hrunning⟩ := exists_of_look hrunning
    rw [modifyThread_eq ht]
    exact .destroying ht (ThreadState.isRunning_iff.1 hrunning)
  | destroyedLate hgone => exact same rfl fun _ _ ht => ite_not_due hgone ht _
  | cleared => exact performed_clear hn _
  | released => exact .done rfl (keeps_release hn _) fun _ _ _ => rfl
  | @started id =>
    refine .done rfl ?_ fun _ _ _ => rfl
    refine (keeps_enqueue (.start id)).trans (keeps_modifyThread ?_ ?_)
    · exact (keeps_enqueue _).numbered hn
    · intro t
      split
      · exact t.agrees_marks _ _ _ _
      · exact .refl t
  | reopened => exact .done rfl (.of_eq rfl rfl rfl rfl) fun _ _ _ => rfl

theorem performed_perform (hn : e.Numbered) (plugins : Plugins σ) (work : Work σ) :
    e.Performed work (Machine.perform plugins e work).1 (Machine.perform plugins e work).2 :=
  (workedOff_perform plugins e work).performed hn

end Engine
end SentenceEngine
