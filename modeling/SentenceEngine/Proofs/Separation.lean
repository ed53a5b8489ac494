import SentenceEngine.Proofs.Notifications

/-!
# Scripts and services that keep apart

Scripts and services share one state, of which the engine knows nothing. They keep apart where
scripts see a part of it only that no service changes, and where services leave the engine as it is:
they record what they are told, look at threads, and say in the end what they like.

* `Behaviour.Reads`: code that sees a part of the state only.
* `Behaviour.Passive`: code that changes nothing of that part, and nothing of the engine.
* `Plugins.Separate`: scripts of the one kind, services of the other.
* `Machine.Step.host`: only code changes the state.
* `Machine.Step.separate`: all code that is run now or later is of its kind.
-/

namespace SentenceEngine

variable {σ τ : Type}

/-! ## Code -/

namespace Behaviour

variable {ω α : Type}

/-- Code that sees the state through `own` only: where `own` tells two states no different, what it
makes of them is no different either, and it goes on in the same way. -/
inductive Reads (own : σ → τ) : Behaviour σ ω α → Prop
  | pure (value : α) : Reads own (.pure value)
  | ask {query : Query} {next : query.Reply → Behaviour σ ω α}
      (hnext : ∀ reply, Reads own (next reply)) : Reads own (.ask query next)
  | log {entry : LogEntry} {next : Behaviour σ ω α} (hnext : Reads own next) :
      Reads own (.log entry next)
  | update {change : σ → σ} {next : σ → Behaviour σ ω α}
      (hchange : ∀ s s', own s = own s' → own (change s) = own (change s'))
      (hsees : ∀ s s', own s = own s' → next s = next s')
      (hnext : ∀ s, Reads own (next s)) : Reads own (.update change next)
  | wait {reason : ω} {next : Behaviour σ ω α} (hnext : Reads own next) :
      Reads own (.wait reason next)

/-- Code that changes nothing that `own` tells, waits for nothing, and asks only what leaves the
engine as it is. -/
inductive Passive (own : σ → τ) : Behaviour σ ω α → Prop
  | pure (value : α) : Passive own (.pure value)
  | ask {query : Query} {next : query.Reply → Behaviour σ ω α}
      (hlooks : ∀ e : Engine σ, e.answer query = e.respond (e.answer query).reply)
      (hnext : ∀ reply, Passive own (next reply)) : Passive own (.ask query next)
  | log {entry : LogEntry} {next : Behaviour σ ω α} (hnext : Passive own next) :
      Passive own (.log entry next)
  | update {change : σ → σ} {next : σ → Behaviour σ ω α}
      (hkeeps : ∀ s, own (change s) = own s) (hnext : ∀ s, Passive own (next s)) :
      Passive own (.update change next)

variable {own : σ → τ} {e : Engine σ} {code rest : Behaviour σ ω α}

theorem Reads.next (h : code.Reads own) (hnext : code.Precedes e rest) : rest.Reads own := by
  cases hnext with
  | ask => cases h with | ask hnext => exact hnext _
  | log => cases h with | log hnext => exact hnext
  | update => cases h with | update hchange hsees hnext => exact hnext _
  | wait => cases h with | wait hnext => exact hnext

theorem Passive.next (h : code.Passive own) (hnext : code.Precedes e rest) :
    rest.Passive own := by
  cases hnext with
  | ask => cases h with | ask hlooks hnext => exact hnext _
  | log => cases h with | log hnext => exact hnext
  | update => cases h with | update hkeeps hnext => exact hnext _
  | wait => cases h

end Behaviour

/-- Scripts see the state through `own` only, and services change nothing that `own` tells and
nothing of the engine. -/
structure Plugins.Separate (plugins : Plugins σ) (own : σ → τ) : Prop where
  execute : ∀ script context, ((plugins.script script).execute context).Reads own
  abort : ∀ script context, ((plugins.script script).abort context).Reads own
  service : ∀ service notification, (plugins.service service notification).Passive own

/-- Code on the stack is of its kind. -/
def Work.Separate (own : σ → τ) : Work σ → Prop
  | .script _ code => code.Reads own
  | .abortHook _ code => code.Reads own
  | .hook _ code => code.Passive own
  | _ => True

theorem Work.separate_of_isErrand {own : σ → τ} {work : Work σ} (h : work.isErrand = true) :
    work.Separate own := by
  cases work <;> trivial

/-- Code goes on as code of its kind. -/
theorem Work.Continues.separate {own : σ → τ} {e : Engine σ} {work next : Work σ}
    (h : work.Continues e next) (hwork : work.Separate own) : next.Separate own := by
  cases h with
  | script hcode => exact Behaviour.Reads.next hwork hcode
  | hook hcode => exact Behaviour.Passive.next hwork hcode
  | abortHook hcode => exact Behaviour.Reads.next hwork hcode

/-- What a script goes on with when its task is taken up. -/
def Task.rest? : Task σ → Option (Behaviour σ Wait Outcome)
  | .resume _ rest => some rest
  | _ => none

namespace Engine

variable {own : σ → τ} {e : Engine σ} {id : ThreadId} {plugins : Plugins σ}

/-! ## What scripts go on with -/

/-- What the scripts go on with that wait or need not wait any longer. -/
def shelved (e : Engine σ) : List (Behaviour σ Wait Outcome) :=
  e.queue.filterMap Task.rest? ++ e.suspended.map (·.rest)

/-- What is laid aside is no matter of a request. -/
theorem Serves.shelved {e' : Engine σ} (h : e.Serves e') : e'.shelved = e.shelved := by
  have hqueue : e'.queue.filterMap Task.rest? = e.queue.filterMap Task.rest? :=
    h.filterMap_queue fun _ => rfl
  rw [Engine.shelved, Engine.shelved, hqueue, h.suspended]

theorem shelved_modifyThread (f : ThreadState → ThreadState) :
    (e.modifyThread id f).shelved = e.shelved := (serves_modifyThread f).shelved

theorem shelved_enqueue {task : Task σ} (h : task.rest? = none) :
    (e.enqueue task).shelved = e.shelved := by
  simp [shelved, enqueue, h]

/-- Scripts that need not wait any longer go on with what they waited with. -/
theorem shelved_wakeCancelled (meant : Context → Bool) :
    (e.wakeCancelled meant).shelved ⊆ e.shelved := by
  intro code hcode
  simp only [shelved, wakeCancelled, List.filterMap_append, List.mem_append, List.mem_filterMap,
    List.mem_map, List.mem_filter] at hcode ⊢
  rcases hcode with (hready | ⟨task, ⟨s, ⟨hs, -⟩, rfl⟩, hrest⟩) | ⟨s, ⟨hs, -⟩, hrest⟩
  · exact .inl hready
  · exact .inr ⟨s, hs, Option.some.inj hrest⟩
  · exact .inr ⟨s, hs, hrest⟩

theorem shelved_cancel (context : Context) : (e.cancel context).shelved ⊆ e.shelved := by
  have hwoken := shelved_wakeCancelled
    (e := e.modifyThread context.thread fun t =>
      { t with cancelled := context.ticket :: t.cancelled })
    fun c => c.thread == context.thread && c.ticket == context.ticket
  rwa [shelved_modifyThread] at hwoken

theorem shelved_release : (e.release id).shelved ⊆ e.shelved := by
  have hwoken := shelved_wakeCancelled (e := e.modifyThread id fun t => { t with ended := true })
    fun c => c.thread == id
  rwa [shelved_modifyThread] at hwoken

theorem shelved_handPermits (tag : String) (count : Nat) :
    (e.handPermits tag count).shelved ⊆ e.shelved := by
  induction count generalizing e with
  | zero => exact List.Subset.refl _
  | succ count ih =>
    unfold handPermits
    dsimp only
    split
    next s hs =>
      refine List.Subset.trans ih ?_
      intro code hcode
      simp only [shelved, enqueue, List.filterMap_append, List.mem_append, List.mem_map] at hcode ⊢
      rcases hcode with (hready | hwoken) | ⟨other, hother, hrest⟩
      · exact .inl hready
      · have hcode : code = s.rest := by simpa [Suspended.wake, Task.rest?] using hwoken
        exact .inr ⟨s, List.mem_of_find?_eq_some hs, hcode.symm⟩
      · exact .inr ⟨other, List.mem_of_mem_eraseP hother, hrest⟩
    next => exact List.Subset.refl _

theorem host_handPermits (tag : String) (count : Nat) :
    (e.handPermits tag count).host = e.host := by
  induction count generalizing e with
  | zero => rfl
  | succ count ih =>
    unfold handPermits
    dsimp only
    split
    · exact ih
    · rfl

/-! ## Work -/

/-- A thread that moved leaves no code. -/
theorem separate_advanceWork (id : ThreadId) (advance : Advance) :
    ∀ work ∈ (advanceWork id advance : List (Work σ)), work.Separate own :=
  forall_advanceWork (fun _ => trivial) (fun _ _ => trivial) id advance

theorem separate_answer (query : Query) : ∀ work ∈ (e.answer query).todo, work.Separate own :=
  forall_answer (fun _ h => Work.separate_of_isErrand h) (fun _ => trivial) (fun _ _ => trivial)
    query

/-- All code that is left to run is of its kind. -/
structure Parted (own : σ → τ) (todo : List (Work σ)) (e : Engine σ) : Prop where
  todo : ∀ work ∈ todo, work.Separate own
  shelved : ∀ code ∈ e.shelved, code.Reads own

theorem separate_asked {query : Query} {next : Work σ} (h : ∀ code ∈ e.shelved, code.Reads own)
    (hnext : next.Separate own) :
    Parted own ((e.answer query).todo ++ [next]) (e.answer query).engine where
  todo := by
    intro work hwork
    rcases List.mem_append.1 hwork with hwork | hwork
    · exact separate_answer query work hwork
    · rwa [List.mem_singleton.1 hwork]
  shelved := by
    rw [(serves_answer query).shelved]
    exact h

/-- Work leaves work of its kind. -/
theorem WorkedOff.separate {e' : Engine σ} {work : Work σ} {todo : List (Work σ)}
    (h : e.WorkedOff plugins work todo e') (hplugins : plugins.Separate own)
    (hshelved : ∀ code ∈ e.shelved, code.Reads own) (hwork : work.Separate own) :
    Parted own todo e' := by
  have same : ∀ {todo : List (Work σ)} {e' : Engine σ}, e'.shelved = e.shelved →
      (∀ next ∈ todo, next.Separate own) → Parted own todo e' := by
    intro todo e' hsame htodo
    refine ⟨htodo, ?_⟩
    rwa [hsame]
  cases h with
  | asked hasks hnext => exact separate_asked hshelved (hnext.separate hwork)
  | continued hasks hnext => exact same rfl (by simpa using hnext.separate hwork)
  | suspended =>
    refine ⟨by simp, ?_⟩
    intro code hcode
    simp only [Engine.shelved, List.map_append, List.map_cons, List.map_nil, ← List.append_assoc]
      at hcode
    rcases List.mem_append.1 hcode with hcode | hcode
    · exact hshelved code hcode
    · rw [List.mem_singleton.1 hcode]
      cases hwork with
      | wait hnext => exact hnext
  | failed hcurrent => exact same (shelved_modifyThread _) (by simp [Work.Separate])
  | @called service services notification =>
    -- the service that is called next is passive, as all are
    refine same rfl ?_
    intro next hnext
    rcases List.mem_cons.1 hnext with rfl | hnext
    · exact hplugins.service service notification
    · rw [List.mem_singleton.1 hnext]
      trivial
  | @aborted script =>
    -- who waits to be cancelled goes on with what it waited with
    refine ⟨?_, fun code hcode => hshelved code (shelved_cancel _ hcode)⟩
    intro next hnext
    rw [List.mem_singleton.1 hnext]
    exact hplugins.abort _ _
  | spawned => exact same (shelved_enqueue rfl) (by simp)
  | completed ht hprep => exact same rfl (separate_advanceWork _ _)
  | destroying hrunning => exact same (shelved_modifyThread _) (by simp [Work.Separate])
  | @cleared id =>
    refine same ((shelved_modifyThread _).trans (serves_dropStart id).shelved) ?_
    cases e.look id none (·.inFlight) <;> simp [Work.Separate]
  | released => exact ⟨by simp, fun code hcode => hshelved code (shelved_release hcode)⟩
  | started => exact same ((shelved_modifyThread _).trans (shelved_enqueue rfl)) (by simp)
  | _ => exact same rfl (by simp [Work.Separate])

/-- Only code changes the state of scripts and services. -/
theorem WorkedOff.host {e' : Engine σ} {work : Work σ} {todo : List (Work σ)}
    (h : e.WorkedOff plugins work todo e') : e'.host = work.change e.host := by
  cases h with
  | @asked _ next query hasks hnext =>
    rw [(serves_answer query).host, hnext.change hasks]
    rfl
  | continued hasks hnext hhost => exact hhost
  | failed hcurrent => exact (serves_modifyThread _).host
  | aborted => exact (serves_modifyThread _).host
  | destroying hrunning => exact (serves_modifyThread _).host
  | cleared => exact (serves_modifyThread _).host.trans (serves_dropStart _).host
  | released => exact (serves_modifyThread _).host
  | started => exact (serves_modifyThread _).host
  | _ => rfl

end Engine

namespace Machine

variable {own : σ → τ} {plugins : Plugins σ} {m m' : Machine σ} {event : Event σ}

/-! ## The state of scripts and services -/

/-- What the code on top of the stack makes of the state. -/
def Event.change : Event σ → σ → σ
  | .work (.script _ (.update change _)) => change
  | .work (.hook _ (.update change _)) => change
  | .work (.abortHook _ (.update change _)) => change
  | _ => id

theorem Event.change_work (work : Work σ) : (Event.work work).change = work.change := by
  cases work with
  | script context code => cases code <;> rfl
  | hook notification code => cases code <;> rfl
  | abortHook context code => cases code <;> rfl
  | _ => rfl

/-- Only code changes the state of scripts and services, unless it is changed from outside. -/
theorem Step.host (h : Step plugins m event m') (hevent : event ≠ .outside) :
    m'.engine.host = event.change m.engine.host := by
  cases h with
  | @work e work rest =>
    rw [Event.change_work]
    exact (Engine.workedOff_perform plugins e work).host
  | @task e before after task hqueue =>
    cases task with
    | start id =>
      simp only [take]
      split <;> rfl
    | _ => rfl
  | ask query => exact (Engine.serves_answer query).host
  | permits tag count => exact Engine.host_handPermits _ _
  | letGo => rfl
  | outside host log => exact absurd rfl hevent

/-! ## Runs -/

/-- All code that is run now or later is of its kind. -/
def Separate (own : σ → τ) (m : Machine σ) : Prop := Engine.Parted own m.stack m.engine

/-- A task that is taken up goes on with code that was laid aside, or starts a script afresh. -/
theorem separate_take {e : Engine σ} (hplugins : plugins.Separate own)
    (h : ∀ code ∈ e.shelved, code.Reads own) {task : Task σ}
    (htask : ∀ code ∈ task.rest?, code.Reads own) : (take plugins e task).Separate own := by
  cases task with
  | start id =>
    rcases ht : e.thread? id with _ | t
    · rw [take_start_none ht]
      exact ⟨by simp, h⟩
    · rw [take_start_some ht]
      exact ⟨Engine.separate_advanceWork _ _, h⟩
  | begin script => exact ⟨by simpa [take, Work.Separate] using hplugins.execute _ _, h⟩
  | resume context rest => exact ⟨by simpa [take, Work.Separate] using htask rest rfl, h⟩

theorem Step.separate (h : Step plugins m event m') (hplugins : plugins.Separate own)
    (hm : m.Separate own) : m'.Separate own := by
  cases h with
  | @work e work rest =>
    have hworked := Engine.workedOff_perform plugins e work
    have hparted := hworked.separate hplugins hm.shelved (hm.todo work List.mem_cons_self)
    refine ⟨?_, hparted.shelved⟩
    intro next hnext
    rcases List.mem_append.1 hnext with hnext | hnext
    · exact hparted.todo next hnext
    · exact hm.todo next (List.mem_cons_of_mem _ hnext)
  | @task e before after task hqueue =>
    apply separate_take hplugins
    · have hsublist : (before ++ after).Sublist e.queue := by
        rw [hqueue]
        exact (List.sublist_cons_self task after).append_left before
      intro code hcode
      exact hm.shelved code (((hsublist.filterMap _).append (List.Sublist.refl _)).subset hcode)
    · intro code hcode
      apply hm.shelved code
      exact List.mem_append_left _ (List.mem_filterMap.2 ⟨task, by simp [hqueue], hcode⟩)
  | @ask e query =>
    refine ⟨?_, ?_⟩
    · intro work hwork
      rcases List.mem_append.1 hwork with hwork | hwork
      · exact Engine.separate_answer query work hwork
      · cases hwork
    · show ∀ code ∈ (e.answer query).engine.shelved, code.Reads own
      rw [(Engine.serves_answer query).shelved]
      exact hm.shelved
  | @permits e tag count =>
    refine ⟨hm.todo, ?_⟩
    intro code hcode
    exact hm.shelved code (Engine.shelved_handPermits tag _ hcode)
  | letGo => exact ⟨hm.todo, hm.shelved⟩
  | outside host log => exact ⟨hm.todo, hm.shelved⟩

end Machine
end SentenceEngine
