import SentenceEngine.Proofs.Notifications

/-!
# Scripts that keep to their own thread

A solitary script asks for its own thread only, acts without a look at the state that it has in
common with others, and waits for nothing that a script of another thread could take away from it.
Where all scripts are solitary and services ask for nothing, each item of work belongs to one thread
or to none, and all that it leaves to do belongs to the same thread or to none.

* `Behaviour.Solitary`, `Plugins.Solitary`: scripts that keep to their own thread.
* `Work.subject?`: the thread that an item of work moves on or tells of.
* `Engine.WorkedOff.confined`: work leaves solitary work, for its own thread or for none.
* `Machine.Run.secluded`: all that is still to be done, now or later, is solitary.
-/

namespace SentenceEngine

variable {σ : Type}

/-! ## Code -/

namespace Query

/-- The thread that a request is about. -/
def subject? : Query → Option ThreadId
  | .isRunning id => some id
  | .hasEnded id => some id
  | .getVar id _ => some id
  | .vars id => some id
  | .position id => some id
  | .isCancelled context => some context.thread
  | .setVar id _ _ => some id
  | .execute id _ _ => some id
  | .transfer context _ _ => some context.thread
  | .destroy id => some id
  | .hasCore => none
  | .core _ => none

/-- A request about one thread, or whether the engine is still there. -/
def IsOwn (id : ThreadId) (query : Query) : Prop := query.subject? = some id ∨ query = .hasCore

end Query

/-- What a script of a thread may wait for: to be told to stop, or permits of a tag that is kept for
the thread. -/
def Wait.IsOwn (keeper : String → Option ThreadId) (id : ThreadId) : Wait → Prop
  | .permit tag => keeper tag = some id
  | .cancellation => True

/-- Code that asks for one thread only, goes on in the same way whatever the common state was, and
waits only for what it may. -/
inductive Behaviour.Solitary {ω α : Type} (id : ThreadId) (may : ω → Prop) :
    Behaviour σ ω α → Prop
  | pure (value : α) : Solitary id may (.pure value)
  | ask {query : Query} {next : query.Reply → Behaviour σ ω α} (hown : query.IsOwn id)
      (hnext : ∀ reply, (next reply).Solitary id may) : Solitary id may (.ask query next)
  | log {entry : LogEntry} {next : Behaviour σ ω α} (hnext : next.Solitary id may) :
      Solitary id may (.log entry next)
  | update {change : σ → σ} {next : σ → Behaviour σ ω α}
      (hblind : ∀ state state', next state = next state')
      (hnext : ∀ state, (next state).Solitary id may) : Solitary id may (.update change next)
  | wait {reason : ω} {next : Behaviour σ ω α} (hmay : may reason)
      (hnext : next.Solitary id may) : Solitary id may (.wait reason next)

/-- Code goes on keeping to its thread. -/
theorem Behaviour.Solitary.next {ω α : Type} {id : ThreadId} {may : ω → Prop} {e : Engine σ}
    {code rest : Behaviour σ ω α} (h : code.Solitary id may) (hnext : code.Precedes e rest) :
    rest.Solitary id may := by
  cases hnext with
  | ask => cases h with | ask hown hnext => exact hnext _
  | log => cases h with | log hnext => exact hnext
  | update => cases h with | update hblind hnext => exact hnext _
  | wait => cases h with | wait hmay hnext => exact hnext

/-- All scripts keep to their own thread, when they run and when they are aborted. A tag of permits
is kept for one thread at most. -/
def Plugins.Solitary (keeper : String → Option ThreadId) (plugins : Plugins σ) : Prop :=
  ∀ script (context : Context),
    ((plugins.script script).execute context).Solitary context.thread
      (Wait.IsOwn keeper context.thread) ∧
    ((plugins.script script).abort context).Solitary context.thread (fun _ => True)

/-! ## Work -/

namespace Work

/-- The thread that an item of work moves on or tells of. The code of a service is about none: it
only leads on to the service after it. -/
def subject? : Work σ → Option ThreadId
  | .notify _ notification => notification.thread?
  | work => work.owner?

/-- The code in an item of work keeps to its own thread, and that of a service asks for nothing. -/
def Solitary (keeper : String → Option ThreadId) : Work σ → Prop
  | .script context code => code.Solitary context.thread (Wait.IsOwn keeper context.thread)
  | .abortHook context code => code.Solitary context.thread (fun _ => True)
  | .hook _ code => code.Quiet
  | .announce notification => notification.thread? = none
  | .arrive id (.dispatch dispatched) => dispatched.context.thread = id
  | _ => True

/-- Solitary work that is left by an item of work, for the same thread or for none. -/
structure Follows (keeper : String → Option ThreadId) (work next : Work σ) : Prop where
  solitary : next.Solitary keeper
  subject : next.subject? = none ∨ next.subject? = work.subject?

/-- Code goes on as code that keeps to its thread. -/
theorem Continues.follows {keeper : String → Option ThreadId} {e : Engine σ} {work next : Work σ}
    (h : work.Continues e next) (hwork : work.Solitary keeper) : work.Follows keeper next := by
  cases h with
  | script hcode => exact ⟨Behaviour.Solitary.next hwork hcode, .inr rfl⟩
  | hook hcode => exact ⟨Behaviour.Quiet.next hwork hcode, .inr rfl⟩
  | abortHook hcode => exact ⟨Behaviour.Solitary.next hwork hcode, .inr rfl⟩

/-- Only code of a thread asks for anything, and it asks about its thread. -/
theorem Solitary.isOwn {keeper : String → Option ThreadId} {work : Work σ} {query : Query}
    (h : work.Solitary keeper) (hasks : work.asks? = some query) :
    ∃ id, work.subject? = some id ∧ query.IsOwn id := by
  cases work with
  | script context code =>
    cases h with
    | ask hown hnext =>
      cases hasks
      exact ⟨_, rfl, hown⟩
    | _ => cases hasks
  | abortHook context code =>
    cases h with
    | ask hown hnext =>
      cases hasks
      exact ⟨_, rfl, hown⟩
    | _ => cases hasks
  | hook notification code => cases h <;> cases hasks
  | _ => cases hasks

/-- Only a script waits for a permit, and its tag is kept for its thread. -/
theorem Solitary.keeper {keeper : String → Option ThreadId} {work : Work σ} {tag : String}
    (h : work.Solitary keeper) (hwaits : work.waitsFor? = some tag) :
    ∃ id, work.subject? = some id ∧ keeper tag = some id := by
  cases work with
  | script context code =>
    cases h with
    | @wait reason _ hmay hnext =>
      cases reason with
      | permit other =>
        cases hwaits
        exact ⟨_, rfl, hmay⟩
      | cancellation => cases hwaits
    | _ => cases hwaits
  | _ => cases hwaits

theorem solitary_of_isErrand {keeper : String → Option ThreadId} {work : Work σ}
    (h : work.isErrand = true) : work.Solitary keeper := by
  cases work with
  | announce notification => simpa [isErrand, Solitary] using h
  | script context code => cases h
  | hook notification code => cases h
  | abortHook context code => cases h
  | arrive id arrival => cases h
  | _ => trivial

theorem subject?_of_owner {work : Work σ} {id : ThreadId} (howner : work.owner? = some id) :
    work.subject? = some id := by
  cases work with
  | notify services notification => cases howner
  | _ => exact howner

end Work

/-- The rest of a script that goes on keeps to its own thread. -/
def Task.Solitary (keeper : String → Option ThreadId) : Task σ → Prop
  | .resume context rest => rest.Solitary context.thread (Wait.IsOwn keeper context.thread)
  | _ => True

namespace Engine

variable {keeper : String → Option ThreadId} {e e' : Engine σ} {id : ThreadId}
  {t p : ThreadState} {plugins : Plugins σ}

/-- All scripts that wait or are ready keep to their own threads. -/
structure Secluded (keeper : String → Option ThreadId) (e : Engine σ) : Prop where
  queue : ∀ task ∈ e.queue, task.Solitary keeper
  suspended : ∀ s ∈ e.suspended,
    s.rest.Solitary s.context.thread (Wait.IsOwn keeper s.context.thread)

theorem Secluded.mono (h : e.Secluded keeper) (hqueue : e'.queue.Sublist e.queue)
    (hsuspended : e'.suspended.Sublist e.suspended) : e'.Secluded keeper where
  queue := by
    intro task htask
    exact h.queue task (hqueue.subset htask)
  suspended := by
    intro s hs
    exact h.suspended s (hsuspended.subset hs)

/-! ## What is ready and what waits -/

theorem Secluded.serve (h : e.Secluded keeper) (hserves : e.Serves e') : e'.Secluded keeper :=
  h.mono hserves.sublist (hserves.suspended ▸ List.Sublist.refl _)

theorem Secluded.modifyThread (h : e.Secluded keeper) (id : ThreadId)
    (f : ThreadState → ThreadState) : (e.modifyThread id f).Secluded keeper :=
  h.serve (serves_modifyThread f)

theorem Secluded.enqueue (h : e.Secluded keeper) (task : Task σ)
    (htask : task.Solitary keeper) :
    (e.enqueue task).Secluded keeper where
  queue := by
    intro other hother
    rcases List.mem_append.1 hother with hmem | hmem
    · exact h.queue other hmem
    · rw [List.mem_singleton.1 hmem]
      exact htask
  suspended := h.suspended

theorem Secluded.dropStart (h : e.Secluded keeper) : (e.dropStart id).Secluded keeper :=
  h.serve (serves_dropStart id)

theorem Secluded.wakeCancelled (h : e.Secluded keeper) (meant : Context → Bool) :
    (e.wakeCancelled meant).Secluded keeper where
  queue := by
    intro task htask
    rcases List.mem_append.1 htask with hmem | hmem
    · exact h.queue task hmem
    · obtain ⟨s, hs, rfl⟩ := List.mem_map.1 hmem
      exact h.suspended s (List.mem_filter.1 hs).1
  suspended := by
    intro s hs
    exact h.suspended s (List.mem_filter.1 hs).1

theorem Secluded.cancel (h : e.Secluded keeper) (context : Context) :
    (e.cancel context).Secluded keeper := by
  have hnoted := h.modifyThread context.thread fun t =>
    { t with cancelled := context.ticket :: t.cancelled }
  exact hnoted.wakeCancelled fun c => c.thread == context.thread && c.ticket == context.ticket

theorem Secluded.release (h : e.Secluded keeper) : (e.release id).Secluded keeper := by
  have hended := h.modifyThread id fun t => { t with ended := true }
  have hwoken := hended.wakeCancelled fun c => c.thread == id
  exact ⟨hwoken.queue, hwoken.suspended⟩

theorem Secluded.handPermits (h : e.Secluded keeper) (tag : String) (count : Nat) :
    (e.handPermits tag count).Secluded keeper := by
  induction count generalizing e with
  | zero => exact h
  | succ count ih =>
    unfold Engine.handPermits
    dsimp only
    split
    next s hs =>
      apply ih
      have hrest := h.suspended s (List.mem_of_find?_eq_some hs)
      have henqueued := h.enqueue s.wake hrest
      exact henqueued.mono (List.Sublist.refl _) List.eraseP_sublist
    next => exact h

theorem Secluded.suspend (h : e.Secluded keeper) {context : Context}
    {rest : Behaviour σ Wait Outcome} (reason : Wait)
    (hrest : rest.Solitary context.thread (Wait.IsOwn keeper context.thread)) :
    Secluded keeper { e with suspended := e.suspended ++ [⟨reason, context, rest⟩] } where
  queue := h.queue
  suspended := by
    intro s hs
    rcases List.mem_append.1 hs with hmem | hmem
    · exact h.suspended s hmem
    · rw [List.mem_singleton.1 hmem]
      exact hrest

/-! ## Requests -/

/-- A request makes no task of a script. -/
theorem Secluded.answer (h : e.Secluded keeper) (query : Query) :
    (e.answer query).engine.Secluded keeper := h.serve (serves_answer query)

theorem solitary_advanceWork (ho : e.Owned) (ht : e.thread? id = some t) {move : Move}
    (hprep : t.Prepares move p) {work : Work σ} (hwork : work ∈ advanceWork id p.run.1) :
    work.Solitary keeper := by
  obtain ⟨howner, -⟩ := owner_advanceWork ho ht hprep hwork
  have hshape : (∃ aborted, work = .abort aborted) ∨ ∃ arrival, work = .arrive id arrival := by
    rcases advanceWork_cases (σ := σ) id p.run.1 with ⟨aborted, htodo⟩ | htodo
    · rw [htodo] at hwork
      simp only [List.mem_cons, List.not_mem_nil, or_false] at hwork
      rcases hwork with rfl | rfl
      · exact .inl ⟨_, rfl⟩
      · exact .inr ⟨_, rfl⟩
    · rw [htodo, List.mem_singleton] at hwork
      exact .inr ⟨_, hwork⟩
  -- only a dispatch has to be checked: it is for the thread that arrives at it
  rcases hshape with ⟨aborted, rfl⟩ | ⟨arrival, rfl⟩
  · trivial
  · cases arrival with
    | dispatch dispatched => exact Option.some.inj howner
    | _ => trivial

/-- What a transfer of control leaves to do belongs to the thread. -/
theorem confined_transfer (ho : e.Owned) {caller : Option Context} {program : Sequence}
    {entry : Option String} {work : Work σ}
    (hwork : work ∈ (e.transfer id caller program entry).todo) :
    (∀ keeper, work.Solitary keeper) ∧ work.subject? = some id := by
  rcases transfer_cases (e := e) id caller program entry with
    ⟨error, hrefused⟩ | ⟨t, p, ht, hprep, hgranted⟩
  · rw [hrefused] at hwork
    cases hwork
  · rw [hgranted] at hwork
    constructor
    · intro keeper
      exact solitary_advanceWork ho ht hprep hwork
    · exact Work.subject?_of_owner (owner_advanceWork ho ht hprep hwork).1

theorem solitary_answer (ho : e.Owned) {query : Query} {work : Work σ}
    (hwork : work ∈ (e.answer query).todo) : work.Solitary keeper := by
  rcases answer_cases (e := e) query with
    ⟨id, caller, program, entry, -, htodo, -⟩ | herrands
  · rw [htodo] at hwork
    exact (confined_transfer ho hwork).1 keeper
  · exact Work.solitary_of_isErrand (herrands work hwork)

/-- What a request about a thread leaves to do is about the same thread. -/
theorem subject_answer (ho : e.Owned) {query : Query} (hown : query.IsOwn id) {work : Work σ}
    (hwork : work ∈ (e.answer query).todo) : work.subject? = some id := by
  rcases hown with hsubject | rfl
  · cases query with
    | execute other program entry =>
      cases hsubject
      exact (confined_transfer ho hwork).2
    | transfer context program entry =>
      cases hsubject
      exact (confined_transfer ho hwork).2
    | destroy other =>
      cases hsubject
      simp only [answer, destroyThread] at hwork
      split at hwork
      · rw [List.mem_singleton.1 hwork]
        rfl
      · cases hwork
    | hasCore => cases hsubject
    | core query => cases hsubject
    | _ => cases hwork
  · cases hwork

/-! ## Items of work -/

variable {work : Work σ}

/-- All that an item of work leaves to do, now or later, is solitary, and what it leaves to do now
is for the same thread or for none. -/
structure Confined (keeper : String → Option ThreadId) (work : Work σ) (todo : List (Work σ))
    (e' : Engine σ) : Prop where
  follows : ∀ next ∈ todo, work.Follows keeper next
  secluded : e'.Secluded keeper

theorem Secluded.confined (h : e'.Secluded keeper) : Confined keeper work [] e' :=
  ⟨by simp, h⟩

theorem Secluded.confined_one (h : e'.Secluded keeper) {next : Work σ}
    (hnext : work.Follows keeper next) : Confined keeper work [next] e' :=
  ⟨by simpa using hnext, h⟩

theorem Secluded.confined_two (h : e'.Secluded keeper) {first second : Work σ}
    (hfirst : work.Follows keeper first) (hsecond : work.Follows keeper second) :
    Confined keeper work [first, second] e' where
  follows := by
    intro next hnext
    simp only [List.mem_cons, List.not_mem_nil, or_false] at hnext
    rcases hnext with rfl | rfl
    · exact hfirst
    · exact hsecond
  secluded := h

/-- Code goes on below what its request leaves to do. -/
theorem Secluded.confined_answer (h : e.Secluded keeper) (ho : e.Owned) {query : Query}
    {next : Work σ} (hown : ∀ last ∈ (e.answer query).todo, last.subject? = work.subject?)
    (hnext : work.Follows keeper next) :
    Confined keeper work ((e.answer query).todo ++ [next]) (e.answer query).engine where
  follows := by
    intro last hlast
    rcases List.mem_append.1 hlast with hmem | hmem
    · exact ⟨solitary_answer ho hmem, .inr (hown last hmem)⟩
    · rw [List.mem_singleton.1 hmem]
      exact hnext
  secluded := h.answer query

/-- Solitary work leaves solitary work, and stays with its thread. -/
theorem WorkedOff.confined {todo : List (Work σ)} (h : e.WorkedOff plugins work todo e')
    (hplugins : plugins.Solitary keeper) (hserve : plugins.ServeQuietly) (ho : e.Owned)
    (hs : e.Secluded keeper) (hwork : work.Solitary keeper) : Confined keeper work todo e' := by
  cases h with
  | @asked _ next query hasks hnext =>
    -- code of a thread asks about the thread, and goes on below what the request leaves
    obtain ⟨id, hsubject, hown⟩ := hwork.isOwn hasks
    refine hs.confined_answer ho ?_ (hnext.follows hwork)
    intro last hlast
    rw [hsubject]
    exact subject_answer ho hown hlast
  | continued hasks hnext =>
    have hkept : ∀ host log permits, Secluded keeper { e with host, log, permits } :=
      fun _ _ _ => ⟨hs.queue, hs.suspended⟩
    exact (hkept _ _ _).confined_one (hnext.follows hwork)
  | @suspended context reason rest =>
    cases hwork with
    | wait hmay hnext => exact (hs.suspend reason hnext).confined
  | ended hrunning => exact hs.confined_two ⟨trivial, .inr rfl⟩ ⟨trivial, .inr rfl⟩
  | failed hcurrent => exact (hs.modifyThread _ _).confined_one ⟨trivial, .inr rfl⟩
  | spoken =>
    have hkept : ∀ log, Secluded keeper { e with log } := fun _ => ⟨hs.queue, hs.suspended⟩
    exact (hkept _).confined
  | called => exact hs.confined_two ⟨hserve _ _, .inl rfl⟩ ⟨trivial, .inr rfl⟩
  | announced => exact hs.confined_one ⟨trivial, .inl hwork⟩
  | aborted => exact (hs.cancel _).confined_one ⟨(hplugins _ _).2, .inr rfl⟩
  | exhausted => exact hs.confined_one ⟨trivial, .inr rfl⟩
  | fatal => exact hs.confined_one ⟨trivial, .inr rfl⟩
  | @dispatched id script =>
    -- the services are told of the thread that arrives, which is the one of the script
    have hid : some id = some script.context.thread := congrArg some hwork.symm
    exact hs.confined_two ⟨trivial, .inr hid⟩ ⟨trivial, .inr rfl⟩
  | @spawned script => exact (hs.enqueue (.begin script) trivial).confined
  | completed ht hprep =>
    refine ⟨?_, hs.queue, hs.suspended⟩
    intro next hnext
    have howner := (owner_advanceWork ho ht hprep hnext).1
    exact ⟨solitary_advanceWork ho ht hprep hnext, .inr (Work.subject?_of_owner howner)⟩
  | reported => exact hs.confined_two ⟨trivial, .inr rfl⟩ ⟨trivial, .inr rfl⟩
  | destroying hrunning =>
    exact (hs.modifyThread _ _).confined_two ⟨trivial, .inr rfl⟩ ⟨trivial, .inr rfl⟩
  | @cleared id =>
    refine ⟨?_, hs.dropStart.modifyThread _ _⟩
    intro next hnext
    simp only [List.mem_append, Option.mem_toList, Option.map_eq_some_iff, List.mem_singleton]
      at hnext
    rcases hnext with ⟨a, ha, rfl⟩ | rfl
    · -- the script that is told to stop was in flight in the thread that ends
      exact ⟨trivial, .inr (congrArg some (ho.thread_of_look ha))⟩
    · exact ⟨trivial, .inr rfl⟩
  | released => exact hs.release.confined
  | @started id => exact ((hs.enqueue (.start id) trivial).modifyThread _ _).confined
  | reopened => exact ⟨by simp, hs.queue, hs.suspended⟩
  | _ => exact hs.confined

end Engine

namespace Machine

variable {keeper : String → Option ThreadId} {plugins : Plugins σ} {m m' : Machine σ}
  {event : Event σ}

/-! ## Runs -/

/-- All that is still to be done, now or later, is solitary. -/
structure Secluded (keeper : String → Option ThreadId) (m : Machine σ) : Prop where
  engine : m.engine.Secluded keeper
  stack : ∀ work ∈ m.stack, work.Solitary keeper

/-- A task that is taken up moves its own thread on. -/
theorem confined_take {e : Engine σ} {task : Task σ} (hplugins : plugins.Solitary keeper)
    (ho : e.Owned) (h : e.Secluded keeper) (htask : task.Solitary keeper) :
    (take plugins e task).Secluded keeper ∧
      ∀ work ∈ (take plugins e task).stack, work.subject? = some task.owner := by
  cases task with
  | start id =>
    rcases take_start_cases plugins e id with
      ⟨-, htake⟩ | ⟨t, ht, ⟨-, -, htake⟩ | ⟨p, hprep, htake⟩⟩
    · rw [htake]
      exact ⟨⟨h, by simp⟩, by simp⟩
    · -- the start came too late, and nothing is arrived at
      rw [htake]
      refine ⟨⟨⟨h.queue, h.suspended⟩, ?_⟩, ?_⟩
      · simp [Work.Solitary]
      · simp [Work.subject?, Work.owner?, Task.owner]
    · rw [htake]
      refine ⟨⟨⟨h.queue, h.suspended⟩, ?_⟩, ?_⟩
      · intro work hwork
        exact Engine.solitary_advanceWork ho ht hprep hwork
      · intro work hwork
        exact Work.subject?_of_owner (Engine.owner_advanceWork ho ht hprep hwork).1
  | begin script =>
    refine ⟨⟨h, ?_⟩, ?_⟩
    · intro work hwork
      rw [List.mem_singleton.1 hwork]
      exact (hplugins script.script script.context).1
    · intro work hwork
      rw [List.mem_singleton.1 hwork]
      rfl
  | resume context rest =>
    refine ⟨⟨h, ?_⟩, ?_⟩
    · intro work hwork
      rw [List.mem_singleton.1 hwork]
      exact htask
    · intro work hwork
      rw [List.mem_singleton.1 hwork]
      rfl

theorem Step.secluded (h : Step plugins m event m') (hplugins : plugins.Solitary keeper)
    (hserve : plugins.ServeQuietly) (hm : Invariant m) (hs : m.Secluded keeper) :
    m'.Secluded keeper := by
  cases h with
  | @work e work rest =>
    have hworked := Engine.workedOff_perform plugins e work
    have hconfined := hworked.confined hplugins hserve hm.owned hs.engine
      (hs.stack work List.mem_cons_self)
    refine ⟨hconfined.secluded, ?_⟩
    intro next hnext
    rcases List.mem_append.1 hnext with hmem | hmem
    · exact (hconfined.follows next hmem).solitary
    · exact hs.stack next (List.mem_cons_of_mem _ hmem)
  | @task e before after task hqueue =>
    have hdropped : Engine.Secluded keeper { e with queue := before ++ after } := by
      refine hs.engine.mono ?_ (List.Sublist.refl _)
      rw [hqueue]
      exact (List.sublist_cons_self task after).append_left before
    have htask := hs.engine.queue task (by simp [hqueue])
    have ho : Engine.Owned { e with queue := before ++ after } := hm.owned
    exact (confined_take hplugins ho hdropped htask).1
  | @ask e query =>
    refine ⟨hs.engine.answer query, ?_⟩
    intro work hwork
    rcases List.mem_append.1 hwork with hmem | hmem
    · exact Engine.solitary_answer hm.owned hmem
    · cases hmem
  | @permits e tag count =>
    -- whoever gets a permit is ready with what it was waiting with
    have hhanded := hs.engine.handPermits tag
      (min count (e.suspended.countP (·.reason == .permit tag)))
    exact ⟨⟨hhanded.queue, hhanded.suspended⟩, hs.stack⟩
  | letGo => exact ⟨⟨hs.engine.queue, hs.engine.suspended⟩, hs.stack⟩
  | outside host log => exact ⟨⟨hs.engine.queue, hs.engine.suspended⟩, hs.stack⟩

theorem Run.secluded {host : σ} {config : CoreConfig} {stages : List (Stage σ)}
    (h : Run plugins (opened host config) stages m) (hplugins : plugins.Solitary keeper)
    (hserve : plugins.ServeQuietly) : m.Secluded keeper := by
  induction h with
  | start =>
    refine ⟨⟨?_, ?_⟩, ?_⟩
    · simp [opened, Engine.new]
    · simp [opened, Engine.new]
    · simp [opened]
  | step hrun hstep ih => exact hstep.secluded hplugins hserve hrun.invariant ih

end Machine
end SentenceEngine
