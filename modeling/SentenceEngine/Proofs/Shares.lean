import SentenceEngine.Proofs.Solitude

/-!
# What a thread has of the engine

The share of a thread is all of the engine that its own work depends on: the thread itself, its
tasks, its scripts that wait and the permits that are kept for it. Work of other threads leaves the
share as it is, and the thread's own work does the same wherever the share is the same.

* `Engine.share`: the share of a thread.
* `Engine.WorkedOff.share_other`: what belongs to others leaves the share as it is.
* `Engine.perform_congr`: what a thread does on its own depends on its share only.
-/

namespace SentenceEngine

variable {σ : Type}

/-- What a thread has of the engine. -/
@[ext]
structure Share (σ : Type) where
  /-- Whether the engine itself is still there. -/
  alive : Bool
  thread : Option ThreadState
  /-- The tasks of the thread, in order. -/
  tasks : List (Task σ)
  /-- The scripts of the thread that wait. -/
  waiting : List (Suspended σ)
  /-- The permits of the tags that are kept for the thread. -/
  permits : String → Option Nat

namespace Engine

variable {keeper : String → Option ThreadId} {e e' : Engine σ} {id other : ThreadId}
  {t p : ThreadState}

/-- What a thread has of the engine. -/
def share (keeper : String → Option ThreadId) (id : ThreadId) (e : Engine σ) : Share σ where
  alive := e.alive
  thread := e.thread? id
  tasks := e.tasksOf id
  waiting := e.suspended.filter (·.context.thread == id)
  permits := fun tag => if keeper tag = some id then e.permits.find? tag else none

/-! ## Changes of the engine

Each change of the engine is a change of the share, or none where it is about another thread. -/

theorem look_share (keeper : String → Option ThreadId) {α : Type} {absent : α}
    {f : ThreadState → α} :
    e.look id absent f = (((e.share keeper id).thread.map f).getD absent) := rfl

theorem servicesOf_share (keeper : String → Option ThreadId) :
    e.servicesOf id = (((e.share keeper id).thread.map (·.services)).getD []) := rfl

theorem share_setThread (t : ThreadState) :
    (e.setThread t).share keeper id =
      { e.share keeper id with
        thread :=
          if t.id = id then (e.share keeper id).thread.map fun _ => t
          else (e.share keeper id).thread } := by
  have hthread : (e.setThread t).thread? id =
      if t.id = id then (e.thread? id).map fun _ => t else e.thread? id := by
    split
    next hid =>
      subst hid
      rcases ht : e.thread? t.id with _ | s
      · simpa [thread?, setThread] using ht
      · exact thread?_setThread_self ht
    next hne => exact thread?_setThread_ne (Ne.symm hne)
  simp only [share, hthread]
  rfl

/-- A change of a thread shows in its own share only. -/
theorem share_modifyThread (hn : e.Numbered) {f : ThreadState → ThreadState}
    (hf : ∀ t : ThreadState, (f t).id = t.id) :
    (e.modifyThread other f).share keeper id =
      { e.share keeper id with
        thread :=
          if other = id then (e.share keeper id).thread.map f
          else (e.share keeper id).thread } := by
  rcases ht : e.thread? other with _ | t
  · rw [modifyThread_none ht]
    by_cases hid : other = id
    · subst hid
      simp [share, ht]
    · simp [hid]
  · have hid : (f t).id = other := (hf t).trans (hn _ _ ht)
    rw [modifyThread_eq ht, share_setThread, hid]
    by_cases hother : other = id
    · subst hother
      simp [share, ht]
    · simp [hother]

theorem share_queue (e : Engine σ) (queue : List (Task σ)) :
    share keeper id { e with queue } =
      { e.share keeper id with tasks := tasksOf { e with queue } id } := rfl

theorem share_enqueue (task : Task σ) :
    (e.enqueue task).share keeper id =
      { e.share keeper id with
        tasks := (e.share keeper id).tasks ++ [task].filter (·.owner == id) } := by
  simp [share, enqueue, tasksOf, List.filter_append, thread?]

theorem share_wakeCancelled (meant : Context → Bool) :
    (e.wakeCancelled meant).share keeper id =
      { e.share keeper id with
        tasks := (e.share keeper id).tasks ++ (((e.share keeper id).waiting.filter fun s =>
          s.reason == .cancellation && meant s.context).map (·.wake))
        waiting := (e.share keeper id).waiting.filter fun s =>
          !(s.reason == .cancellation && meant s.context) } := by
  -- a script that is woken makes a task of its own thread
  have howner : (fun task : Task σ => task.owner == id) ∘ Suspended.wake =
      fun s => s.context.thread == id := rfl
  simp only [share, wakeCancelled, tasksOf, List.filter_append, List.filter_map, howner,
    List.filter_filter, thread?]
  simp only [Bool.and_comm]

theorem share_dropStart (hn : e.Numbered) :
    (e.dropStart id).share keeper id =
      if ((e.share keeper id).thread.map (·.startPending)).getD false = true then
        { e.share keeper id with
          thread := (e.share keeper id).thread.map fun t => { t with startPending := false }
          tasks := (e.share keeper id).tasks.filter fun task => !task.isStartOf id }
      else e.share keeper id := by
  unfold dropStart
  rw [look_share keeper]
  split
  · let dropped : Engine σ := { e with queue := e.queue.filter fun task => !task.isStartOf id }
    have hdropped : dropped.Numbered := hn
    have htasks : dropped.tasksOf id = (e.tasksOf id).filter fun task => !task.isStartOf id := by
      simp [dropped, tasksOf, List.filter_filter, Bool.and_comm]
    show (dropped.modifyThread id _).share keeper id = _
    rw [share_modifyThread hdropped, if_pos rfl]
    · simp only [share, htasks]
      rfl
    · intro t
      rfl
  · rfl

theorem share_insertPermits (tag : String) (count : Nat) :
    share keeper id { e with permits := e.permits.insert tag count } =
      { e.share keeper id with
        permits := fun other =>
          if other = tag ∧ keeper other = some id then some count
          else (e.share keeper id).permits other } := by
  have hpermits : (share keeper id { e with permits := e.permits.insert tag count }).permits =
      fun other => if other = tag ∧ keeper other = some id then some count
        else (e.share keeper id).permits other := by
    funext other
    simp only [share, Dictionary.find?_insert]
    by_cases htag : other = tag
    · subst htag
      by_cases hkeeper : keeper other = some id <;> simp [hkeeper]
    · simp [htag]
  exact Share.ext rfl rfl rfl rfl hpermits

theorem share_suspend (s : Suspended σ) :
    share keeper id { e with suspended := e.suspended ++ [s] } =
      { e.share keeper id with
        waiting := (e.share keeper id).waiting ++ [s].filter (·.context.thread == id) } := by
  simp [share, List.filter_append, tasksOf, thread?]

/-! ## What belongs to others -/

theorem share_modifyThread_other (hn : e.Numbered) {f : ThreadState → ThreadState}
    (hne : other ≠ id) (hf : ∀ t : ThreadState, (f t).id = t.id) :
    (e.modifyThread other f).share keeper id = e.share keeper id := by
  rw [share_modifyThread hn hf, if_neg hne]

theorem share_setThread_other (hne : t.id ≠ id) :
    (e.setThread t).share keeper id = e.share keeper id := by
  rw [share_setThread, if_neg hne]

theorem share_enqueue_other {task : Task σ} (hne : task.owner ≠ id) :
    (e.enqueue task).share keeper id = e.share keeper id := by
  rw [share_enqueue, List.filter_cons_of_neg (by simpa using hne)]
  simp

/-- No script of the thread is told that it need not wait any longer. -/
theorem share_wakeCancelled_other {meant : Context → Bool}
    (hmeant : ∀ context, meant context = true → context.thread ≠ id) :
    (e.wakeCancelled meant).share keeper id = e.share keeper id := by
  have hwaits : ∀ s ∈ (e.share keeper id).waiting,
      (s.reason == .cancellation && meant s.context) = false := by
    intro s hs
    have hown : s.context.thread = id := by simpa using (List.mem_filter.1 hs).2
    rcases hmeans : meant s.context with _ | _
    · simp
    · exact absurd hown (hmeant _ hmeans)
  have hnone : (e.share keeper id).waiting.filter
      (fun s => s.reason == .cancellation && meant s.context) = [] := by
    rw [List.filter_eq_nil_iff]
    intro s hs
    simp [hwaits s hs]
  have hall : (e.share keeper id).waiting.filter
      (fun s => !(s.reason == .cancellation && meant s.context)) =
        (e.share keeper id).waiting := by
    rw [List.filter_eq_self]
    intro s hs
    simp [hwaits s hs]
  rw [share_wakeCancelled, hnone, hall]
  simp

theorem share_takePermit_other {tag : String} (h : e.takePermit? tag = some e')
    (htag : keeper tag ≠ some id) : e'.share keeper id = e.share keeper id := by
  unfold takePermit? at h
  split at h
  · cases h
    have hpermits : ∀ other, ¬ (other = tag ∧ keeper other = some id) := by
      rintro other ⟨rfl, hkeeper⟩
      exact htag hkeeper
    rw [share_insertPermits]
    simp only [hpermits, if_false]
  · cases h

theorem share_dropStart_other (hn : e.Numbered) (hne : other ≠ id) :
    (e.dropStart other).share keeper id = e.share keeper id := by
  unfold dropStart
  split
  · let dropped : Engine σ := { e with queue := e.queue.filter fun task => !task.isStartOf other }
    have hdropped : dropped.share keeper id = e.share keeper id := by
      have htasks : dropped.tasksOf id = e.tasksOf id := tasksOf_filter_start hne
      simp only [share, htasks]
      rfl
    have hmodified : ∀ t : ThreadState,
        ({ t with startPending := false } : ThreadState).id = t.id := fun _ => rfl
    have hn' : dropped.Numbered := hn
    exact (share_modifyThread_other hn' hne hmodified).trans hdropped
  · rfl

theorem share_cancel_other (hn : e.Numbered) {context : Context} (hne : context.thread ≠ id) :
    (e.cancel context).share keeper id = e.share keeper id := by
  have hnoted : ∀ t : ThreadState,
      ({ t with cancelled := context.ticket :: t.cancelled } : ThreadState).id = t.id :=
    fun _ => rfl
  refine (share_wakeCancelled_other ?_).trans (share_modifyThread_other hn hne hnoted)
  intro c hc
  rw [Bool.and_eq_true, beq_iff_eq] at hc
  rwa [hc.1]

theorem share_release_other (hn : e.Numbered) (hne : other ≠ id) :
    (e.release other).share keeper id = e.share keeper id := by
  have hended : ∀ t : ThreadState, ({ t with ended := true } : ThreadState).id = t.id :=
    fun _ => rfl
  have hmodified : (e.modifyThread other fun t => { t with ended := true }).share keeper id =
      e.share keeper id := share_modifyThread_other hn hne hended
  have hwoken : ∀ {e₁ : Engine σ},
      (e₁.wakeCancelled fun c => c.thread == other).share keeper id = e₁.share keeper id := by
    intro e₁
    apply share_wakeCancelled_other
    intro c hc
    rwa [beq_iff_eq.1 hc]
  exact hwoken.trans hmodified

/-! ## The same share -/

/-- Two results of which a thread takes the same away: the same work is left, and the shares are the
same. -/
structure SameFor (keeper : String → Option ThreadId) (id : ThreadId)
    (r r' : List (Work σ) × Engine σ) : Prop where
  todo : r.1 = r'.1
  share : r.2.share keeper id = r'.2.share keeper id

theorem modifyThread_congr (hn : e.Numbered) (hn' : e'.Numbered)
    (h : e.share keeper id = e'.share keeper id) {f : ThreadState → ThreadState}
    (hf : ∀ t : ThreadState, (f t).id = t.id) :
    (e.modifyThread id f).share keeper id = (e'.modifyThread id f).share keeper id := by
  rw [share_modifyThread hn hf, share_modifyThread hn' hf, h]

theorem dropStart_congr (hn : e.Numbered) (hn' : e'.Numbered)
    (h : e.share keeper id = e'.share keeper id) :
    (e.dropStart id).share keeper id = (e'.dropStart id).share keeper id := by
  rw [share_dropStart hn, share_dropStart hn', h]

theorem setThread_congr (h : e.share keeper id = e'.share keeper id) (t : ThreadState) :
    (e.setThread t).share keeper id = (e'.setThread t).share keeper id := by
  rw [share_setThread, share_setThread, h]

theorem wakeCancelled_congr (h : e.share keeper id = e'.share keeper id)
    (meant : Context → Bool) :
    (e.wakeCancelled meant).share keeper id = (e'.wakeCancelled meant).share keeper id := by
  rw [share_wakeCancelled, share_wakeCancelled, h]

theorem enqueue_congr (h : e.share keeper id = e'.share keeper id) (task : Task σ) :
    (e.enqueue task).share keeper id = (e'.enqueue task).share keeper id := by
  rw [share_enqueue, share_enqueue, h]

theorem suspend_congr (h : e.share keeper id = e'.share keeper id) (s : Suspended σ) :
    share keeper id { e with suspended := e.suspended ++ [s] } =
      share keeper id { e' with suspended := e'.suspended ++ [s] } := by
  rw [share_suspend, share_suspend, h]

/-- A permit that is kept for a thread is left for it, or not, whatever the others do. -/
theorem takePermit_congr (h : e.share keeper id = e'.share keeper id) {tag : String}
    (htag : keeper tag = some id) :
    (e.takePermit? tag = none ∧ e'.takePermit? tag = none) ∨
    ∃ e₁ e₁', e.takePermit? tag = some e₁ ∧ e'.takePermit? tag = some e₁' ∧
      e₁.share keeper id = e₁'.share keeper id := by
  have hleft : e.permits.find? tag = e'.permits.find? tag := by
    simpa [share, htag] using congrFun (congrArg Share.permits h) tag
  -- both find the same number of permits, and leave one less
  unfold takePermit?
  rw [hleft]
  split
  next n hn =>
    refine .inr ⟨_, _, rfl, rfl, ?_⟩
    rw [share_insertPermits, share_insertPermits, h]
  next => exact .inl ⟨rfl, rfl⟩

/-! ## Requests -/

/-- A thread gets the same reply to a request about itself, and the same work. -/
structure SameReply (keeper : String → Option ThreadId) (id : ThreadId) {ρ : Type}
    (r r' : Response σ ρ) : Prop where
  reply : r.reply = r'.reply
  todo : r.todo = r'.todo
  share : r.engine.share keeper id = r'.engine.share keeper id

theorem SameReply.respond (h : e.share keeper id = e'.share keeper id) {ρ : Type} {reply reply' : ρ}
    (hreply : reply = reply') : SameReply keeper id (e.respond reply) (e'.respond reply') :=
  ⟨hreply, rfl, h⟩

theorem look_congr (h : e.share keeper id = e'.share keeper id) {α : Type} (absent : α)
    (f : ThreadState → α) : e.look id absent f = e'.look id absent f := by
  rw [look_share keeper, look_share keeper, h]

theorem transfer_congr (hn : e.Numbered) (hn' : e'.Numbered)
    (h : e.share keeper id = e'.share keeper id) (caller : Option Context) (program : Sequence)
    (entry : Option String) :
    SameReply keeper id (e.transfer id caller program entry)
      (e'.transfer id caller program entry) := by
  have hthread : e.thread? id = e'.thread? id := congrArg Share.thread h
  unfold transfer
  rw [hthread]
  split
  · exact .respond h rfl
  · split
    · exact .respond h rfl
    · refine ⟨rfl, rfl, ?_⟩
      exact dropStart_congr (numbered_setThread hn) (numbered_setThread hn') (setThread_congr h _)

theorem answer_congr (hn : e.Numbered) (hn' : e'.Numbered)
    (h : e.share keeper id = e'.share keeper id) {query : Query} (hown : query.IsOwn id) :
    SameReply keeper id (e.answer query) (e'.answer query) := by
  rcases hown with hsubject | rfl
  · cases query with
    | setVar other name value =>
      cases hsubject
      refine ⟨rfl, rfl, ?_⟩
      apply modifyThread_congr hn hn' h
      intro t
      obtain ⟨vars, hvars⟩ := t.setVar_eq name value
      rw [hvars]
    | execute other program entry =>
      cases hsubject
      exact transfer_congr hn hn' h _ _ _
    | transfer context program entry =>
      cases hsubject
      exact transfer_congr hn hn' h _ _ _
    | destroy other =>
      cases hsubject
      simp only [answer, destroyThread, look_congr h]
      split
      · exact ⟨rfl, rfl, h⟩
      · exact .respond h rfl
    | hasCore => cases hsubject
    | core query => cases hsubject
    | _ =>
      cases hsubject
      exact .respond h (look_congr h _ _)
  · exact .respond h (congrArg Share.alive h)

/-- A request about one thread leaves the others alone. -/
theorem share_answer_other (ho : e.Owned) {query : Query} (hown : query.IsOwn other)
    (hne : other ≠ id) : (e.answer query).engine.share keeper id = e.share keeper id := by
  -- a transfer of control sets the thread and gives up its first run, both of the other thread
  have moved : ∀ caller program entry,
      (e.transfer other caller program entry).engine.share keeper id = e.share keeper id := by
    intro caller program entry
    rcases transfer_cases (e := e) other caller program entry with
      ⟨error, hrefused⟩ | ⟨t, p, ht, hprep, hgranted⟩
    · rw [hrefused]
      rfl
    · have hid : p.run.2.id = other := hprep.kin_run.id.symm.trans (ho other t ht).1
      rw [hgranted, share_dropStart_other (numbered_setThread ho.numbered) hne,
        share_setThread_other (by rwa [hid])]
  rcases hown with hsubject | rfl
  · cases query with
    | setVar thread name value =>
      cases hsubject
      apply share_modifyThread_other ho.numbered hne
      intro t
      obtain ⟨vars, hvars⟩ := t.setVar_eq name value
      rw [hvars]
    | execute thread program entry =>
      cases hsubject
      exact moved _ _ _
    | transfer context program entry =>
      cases hsubject
      exact moved _ _ _
    | destroy thread =>
      simp only [answer, destroyThread]
      split <;> rfl
    | core query => cases hsubject
    | _ => rfl
  · rfl

/-! ## Items of work -/

variable {plugins : Plugins σ} {work : Work σ}

/-- Work that is not about a thread leaves the share of the thread as it is. -/
theorem WorkedOff.share_other {todo : List (Work σ)} (h : e.WorkedOff plugins work todo e')
    (ho : e.Owned) (hwork : work.Solitary keeper) (hsubject : work.subject? ≠ some id) :
    e'.share keeper id = e.share keeper id := by
  have subject_ne : ∀ {other : ThreadId}, work.subject? = some other → other ≠ id := by
    rintro other hother rfl
    exact hsubject hother
  cases h with
  | @asked _ _ query hasks hnext =>
    obtain ⟨other, hother, hown⟩ := hwork.isOwn hasks
    exact share_answer_other ho hown (subject_ne hother)
  | continued hasks hnext hhost hpermits =>
    rcases hpermits with rfl | ⟨tag, hwaits, htake⟩
    · rfl
    · -- the permits that the script may take are kept for another thread
      obtain ⟨other, hother, hkeeper⟩ := hwork.keeper hwaits
      have htag : keeper tag ≠ some id := by
        rw [hkeeper]
        simpa using subject_ne hother
      have htaken := share_takePermit_other htake htag
      exact htaken
  | suspended =>
    have hne := subject_ne rfl
    rw [share_suspend, List.filter_cons_of_neg (by simpa using hne)]
    simp
  | failed hcurrent => exact share_modifyThread_other ho.numbered (subject_ne rfl) fun _ => rfl
  | aborted => exact share_cancel_other ho.numbered (subject_ne rfl)
  | @spawned script =>
    have hne : (Task.begin script : Task σ).owner ≠ id := subject_ne rfl
    exact share_enqueue_other hne
  | completed ht hprep =>
    have hid := hprep.kin_run.id.symm.trans (ho _ _ ht).1
    refine share_setThread_other ?_
    rw [hid]
    exact subject_ne rfl
  | destroying hrunning =>
    exact share_modifyThread_other ho.numbered (subject_ne rfl) fun _ => rfl
  | @cleared thread =>
    have hne : thread ≠ id := subject_ne rfl
    have hn := (keeps_dropStart ho.numbered thread).numbered ho.numbered
    have hcleared : ∀ t : ThreadState, t.clear.id = t.id := fun _ => rfl
    exact (share_modifyThread_other hn hne hcleared).trans (share_dropStart_other ho.numbered hne)
  | released => exact share_release_other ho.numbered (subject_ne rfl)
  | @started thread =>
    have hne : (Task.start thread : Task σ).owner ≠ id := subject_ne rfl
    have hn : (e.enqueue (.start thread)).Numbered := ho.numbered
    refine (share_modifyThread_other hn hne ?_).trans (share_enqueue_other hne)
    intro t
    split <;> rfl
  | _ => rfl

theorem settle_congr (hn : e.Numbered) (hn' : e'.Numbered) {context : Context}
    (h : e.share keeper context.thread = e'.share keeper context.thread) (outcome : Outcome) :
    SameFor keeper context.thread (Machine.settle e context outcome)
      (Machine.settle e' context outcome) := by
  cases outcome with
  | ok done =>
    have hservices : e.servicesOf context.thread = e'.servicesOf context.thread := by
      rw [servicesOf_share keeper, servicesOf_share keeper, h]
    simp only [Machine.settle, look_congr h, hservices]
    split
    · exact ⟨rfl, h⟩
    · exact ⟨rfl, h⟩
  | error failure =>
    simp only [Machine.settle, look_congr h]
    split
    · exact ⟨rfl, modifyThread_congr hn hn' h fun _ => rfl⟩
    · exact ⟨rfl, h⟩

theorem suspendFor_congr {context : Context} {reason : Wait} {rest : Behaviour σ Wait Outcome}
    (hreason : reason.IsOwn keeper context.thread)
    (h : e.share keeper context.thread = e'.share keeper context.thread) :
    SameFor keeper context.thread (Machine.suspend e context rest reason)
      (Machine.suspend e' context rest reason) := by
  cases reason with
  | permit tag =>
    simp only [Machine.suspend]
    rcases takePermit_congr h hreason with ⟨hnone, hnone'⟩ | ⟨e₁, e₁', htake, htake', hshare⟩
    · rw [hnone, hnone']
      exact ⟨rfl, suspend_congr h _⟩
    · rw [htake, htake']
      exact ⟨rfl, hshare⟩
  | cancellation =>
    simp only [Machine.suspend, look_congr h]
    split
    · exact ⟨rfl, h⟩
    · exact ⟨rfl, suspend_congr h _⟩

/-- What the own work of a thread does depends on the share of the thread only. -/
theorem perform_congr (hn : e.Numbered) (hn' : e'.Numbered) (hwork : work.Solitary keeper)
    (hsubject : work.subject? = some id) (h : e.share keeper id = e'.share keeper id) :
    SameFor keeper id (Machine.perform plugins e work) (Machine.perform plugins e' work) := by
  have hthread : e.thread? id = e'.thread? id := congrArg Share.thread h
  have hservices : e.servicesOf id = e'.servicesOf id := by
    rw [servicesOf, servicesOf, hthread]
  cases work with
  | script context code =>
    cases hsubject
    cases hwork with
    | pure outcome => exact settle_congr hn hn' h outcome
    | @ask query next hown hnext =>
      obtain ⟨hreply, htodo, hshare⟩ := answer_congr hn hn' h hown
      simp only [Machine.perform, stepCode, hreply, htodo]
      exact ⟨rfl, hshare⟩
    | log hnext => exact ⟨rfl, h⟩
    | @update change next hblind hnext =>
      -- the common states differ as they may, and the script goes on in the same way
      simp only [Machine.perform, stepCode, hblind e.host e'.host]
      exact ⟨rfl, h⟩
    | wait hmay hnext => exact suspendFor_congr hmay h
  | abortHook context code =>
    cases hsubject
    cases hwork with
    | pure done => exact ⟨rfl, h⟩
    | @ask query next hown hnext =>
      obtain ⟨hreply, htodo, hshare⟩ := answer_congr hn hn' h hown
      simp only [Machine.perform, stepCode, hreply, htodo]
      exact ⟨rfl, hshare⟩
    | log hnext => exact ⟨rfl, h⟩
    | @update change next hblind hnext =>
      simp only [Machine.perform, stepCode, hblind e.host e'.host]
      exact ⟨rfl, h⟩
    | @wait reason _ hmay hnext => cases reason
  | hook notification code => cases hsubject
  | notify services notification =>
    cases services with
    | nil => exact ⟨rfl, h⟩
    | cons service services => exact ⟨rfl, h⟩
  | announce notification => cases hsubject
  | abort aborted =>
    cases hsubject
    refine ⟨rfl, wakeCancelled_congr (modifyThread_congr hn hn' h ?_) _⟩
    intro t
    rfl
  | arrive thread arrival =>
    cases arrival with
    | dispatch dispatched =>
      have hid : dispatched.context.thread = thread := hwork
      cases hsubject
      subst hid
      simp only [Machine.perform, hservices]
      exact ⟨rfl, h⟩
    | _ => exact ⟨rfl, h⟩
  | spawn spawned => exact ⟨rfl, enqueue_congr h _⟩
  | complete context =>
    cases hsubject
    simp only [Machine.perform, hthread]
    split
    · exact ⟨rfl, h⟩
    · split
      · exact ⟨rfl, setThread_congr h _⟩
      · exact ⟨rfl, h⟩
  | fail thread error =>
    cases hsubject
    simp only [Machine.perform, hservices]
    exact ⟨rfl, h⟩
  | destroy thread =>
    cases hsubject
    simp only [Machine.perform, look_congr h, hservices]
    split
    · exact ⟨rfl, modifyThread_congr hn hn' h fun _ => rfl⟩
    · exact ⟨rfl, h⟩
  | clear thread =>
    cases hsubject
    simp only [Machine.perform, look_congr h]
    refine ⟨rfl, modifyThread_congr ?_ ?_ (dropStart_congr hn hn' h) fun _ => rfl⟩
    · exact (keeps_dropStart hn id).numbered hn
    · exact (keeps_dropStart hn' id).numbered hn'
  | release thread =>
    cases hsubject
    have hid : ∀ t : ThreadState, ({ t with ended := true } : ThreadState).id = t.id := fun _ => rfl
    have hended := modifyThread_congr hn hn' h hid
    exact ⟨rfl, wakeCancelled_congr hended fun c => c.thread == id⟩
  | start thread =>
    cases hsubject
    -- the task is put at the end of the thread's own tasks in both
    have hqueued : (e.enqueue (.start id)).Numbered := hn
    have hqueued' : (e'.enqueue (.start id)).Numbered := hn'
    refine ⟨rfl, modifyThread_congr hqueued hqueued' (enqueue_congr h _) ?_⟩
    intro t
    split <;> rfl
  | reopen => cases hsubject

end Engine

namespace Machine

variable {keeper : String → Option ThreadId} {plugins : Plugins σ} {e e' : Engine σ}
  {id : ThreadId} {task : Task σ}

/-! ## Tasks -/

/-- A task of another thread that is taken up leaves the share as it is. -/
theorem share_take_other (ho : e.Owned) (hne : task.owner ≠ id) :
    (take plugins e task).engine.share keeper id = e.share keeper id := by
  cases task with
  | start other =>
    rcases ht : e.thread? other with _ | t
    · rw [take_start_none ht]
    · rw [take_start_some ht]
      have hid : t.resume.2.id = other := t.id_resume.trans (ho other t ht).1
      exact Engine.share_setThread_other (by rwa [hid])
  | begin script => rfl
  | resume context rest => rfl

/-- What comes of a task depends on the share of its thread only. -/
theorem take_congr (plugins : Plugins σ) (howner : task.owner = id)
    (h : e.share keeper id = e'.share keeper id) :
    (take plugins e task).stack = (take plugins e' task).stack ∧
      (take plugins e task).engine.share keeper id =
        (take plugins e' task).engine.share keeper id := by
  cases task with
  | start other =>
    cases howner
    have hthread : e.thread? other = e'.thread? other := congrArg Share.thread h
    rcases ht : e'.thread? other with _ | t
    · rw [take_start_none ht, take_start_none (hthread.trans ht)]
      exact ⟨rfl, h⟩
    · rw [take_start_some ht, take_start_some (hthread.trans ht)]
      exact ⟨rfl, Engine.setThread_congr h _⟩
  | begin script => exact ⟨rfl, h⟩
  | resume context rest => exact ⟨rfl, h⟩

end Machine
end SentenceEngine
