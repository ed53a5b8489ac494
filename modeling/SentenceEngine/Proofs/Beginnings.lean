import Mathlib.Data.List.Nodup
import SentenceEngine.Proofs.Lifecycle
import SentenceEngine.Proofs.Reentrance

/-!
# Scripts that begin

A script that is dispatched does not begin at once: the services are told first, and then it is put
into the queue. Whatever happens meanwhile, it keeps its turn. Nobody takes a script back that is to
begin, also not by telling it to stop: cancellation is up to the script. What the engine sees to is
that a script which was told to stop before it began has nothing to say when it begins.

* `Machine.awaited`, `Machine.begun`: the scripts that are still to begin, and those that began.
* `Machine.Run.turns`: every dispatched script begins once, or is still to begin.
* `Machine.Revoked`: a script that was told to stop, and has no say.
* `Machine.Run.begins_revoked`: a script that was told to stop first begins like that.
-/

namespace SentenceEngine

variable {σ : Type}

namespace Work

/-- The script that an item of work gets ready to begin. -/
def readies? : Work σ → Option Instance
  | .arrive _ (.dispatch dispatched) => some dispatched
  | .spawn spawned => some spawned
  | _ => none

/-- The script that an item of work makes a task of. -/
def spawns? : Work σ → Option Instance
  | .spawn spawned => some spawned
  | _ => none

theorem spawns?_of_isErrand {work : Work σ} (h : work.isErrand = true) : work.spawns? = none := by
  cases work <;> first | rfl | cases h

/-- Where no task is made of a script, only those that are arrived at are still to begin. -/
theorem readies?_of_spawns {todo : List (Work σ)} (h : ∀ work ∈ todo, work.spawns? = none) :
    todo.filterMap readies? = (todo.filterMap arrives?).map (·.2) := by
  rw [List.map_filterMap]
  refine List.filterMap_congr ?_
  intro work hwork
  cases work with
  | arrive id arrival => cases arrival <;> rfl
  | spawn spawned => cases h _ hwork
  | _ => rfl

end Work

/-- The script that a task begins. -/
def Task.begins? : Task σ → Option Instance
  | .begin script => some script
  | _ => none

namespace Engine

variable {e : Engine σ} {id : ThreadId}

/-! ## The queue -/

/-- The scripts in the queue that have not begun. -/
def ready (e : Engine σ) : List Instance := e.queue.filterMap Task.begins?

/-- A request begins no script, and keeps none from beginning. -/
theorem Serves.ready {e' : Engine σ} (h : e.Serves e') : e'.ready = e.ready :=
  h.filterMap_queue fun _ => rfl

theorem ready_modifyThread (f : ThreadState → ThreadState) :
    (e.modifyThread id f).ready = e.ready := (serves_modifyThread f).ready

/-- Scripts that go on have begun. -/
theorem ready_wakeCancelled (e : Engine σ) (meant : Context → Bool) :
    (e.wakeCancelled meant).ready = e.ready := by
  have hwoken : ∀ waiting : List (Suspended σ),
      (waiting.map Suspended.wake).filterMap Task.begins? = [] := by
    intro waiting
    simp [Suspended.wake, Task.begins?]
  simp [ready, wakeCancelled, hwoken]

theorem ready_cancel (e : Engine σ) (context : Context) : (e.cancel context).ready = e.ready :=
  (ready_wakeCancelled _ _).trans (ready_modifyThread _)

theorem ready_release (e : Engine σ) (id : ThreadId) : (e.release id).ready = e.ready := by
  have hwoken := ready_wakeCancelled (e.modifyThread id fun t => { t with ended := true })
    fun c => c.thread == id
  exact hwoken.trans (ready_modifyThread _)

theorem ready_handPermits (e : Engine σ) (tag : String) (count : Nat) :
    (e.handPermits tag count).ready = e.ready := by
  induction count generalizing e with
  | zero => rfl
  | succ count ih =>
    unfold handPermits
    dsimp only
    split
    · rw [ih]
      simp [ready, enqueue, Suspended.wake, Task.begins?]
    · rfl

theorem spawns_advanceWork (id : ThreadId) (advance : Advance) :
    ∀ work ∈ (advanceWork id advance : List (Work σ)), work.spawns? = none :=
  forall_advanceWork (fun _ => rfl) (fun _ _ => rfl) id advance

theorem spawns_answer (query : Query) :
    ∀ work ∈ (e.answer query).todo, work.spawns? = none :=
  forall_answer (fun _ h => Work.spawns?_of_isErrand h) (fun _ => rfl) (fun _ _ => rfl) query

end Engine

namespace Machine

variable {plugins : Plugins σ} {m m' : Machine σ} {event : Event σ} {id : ThreadId}
  {e : Engine σ} {t t' : ThreadState} {a : Instance} {host : σ} {config : CoreConfig}
  {stages earlier later : List (Stage σ)} {s : Stage σ}

/-- Only the task that is made of a script is put into the queue to begin it. -/
theorem ready_of_workedOff {e' : Engine σ} {work : Work σ} {todo : List (Work σ)}
    (h : e.WorkedOff plugins work todo e') : e'.ready = e.ready ++ work.spawns?.toList := by
  have same : ∀ {e' : Engine σ}, e'.ready = e.ready → e'.ready = e.ready ++ [] := by
    intro e' h
    rw [h, List.append_nil]
  cases h with
  | asked hasks hnext => cases hnext <;> exact same (Engine.serves_answer _).ready
  | continued hasks hnext => cases hnext <;> exact same rfl
  | failed hcurrent => exact same (Engine.ready_modifyThread _)
  | aborted => exact same (Engine.ready_cancel e _)
  | spawned => simp [Engine.ready, Engine.enqueue, Task.begins?, Work.spawns?]
  | destroying hrunning => exact same (Engine.ready_modifyThread _)
  | cleared => exact same ((Engine.ready_modifyThread _).trans (Engine.serves_dropStart _).ready)
  | released => exact same (Engine.ready_release e _)
  | @started other =>
    have hqueued : (e.enqueue (.start other)).ready = e.ready := by
      simp [Engine.ready, Engine.enqueue, Task.begins?]
    exact same ((Engine.ready_modifyThread _).trans hqueued)
  | _ => exact same rfl

/-- A task is made of a script after the services were told of its dispatch, and only then. -/
theorem spawns_of_workedOff {e' : Engine σ} {work : Work σ} {todo : List (Work σ)}
    (h : e.WorkedOff plugins work todo e') :
    (∃ id a, work = .arrive id (.dispatch a)) ∨ ∀ next ∈ todo, next.spawns? = none := by
  cases h with
  | @asked _ next query hasks hnext =>
    right
    intro other hother
    rcases List.mem_append.1 hother with hother | hother
    · exact Engine.spawns_answer query other hother
    · rw [List.mem_singleton.1 hother]
      cases hnext <;> rfl
  | continued hasks hnext => cases hnext <;> exact .inr (by simp [Work.spawns?])
  | dispatched => exact .inl ⟨_, _, rfl⟩
  | completed ht hprep => exact .inr (Engine.spawns_advanceWork _ _)
  | @cleared other =>
    right
    cases e.look other none (·.inFlight) <;> simp [Work.spawns?]
  | _ => exact .inr (by simp [Work.spawns?])

/-! ## Turns -/

/-- The scripts that are still to begin: they are arrived at, about to be made a task of, or
ready. -/
def awaited (m : Machine σ) : List Instance := m.stack.filterMap Work.readies? ++ m.engine.ready

/-- The script that a step begins. -/
def Event.begins? : Event σ → Option Instance
  | .task taken => taken.begins?
  | _ => none

/-- The scripts that began, in order. -/
def begun (stages : List (Stage σ)) : List Instance := stages.filterMap (·.event.begins?)

/-- A step begins at most one script of those that were still to begin, and keeps the others;
what is dispatched joins them. -/
theorem Step.turns (h : Step plugins m event m') (hn : m.engine.Numbered) :
    ∃ (script : Option Instance) (todo : List (Work σ)), m'.stack = todo ++ m.stack.tail ∧
      todo.filterMap Work.arrives? = (script.map fun a => (a.context.thread, a)).toList ∧
      (event.begins?.toList ++ m'.awaited).Perm (script.toList ++ m.awaited) := by
  obtain ⟨script, todo, -, hstack, harrives, -⟩ := h.hands hn
  refine ⟨script, todo, hstack, harrives, ?_⟩
  -- work that makes no task of a script leaves only the new one to begin
  have hreadies : (∀ work ∈ todo, work.spawns? = none) →
      todo.filterMap Work.readies? = script.toList := by
    intro hspawns
    rw [Work.readies?_of_spawns hspawns, harrives]
    cases script <;> rfl
  rw [List.perm_iff_count]
  intro a
  cases h with
  | @work e work rest =>
    have htodo : (perform plugins e work).1 = todo := List.append_cancel_right hstack
    have hworked := Engine.workedOff_perform plugins e work
    have hready := ready_of_workedOff hworked
    rcases spawns_of_workedOff hworked with ⟨other, b, rfl⟩ | hspawns
    · -- the script that was arrived at is about to be made a task of
      cases htodo
      have hnone : script = none := by
        cases script with
        | none => rfl
        | some b => cases harrives
      simp [hnone, Event.begins?, awaited, perform, Work.readies?, List.filterMap_cons]
    · have hsame : work.readies? = work.spawns? ∨
          ∃ other b, work = .arrive other (.dispatch b) := by
        cases work with
        | arrive other arrival =>
          cases arrival with
          | dispatch b => exact .inr ⟨other, b, rfl⟩
          | _ => exact .inl rfl
        | _ => exact .inl rfl
      rcases hsame with hsame | ⟨other, b, rfl⟩
      · rw [htodo] at hspawns
        simp only [awaited, Event.begins?, htodo, hready, List.filterMap_append, hreadies hspawns,
          filterMap_cons_eq, hsame, List.count_append, Option.toList_none, List.count_nil]
        omega
      · have hspawned := hspawns (.spawn b) (by simp [perform])
        cases hspawned
  | @task e before after task hqueue =>
    rw [List.tail_nil, List.append_nil] at hstack
    have hready : e.ready = before.filterMap Task.begins? ++
        (task.begins?.toList ++ after.filterMap Task.begins?) := by
      rw [Engine.ready, hqueue, List.filterMap_append, filterMap_cons_eq]
    have hleft : (take plugins { e with queue := before ++ after } task).engine.ready =
        before.filterMap Task.begins? ++ after.filterMap Task.begins? := by
      rw [← List.filterMap_append]
      cases task with
      | start other =>
        simp only [take]
        split <;> rfl
      | _ => rfl
    have hspawns : ∀ work ∈ todo, work.spawns? = none := by
      rw [← hstack]
      cases task with
      | start other =>
        simp only [take]
        split
        · simp
        · exact Engine.spawns_advanceWork _ _
      | _ => simp [take, Work.spawns?]
    simp only [awaited, Event.begins?, hstack, hleft, hready, hreadies hspawns, List.count_append,
      List.filterMap_nil, List.count_nil]
    omega
  | @ask e query =>
    rw [List.tail_nil, List.append_nil] at hstack
    have htodo : (e.answer query).todo = todo := by simpa [Machine.ask] using hstack
    have hspawns := Engine.spawns_answer (e := e) query
    rw [htodo] at hspawns
    have hready : ((⟨e, []⟩ : Machine σ).ask query).2.engine.ready = e.ready :=
      (Engine.serves_answer query).ready
    simp [awaited, Event.begins?, hstack, hready, hreadies hspawns]
  | @permits e tag count =>
    have hnone : todo = [] := by simpa using hstack.symm
    have hready : (e.givePermits tag count).ready = e.ready :=
      Engine.ready_handPermits e tag _
    have hscript := hreadies (by simp [hnone])
    rw [hnone] at hscript
    simp [awaited, Event.begins?, hready, ← hscript]
  | letGo =>
    have hnone : todo = [] := by simpa using hstack.symm
    have hscript := hreadies (by simp [hnone])
    rw [hnone] at hscript
    simp [awaited, Event.begins?, Engine.ready, ← hscript]
  | outside host log =>
    have hnone : todo = [] := by simpa using hstack.symm
    have hscript := hreadies (by simp [hnone])
    rw [hnone] at hscript
    simp [awaited, Event.begins?, Engine.ready, ← hscript]

/-- The scripts that began and those that are still to begin are those that were dispatched. -/
theorem Run.turns (h : Run plugins (opened host config) stages m) (id : ThreadId) :
    ((begun stages ++ m.awaited).filter (·.context.thread == id)).Perm (dispatches id stages) := by
  induction h with
  | start => exact .refl _
  | @step stages m m' event hrun hstep ih =>
    have hm := hrun.invariant
    obtain ⟨script, todo, hstack, harrives, hperm⟩ := hstep.turns hm.numbered
    have harrivals : arrivalsIn id todo = (Stage.dispatched? id ⟨m, event, m'⟩).toList :=
      hrun.custody.arrivals (fun id => (hrun.ledger id).1) hstep hm hstack
    have hscript : script.toList.filter (·.context.thread == id) =
        (Stage.dispatched? id ⟨m, event, m'⟩).toList := by
      rw [← harrivals, arrivalsIn, harrives]
      cases script with
      | none => rfl
      | some a => by_cases hid : a.context.thread = id <;> simp [hid]
    have hbegun : begun (stages ++ [⟨m, event, m'⟩]) = begun stages ++ event.begins?.toList :=
      filterMap_snoc _ _ _
    have hdispatches : dispatches id (stages ++ [⟨m, event, m'⟩]) =
      dispatches id stages ++ (Stage.dispatched? id ⟨m, event, m'⟩).toList := filterMap_snoc _ _ _
    have hfiltered := hperm.filter (·.context.thread == id)
    rw [hbegun, hdispatches, List.perm_iff_count]
    intro a
    have hbefore := ih.count_eq a
    have hnow := hfiltered.count_eq a
    simp only [List.filter_append, List.count_append, hscript] at hbefore hnow ⊢
    omega

/-- No script is dispatched twice. -/
theorem Ledger.nodup_dispatches (hl : Ledger id stages m) : (dispatches id stages).Nodup := by
  refine hl.increasing.imp ?_
  rintro a b hlt rfl
  exact Nat.lt_irrefl _ hlt

/-- Of all scripts that began or are still to begin, none is there twice. -/
theorem Run.count_turns (h : Run plugins (opened host config) stages m) (a : Instance) :
    (begun stages).count a + m.awaited.count a =
      (dispatches a.context.thread stages).count a := by
  have hcount := (h.turns a.context.thread).count_eq a
  rw [List.count_filter (by simp), List.count_append] at hcount
  exact hcount

/-- A script that is still to begin has not begun. -/
theorem Run.not_begun (h : Run plugins (opened host config) stages m) (ha : a ∈ m.awaited) :
    a ∉ begun stages := by
  intro hbegun
  have hcount := h.count_turns a
  have hawaited := List.count_pos_iff.2 ha
  have hearlier := List.count_pos_iff.2 hbegun
  have honce := List.nodup_iff_count_le_one.1 (h.ledger a.context.thread).1.nodup_dispatches a
  omega

/-! ## Scripts that were told to stop -/

/-- A script was told to stop, and has no say: it learns that it was cancelled, is not the one in
flight, and neither its requests for control nor its end are of any account. -/
structure Revoked (plugins : Plugins σ) (a : Instance) (e : Engine σ) : Prop where
  cancelled : (e.answer (.isCancelled a.context)).reply = true
  passed : ¬ e.InFlight a.context
  inert : Inert plugins e a.context

/-- A ticket that is noted stays noted. -/
theorem Step.cancelled (h : Step plugins m event m') (hn : m.engine.Numbered) {ticket : Nat}
    (hcancelled : ∃ t, m.engine.thread? id = some t ∧ ticket ∈ t.cancelled) :
    ∃ t, m'.engine.thread? id = some t ∧ ticket ∈ t.cancelled := by
  obtain ⟨t, ht, hmem⟩ := hcancelled
  obtain ⟨t', ht', -⟩ := h.affects hn ht
  refine ⟨t', ht', ?_⟩
  rw [(h.notes hn ht ht').1]
  exact List.mem_append_right _ hmem

theorem Step.cancelled_of_told (h : Step plugins m event m') (hn : m.engine.Numbered)
    (ht : m.engine.thread? id = some t) (htold : Stage.told? id ⟨m, event, m'⟩ = some a) :
    ∃ t, m'.engine.thread? id = some t ∧ a.context.ticket ∈ t.cancelled := by
  obtain ⟨t', ht', -⟩ := h.affects hn ht
  refine ⟨t', ht', ?_⟩
  rw [(h.notes hn ht ht').1, htold]
  exact List.mem_cons_self

/-- A script that is told to stop was retired. -/
theorem Ledger.retired_of_told (hl : Ledger id stages m) (htold : a ∈ tellings id stages) :
    ∃ manner, (a, manner) ∈ retirements id stages := by
  have hmem : a ∈ toldOf (retirements id stages) := by
    rw [← hl.told]
    exact List.mem_append_left _ htold
  obtain ⟨⟨b, manner⟩, hb, hba⟩ := List.mem_map.1 hmem
  cases hba
  exact ⟨manner, (List.mem_filter.1 hb).1⟩

/-- Nobody is told to stop twice. -/
theorem Ledger.nodup_tellings (hl : Ledger id stages m) : (tellings id stages).Nodup := by
  have hretired : ((retirements id stages).map (·.1)).Nodup := by
    have hnodup := hl.nodup_dispatches
    rw [hl.balance] at hnodup
    exact (List.nodup_append.1 hnodup).1
  have htold : (tellings id stages ++ (m.toTell? id).toList).Nodup := by
    rw [hl.told]
    exact hretired.sublist (List.filter_sublist.map _)
  exact (List.nodup_append.1 htold).1

theorem told?_of_abort (h : s.event = .work (.abort a)) : s.told? a.context.thread = some a := by
  simp [Stage.told?, h, Work.aborts?]

/-- Who was told to stop is noted, and has lost its place. -/
theorem revoked_of_told (hl : Ledger a.context.thread stages m)
    (htold : a ∈ tellings a.context.thread stages)
    (hnoted : ∃ t, m.engine.thread? a.context.thread = some t ∧ a.context.ticket ∈ t.cancelled) :
    Revoked plugins a m.engine := by
  obtain ⟨t, ht, hmem⟩ := hnoted
  obtain ⟨manner, hretired⟩ := hl.retired_of_told htold
  have hcurrent := hl.not_current hretired ht
  constructor
  · have hreply : (m.engine.answer (.isCancelled a.context)).reply =
        t.isCancelled a.context.ticket := Engine.look_eq ht
    simp [hreply, ThreadState.isCancelled, hmem]
  · rintro ⟨r, b, hr, hphase, hb, heq⟩
    cases ht.symm.trans hr
    have hstill : t.isCurrent a.context.ticket = true :=
      ThreadState.isCurrent_iff.2 ⟨hphase, b, hb, congrArg _ heq⟩
    cases hcurrent.symm.trans hstill
  · apply inert_of_not_current
    intro r hr
    cases ht.symm.trans hr
    exact hcurrent

/-- A thread that dispatched a script is there. -/
theorem Run.exists_thread (h : Run plugins (opened host config) stages m)
    (hstack : m.stack.head? = some (.abort a)) :
    ∃ t, m.engine.thread? a.context.thread = some t := by
  rcases hnone : m.engine.thread? a.context.thread with _ | t
  · have hnothing := List.filter_eq_nil_iff.1 (h.unborn hnone).stack _ (List.mem_of_head? hstack)
    exact absurd (Work.concerns_of_owner rfl) hnothing
  · exact ⟨t, rfl⟩

/-- From the step on in which a script is told to stop, it is revoked. -/
theorem Run.revoked (h : Run plugins (opened host config) stages m)
    (hstages : stages = earlier ++ s :: later) (habort : s.event = .work (.abort a)) :
    Revoked plugins a m.engine ∧ ∀ r ∈ later, Revoked plugins a r.before.engine := by
  obtain ⟨hearlier, hstep⟩ := h.reached hstages
  have htold := told?_of_abort habort
  have hhead : s.before.stack.head? = some (.abort a) := by
    rw [habort] at hstep
    obtain ⟨rest, hstack⟩ := hstep.stack_of_event
    rw [hstack]
    rfl
  obtain ⟨t, ht⟩ := hearlier.exists_thread hhead
  -- from here on, the ticket is noted and the telling on record
  let Told (r : Machine σ) : Prop :=
    (∃ t, r.engine.thread? a.context.thread = some t ∧ a.context.ticket ∈ t.cancelled) ∧
      ∃ stages, Ledger a.context.thread stages r ∧ a ∈ tellings a.context.thread stages
  have hfirst : Told s.after := by
    refine ⟨hstep.cancelled_of_told hearlier.invariant.numbered ht htold, earlier ++ [s], ?_, ?_⟩
    · exact ((hearlier.step hstep).ledger _).1
    · rw [tellings, filterMap_snoc, htold]
      exact List.mem_append_right _ (List.mem_singleton_self a)
  have hnext : ∀ {stages m event m'}, Run plugins (opened host config) stages m →
      Step plugins m event m' → Told m → Told m' := by
    rintro stages m event m' hrun hstep ⟨hnoted, record, hl, hmem⟩
    have hm := hrun.invariant
    refine ⟨hstep.cancelled hm.numbered hnoted, _, hl.step hm hstep, ?_⟩
    rw [tellings, filterMap_snoc]
    exact List.mem_append_left _ hmem
  have hrevoked : ∀ {r : Machine σ}, Told r → Revoked plugins a r.engine := by
    rintro r ⟨hnoted, record, hl, hmem⟩
    exact revoked_of_told hl hmem hnoted
  obtain ⟨hm, hlater⟩ := h.since hstages hfirst hnext
  exact ⟨hrevoked hm, fun r hr => hrevoked (hlater r hr)⟩

/-- A script that is told to stop before it began is revoked from then on, so also when it begins.
It keeps its turn: it is still to begin, or has begun since, once, and it is not told again. -/
theorem Run.begins_revoked (h : Run plugins (opened host config) stages m)
    (hstages : stages = earlier ++ s :: later) (habort : s.event = .work (.abort a))
    (hbefore : a ∉ begun earlier) :
    Revoked plugins a m.engine ∧ (∀ r ∈ later, Revoked plugins a r.before.engine) ∧
      (∀ r ∈ later, r.event ≠ .work (.abort a)) ∧
      (begun later).count a + m.awaited.count a = 1 := by
  obtain ⟨hm, hlater⟩ := h.revoked hstages habort
  have hl := (h.ledger a.context.thread).1
  have htold := told?_of_abort habort
  have htellings : tellings a.context.thread stages =
      tellings a.context.thread earlier ++ a :: tellings a.context.thread later := by
    rw [hstages, tellings, List.filterMap_append, List.filterMap_cons_some htold]
    rfl
  refine ⟨hm, hlater, ?_, ?_⟩
  · intro r hr hagain
    have hnodup := hl.nodup_tellings
    rw [htellings] at hnodup
    have hmem : a ∈ tellings a.context.thread later :=
      List.mem_filterMap.2 ⟨r, hr, told?_of_abort hagain⟩
    exact (List.nodup_cons.1 (List.nodup_append.1 hnodup).2.1).1 hmem
  · -- it was dispatched once, and did not begin before it was told to stop
    have hdispatched : a ∈ dispatches a.context.thread stages := by
      have hmem : a ∈ tellings a.context.thread stages := by
        rw [htellings]
        exact List.mem_append_right _ List.mem_cons_self
      obtain ⟨manner, hretired⟩ := hl.retired_of_told hmem
      exact hl.mem_of_retired hretired
    have honce := List.count_eq_one_of_mem hl.nodup_dispatches hdispatched
    have hcount := h.count_turns a
    have hnone : s.event.begins? = none := by
      rw [habort]
      rfl
    have hbegun : begun stages = begun earlier ++ begun later := by
      rw [hstages]
      simp [begun, hnone]
    rw [hbegun, List.count_append, List.count_eq_zero_of_not_mem hbefore, honce] at hcount
    omega

/-! ## A script that begins in vain -/

/-- A run goes on with a task that is ready. -/
theorem Run.task {start : Machine σ} (h : Run plugins start stages m) (hstack : m.stack = [])
    {before after : List (Task σ)} {task : Task σ}
    (hqueue : m.engine.queue = before ++ task :: after) :
    ∃ m', Run plugins start (stages ++ [⟨m, .task task, m'⟩]) m' := by
  obtain ⟨e, stack⟩ := m
  cases hstack
  exact ⟨_, h.step (.task hqueue)⟩

/-- The small engine, its thread handed to another program right before its script begins. -/
def diverted : Machine Unit :=
  ((sample.runTasks idlePlugins 4).ask (.execute 0 [.instruction (.new "a")] none)).2

theorem exists_run_diverted :
    ∃ stages, Run idlePlugins (opened () sampleConfig) stages diverted := by
  have hstack : (sample.runTasks idlePlugins 4).stack = [] := by decide
  obtain ⟨stages, hsample⟩ := exists_run_sample
  obtain ⟨more, hrunning⟩ := hsample.runTasks 4
  exact ⟨_, hrunning.ask hstack _⟩

/-- A script of the small engine. -/
def smallScript (ticket : Nat) : Instance := ⟨"a", ⟨0, ticket, .new "a"⟩⟩

/-- The first script of the thread is told to stop, and begins after that. -/
theorem exists_begins_after_abort :
    ∃ stages m earlier s later r, Run idlePlugins (opened () sampleConfig) stages m ∧
      stages = earlier ++ s :: later ∧ s.event = .work (.abort (smallScript 1)) ∧
      smallScript 1 ∉ begun earlier ∧ r ∈ later ∧ r.event = .task (.begin (smallScript 1)) := by
  obtain ⟨stages, hrun⟩ := exists_run_diverted
  have hstack : diverted.stack =
      [.abort (smallScript 1), .arrive 0 (.dispatch (smallScript 2))] := rfl
  have hbefore := hrun.not_begun (by decide : smallScript 1 ∈ diverted.awaited)
  have htold := hrun.work hstack
  -- nothing else is left to be done, and the script is the first that is ready
  obtain ⟨more, hdrained⟩ := htold.drain 5
  obtain ⟨m, htaken⟩ := hdrained.task rfl
    (show _ = [] ++ .begin (smallScript 1) :: [.begin (smallScript 2)] from rfl)
  rw [List.append_assoc, List.append_assoc] at htaken
  exact ⟨_, m, stages, ⟨diverted, .work (.abort (smallScript 1)), _⟩, _, _, htaken, rfl, rfl,
    hbefore, List.mem_append_right more (List.mem_singleton_self _), rfl⟩

/-- There it is revoked by then, and does not begin again. -/
theorem Run.begins_revoked_diverted :
    ∃ stages m earlier s later r, Run idlePlugins (opened () sampleConfig) stages m ∧
      stages = earlier ++ s :: later ∧ s.event = .work (.abort (smallScript 1)) ∧
      r ∈ later ∧ r.event = .task (.begin (smallScript 1)) ∧
      Revoked idlePlugins (smallScript 1) r.before.engine ∧
      (begun later).count (smallScript 1) + m.awaited.count (smallScript 1) = 1 := by
  obtain ⟨stages, m, earlier, s, later, r, hrun, hstages, habort, hbefore, hr, hbegins⟩ :=
    exists_begins_after_abort
  obtain ⟨-, hrevoked, -, hcount⟩ := Run.begins_revoked hrun hstages habort hbefore
  exact ⟨stages, m, earlier, s, later, r, hrun, hstages, habort, hr, hbegins, hrevoked r hr, hcount⟩

/-- So being told to stop does not keep a script from beginning. -/
theorem not_abort_prevents_beginning :
    ¬ ∀ (plugins : Plugins Unit) (host : Unit) (config : CoreConfig) (stages earlier later :
      List (Stage Unit)) (m : Machine Unit) (s : Stage Unit) (a : Instance),
      Run plugins (opened host config) stages m → stages = earlier ++ s :: later →
      s.event = .work (.abort a) → a ∉ begun earlier → a ∉ begun later := by
  intro hprevents
  obtain ⟨stages, m, earlier, s, later, r, hrun, hstages, habort, hbefore, hr, hbegins⟩ :=
    exists_begins_after_abort
  have hnot := hprevents _ _ _ stages earlier later m s _ hrun hstages habort hbefore
  exact hnot (List.mem_filterMap.2 ⟨r, hr, by rw [hbegins]; rfl⟩)

end Machine
end SentenceEngine
