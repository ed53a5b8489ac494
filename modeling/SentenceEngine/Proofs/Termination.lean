import SentenceEngine.Proofs.Destruction

/-!
# Threads terminate once and for all

The phase of a thread only moves on. One call destroys it, whichever of the ways to the end is taken
and whatever services and scripts call meanwhile; its services are told once, while everything can
still be read; and after that nothing changes it, and nothing more is told about it.

* `Machine.endings`, `Machine.destructions`: the ends that were told of, the calls that succeeded.
* `Machine.Lives`: what one step can do to the life of a thread.
* `Machine.Run.terminates_once`: the two accounts over a whole run, and the active threads.
-/

namespace SentenceEngine

variable {σ : Type}

/-- What becomes of a phase in one step: it stays, or the thread goes on to the next. -/
inductive Phase.Next : Phase → Phase → Prop
  | same (phase : Phase) : Next phase phase
  | destroying : Next .running .destroying
  | destroyed : Next .destroying .destroyed

namespace ThreadState

variable {t t' : ThreadState}

/-- Nothing is left of a thread once it is gone. -/
def Bare (t : ThreadState) : Prop :=
  t.phase = .destroyed → t.frames = [] ∧ t.vars = [] ∧ t.inFlight = none

theorem bare_of_ne (h : t.phase ≠ .destroyed) : t.Bare := by
  intro hgone
  exact absurd hgone h

theorem bare_clear (t : ThreadState) : t.clear.Bare := by
  intro _
  exact ⟨rfl, rfl, rfl⟩

theorem Agrees.bare (h : t.Agrees t') (hb : t.Bare) : t'.Bare := by
  intro hgone
  rw [← h.frames, ← h.vars, ← h.inFlight]
  exact hb (h.phase.trans hgone)

theorem Prepares.bare_run {p : ThreadState} {move : Move} (h : t.Prepares move p) :
    p.run.2.Bare := by
  apply bare_of_ne
  rw [← h.kin_run.phase, h.phase.1]
  simp

theorem setVar_of_destroyed (h : t.phase = .destroyed) (name : String) (value : Json) :
    t.setVar name value = t := by
  simp [setVar, h]

theorem Bare.free (hb : t.Bare) : Bare { t with inFlight := none } := by
  intro hgone
  obtain ⟨hframes, hvars, -⟩ := hb hgone
  exact ⟨hframes, hvars, rfl⟩

theorem Bare.setVar (hb : t.Bare) (name : String) (value : Json) :
    (t.setVar name value).Bare := by
  by_cases hgone : t.phase = .destroyed
  · rwa [setVar_of_destroyed hgone]
  · apply bare_of_ne
    obtain ⟨vars, hvars⟩ := t.setVar_eq name value
    rwa [hvars]

end ThreadState

/-- Whether an item of work is code that can look at the engine. -/
def Work.looks : Work σ → Bool
  | .script _ _ => true
  | .hook _ _ => true
  | _ => false

theorem Work.calm_of_looks {work : Work σ} (h : work.looks = true) : work.Calm := by
  cases work with
  | script context code => trivial
  | hook notification code => trivial
  | _ => cases h

namespace Machine

variable {plugins : Plugins σ} {m m' : Machine σ} {event : Event σ} {id : ThreadId}
  {t t' : ThreadState} {e e' : Engine σ} {todo : List (Work σ)}

/-! ## Threads that are gone -/

/-- Every thread that is gone is bare. -/
theorem Affects.bare {move : Move} (h : Affects id m event m' t move t') (hb : t.Bare) :
    t'.Bare := by
  cases h with
  | still hagree => exact hagree.bare hb
  | assigned hagree => exact hagree.bare (hb.setVar _ _)
  | resumed hprep hagree => exact hagree.bare hprep.bare_run
  | executed hprep hagree => exact hagree.bare hprep.bare_run
  | completed hid hprep hagree => exact hagree.bare hprep.bare_run
  | failed hid hcurrent hagree => exact hagree.bare hb.free
  | destroying hphase hagree => exact hagree.bare (ThreadState.bare_of_ne (by simp))
  | cleared hagree => exact hagree.bare t.bare_clear

/-- Nothing changes a thread that is gone. -/
theorem Affects.agrees_of_destroyed {move : Move} (h : Affects id m event m' t move t')
    (hstep : Step plugins m event m') (hclears : event.clears? ≠ some id)
    (hgone : t.phase = .destroyed) : t.Agrees t' := by
  cases h with
  | still hagree => exact hagree
  | assigned hagree => rwa [ThreadState.setVar_of_destroyed hgone] at hagree
  | resumed hprep => cases hprep.phase.1.symm.trans hgone
  | executed hprep => cases hprep.phase.1.symm.trans hgone
  | completed hid hprep => cases hprep.phase.1.symm.trans hgone
  | failed hid hcurrent => cases (ThreadState.isCurrent_iff.1 hcurrent).1.symm.trans hgone
  | destroying hphase => cases hphase.symm.trans hgone
  | cleared hagree hbefore =>
    exact absurd (Event.clears?_eq_some_iff.2 (hstep.event_of_stack hbefore)) hclears

theorem Run.bare {host : σ} {config : CoreConfig} {stages : List (Stage σ)}
    (h : Run plugins (opened host config) stages m) (ht : m.engine.thread? id = some t) :
    t.Bare := by
  induction h generalizing t with
  | start => simp [opened, Engine.new, Engine.thread?] at ht
  | step hrun hstep ih =>
    obtain ⟨s, hs, haffects⟩ | ⟨-, overrides, program, services, hcreates⟩ :=
      hstep.thread_cases hrun.invariant.numbered ht
    · exact haffects.bare (ih hs)
    · -- a new thread runs
      obtain ⟨start, -, -, rfl⟩ := ThreadState.create_eq_ok hcreates.create
      exact ThreadState.bare_of_ne (by simp)

/-! ## Rounds of the services -/

namespace Stage

/-- What a step puts on the stack. -/
def added (s : Stage σ) : List (Work σ) :=
  s.after.stack.take (s.after.stack.length - s.before.stack.tail.length)

/-- The notifications of the rounds that a step begins; a round that goes on is none of them. -/
def begins (s : Stage σ) : List Notification :=
  match s.event with
  | .work (.notify _ _) => []
  | _ => s.added.filterMap Work.round?

/-- The thread whose destruction a step begins: the call that succeeds. -/
def destroyed? (s : Stage σ) : Option ThreadId := s.event.ends? s.before.engine

end Stage

/-- The threads whose end the services were told of, in order. -/
def endings (stages : List (Stage σ)) : List ThreadId :=
  (stages.flatMap (·.begins)).filterMap Notification.endOf?

/-- The threads that a call destroyed, in order. -/
def destructions (stages : List (Stage σ)) : List ThreadId := stages.filterMap (·.destroyed?)

end Machine

namespace Engine

variable {e' : Engine σ} {todo : List (Work σ)} {notification : Notification} {id : ThreadId}

/-- A round about a thread is begun only while the thread runs. -/
theorem Brings.running (h : e'.Brings todo) {work : Work σ} (hwork : work ∈ todo)
    (hround : work.round? = some notification) (hthread : notification.thread? = some id) :
    e'.phase? id = some .running := by
  cases h with
  | routine hroutine =>
    rw [Work.round?_of_isRoutine (hroutine work hwork)] at hround
    cases hround
  | @moved other advance hrunning =>
    rcases advanceWork_cases (σ := σ) other advance with ⟨script, htodo⟩ | htodo
    · rw [htodo] at hwork
      simp only [List.mem_cons, List.not_mem_nil, or_false] at hwork
      rcases hwork with rfl | rfl <;> cases hround
    · rw [htodo] at hwork
      rw [List.mem_singleton.1 hwork] at hround
      cases hround
  | late =>
    rw [List.mem_singleton.1 hwork] at hround
    cases hround
  | failed hrunning =>
    rw [List.mem_singleton.1 hwork] at hround
    cases hround
  | told hother hend hrunning hnext =>
    simp only [List.mem_cons, List.not_mem_nil, or_false] at hwork
    rcases hwork with rfl | rfl
    · cases hround
      cases hother.symm.trans hthread
      exact hrunning
    · rw [Work.round?_of_isRoutine hnext] at hround
      cases hround
  | announced hnone =>
    rw [List.mem_singleton.1 hwork] at hround
    cases hround
    cases hnone.symm.trans hthread

/-- No end is told of outside of a destruction, and every round is about a thread that runs, or
about none. -/
theorem Brings.rounds (h : e'.Brings todo) :
    (todo.filterMap Work.round?).filterMap Notification.endOf? = [] ∧
      ∀ notification ∈ todo.filterMap Work.round?, ∀ id, notification.thread? = some id →
        e'.phase? id = some .running := by
  constructor
  · rw [List.filterMap_filterMap, List.filterMap_eq_nil_iff]
    intro work hwork
    exact (h.uninvolved work hwork).round
  · intro notification hround id hthread
    obtain ⟨work, hwork, hround⟩ := List.mem_filterMap.1 hround
    exact h.running hwork hround hthread

end Engine

namespace Machine

variable {plugins : Plugins σ} {m m' : Machine σ} {event : Event σ} {id : ThreadId}
  {t t' : ThreadState} {e e' : Engine σ} {todo : List (Work σ)}

theorem added_eq (event : Event σ) (hstack : m'.stack = todo ++ m.stack.tail) :
    Stage.added ⟨m, event, m'⟩ = todo := by
  simp [Stage.added, hstack]

/-- The services are told of the end of a thread just where its destruction begins; every other
round is about a thread that runs, or about none. -/
theorem Leaves.rounds (h : Leaves e event todo e')
    (hevent : ∀ services notification, event ≠ .work (.notify services notification)) :
    (todo.filterMap Work.round?).filterMap Notification.endOf? = (event.ends? e).toList ∧
      ∀ notification ∈ todo.filterMap Work.round?, ∀ id, notification.thread? = some id →
        e'.phase? id = some .running ∨ event.ends? e = some id := by
  have brought : ∀ {todo : List (Work σ)}, event.IsOrdinary e → e'.Brings todo →
      (todo.filterMap Work.round?).filterMap Notification.endOf? = (event.ends? e).toList ∧
      ∀ notification ∈ todo.filterMap Work.round?, ∀ id, notification.thread? = some id →
        e'.phase? id = some .running ∨ event.ends? e = some id := by
    intro todo hordinary hbrings
    obtain ⟨hends, hrunning⟩ := hbrings.rounds
    rw [hends, hordinary.ends]
    refine ⟨rfl, ?_⟩
    intro notification hround id hthread
    exact .inl (hrunning notification hround id hthread)
  cases h with
  | brings hordinary hbrings => exact brought hordinary hbrings
  | @code work next todo e' hordinary hcode hcalm htells hbrings =>
    have hsame : (todo ++ [next]).filterMap Work.round? = todo.filterMap Work.round? := by
      simp [Work.round?_of_isCode hcode]
    rw [hsame]
    exact brought hordinary hbrings
  | round => exact absurd rfl (hevent _ _)
  | @interrupted work next e' hwork hnext =>
    have hnone : next.toList.filterMap Work.round? = [] := by
      rw [List.filterMap_eq_nil_iff]
      intro w hw
      exact Work.round?_of_interrupts (hnext w (Option.mem_toList.1 hw))
    have hends : (Event.work work).ends? e = none := by
      cases work <;> first | rfl | exact hwork.elim
    rw [hnone, hends]
    simp
  | @ending id e' hrunning =>
    have hends : (Event.work (.destroy id) : Event σ).ends? e = some id :=
      Event.ends?_eq_some_iff.2 ⟨rfl, hrunning⟩
    rw [hends]
    constructor
    · rfl
    · intro notification hround other hthread
      simp only [Work.round?, List.filterMap_cons, List.filterMap_nil, List.mem_singleton]
        at hround
      subst hround
      exact .inr hthread
  | @cleared id aborted e' =>
    rcases aborted with _ | script <;> simp [Work.round?, Event.ends?]

/-- A service is called only in the course of a round. -/
theorem Leaves.calls (h : Leaves e event todo e') {work : Work σ} (hwork : work ∈ todo)
    {notification : Notification} (hcalls : work.calls? = some notification) :
    ∃ item, event = .work item ∧ item.tells? = some notification := by
  have uninvolved : ¬ work.Uninvolved := by
    intro huninvolved
    cases huninvolved.calls.symm.trans hcalls
  cases h with
  | brings hevent hbrings => exact absurd (hbrings.uninvolved work hwork) uninvolved
  | @code item next todo e' hevent hcode hcalm htells hbrings =>
    rcases List.mem_append.1 hwork with hwork | hwork
    · exact absurd (hbrings.uninvolved work hwork) uninvolved
    · -- code that goes on goes on with its round
      rw [List.mem_singleton.1 hwork] at hcalls
      refine ⟨item, rfl, ?_⟩
      rw [← htells]
      cases next <;> first | exact hcalls | cases hcalls
  | round =>
    simp only [List.mem_cons, List.not_mem_nil, or_false] at hwork
    rcases hwork with rfl | rfl
    · exact ⟨_, rfl, hcalls⟩
    · cases hcalls
  | @interrupted item next e' hitem hnext =>
    have hinterrupts := hnext work (Option.mem_toList.1 hwork)
    exact absurd (Work.uninvolved_of_interrupts hinterrupts) uninvolved
  | ending hrunning =>
    simp only [List.mem_cons, List.not_mem_nil, or_false] at hwork
    rcases hwork with rfl | rfl <;> cases hcalls
  | @cleared id aborted e' =>
    simp only [List.mem_append, Option.mem_toList, Option.map_eq_some_iff, List.mem_singleton]
      at hwork
    rcases hwork with ⟨script, -, rfl⟩ | rfl <;> cases hcalls

/-- The services are told of the end of a thread just where its destruction begins, and of nothing
about a thread that is gone. -/
theorem Orderly.begins (ho : Orderly m) (h : Step plugins m event m')
    (hquiet : plugins.AbortQuietly) (hn : m.engine.Numbered) :
    (Stage.begins ⟨m, event, m'⟩).filterMap Notification.endOf? =
        (event.ends? m.engine).toList ∧
      ∀ notification ∈ Stage.begins ⟨m, event, m'⟩, ∀ id, notification.thread? = some id →
        m.engine.phase? id ≠ some .destroyed := by
  obtain ⟨todo, hstack, hleaves⟩ := h.leaves hquiet hn ho.stacked.ready
  by_cases hnotify : ∃ services notification, event = .work (.notify services notification)
  · -- a round that goes on
    obtain ⟨services, notification, rfl⟩ := hnotify
    refine ⟨rfl, ?_⟩
    intro notification hmem
    cases hmem
  · have hevent : ∀ services notification, event ≠ .work (.notify services notification) := by
      intro services notification heq
      exact hnotify ⟨services, notification, heq⟩
    have hbegins : Stage.begins ⟨m, event, m'⟩ = todo.filterMap Work.round? := by
      rw [← added_eq event hstack]
      unfold Stage.begins
      split
      next services notification heq => exact absurd heq (hevent _ _)
      next => rfl
    obtain ⟨hends, hrunning⟩ := hleaves.rounds hevent
    rw [hbegins]
    refine ⟨hends, ?_⟩
    intro notification hround id hthread hgone
    rcases hrunning notification hround id hthread with hafter | hends
    · cases h.ages hn id with
      | same _ _ hphase => cases (hphase.trans hgone).symm.trans hafter
      | born hnone _ => cases hnone.symm.trans hgone
      | ending hends _ => cases (Event.ends?_eq_some_iff.1 hends).2.symm.trans hgone
      | cleared _ hphase => cases hphase.symm.trans hafter
    · cases (Event.ends?_eq_some_iff.1 hends).2.symm.trans hgone

/-! ## The account -/

/-- A thread that does not run any more. -/
def Terminated (m : Machine σ) (id : ThreadId) : Prop :=
  ∃ t, m.engine.thread? id = some t ∧ t.phase ≠ .running

theorem terminated_iff :
    m.Terminated id ↔ ∃ phase, m.engine.phase? id = some phase ∧ phase ≠ .running := by
  constructor
  · rintro ⟨t, ht, hphase⟩
    exact ⟨t.phase, Engine.phase?_eq ht, hphase⟩
  · rintro ⟨phase, hphase, hne⟩
    obtain ⟨t, ht, rfl⟩ := Engine.phase?_eq_some_iff.1 hphase
    exact ⟨t, ht, hne⟩

/-- One destruction succeeds for every terminated thread, and one round is begun. -/
structure Account (stages : List (Stage σ)) (m : Machine σ) : Prop where
  /-- The ends that were told of are those that a call brought about, in the same order. -/
  told : endings stages = destructions stages
  /-- No thread was destroyed twice. -/
  once : (destructions stages).Nodup
  /-- Just the terminated threads were destroyed. -/
  terminated : ∀ id, id ∈ destructions stages ↔ m.Terminated id

/-- Besides those that were terminated before, the thread whose destruction begins is. -/
theorem Step.terminated (h : Step plugins m event m') (hn : m.engine.Numbered) (ho : Orderly m)
    (id : ThreadId) :
    m'.Terminated id ↔ m.Terminated id ∨ event.ends? m.engine = some id := by
  simp only [terminated_iff]
  cases h.ages hn id with
  | same hends hclears hphase =>
    rw [hphase]
    constructor
    · exact .inl
    · rintro (hterminated | hmem)
      · exact hterminated
      · exact absurd hmem hends
  | born hnone hafter =>
    rw [hnone, hafter]
    constructor
    · rintro ⟨phase, ⟨⟩, hne⟩
      exact absurd rfl hne
    · rintro (⟨phase, hphase, hne⟩ | hends)
      · cases hphase
      · cases hnone.symm.trans (Event.ends?_eq_some_iff.1 hends).2
  | ending hends hafter =>
    constructor
    · intro _
      exact .inr hends
    · intro _
      exact ⟨_, hafter, by simp⟩
  | cleared hclears hafter =>
    constructor
    · intro _
      exact .inl ⟨_, ho.destroying_of_clears h hclears, by simp⟩
    · intro _
      exact ⟨_, hafter, by simp⟩

theorem Account.step {stages : List (Stage σ)} (ha : Account stages m) (ho : Orderly m)
    (h : Step plugins m event m') (hquiet : plugins.AbortQuietly) (hn : m.engine.Numbered) :
    Account (stages ++ [⟨m, event, m'⟩]) m' := by
  have hdestructions : destructions (stages ++ [⟨m, event, m'⟩]) =
      destructions stages ++ (event.ends? m.engine).toList := filterMap_snoc _ _ _
  constructor
  · have hbegins := (ho.begins h hquiet hn).1
    rw [hdestructions, ← ha.told, ← hbegins]
    simp [endings, List.flatMap_append]
  · rw [hdestructions]
    rcases hends : event.ends? m.engine with _ | id
    · simpa using ha.once
    · -- the thread ran until now, so no call destroyed it before
      rw [List.nodup_append]
      refine ⟨ha.once, by simp, ?_⟩
      intro other hother new hnew
      have hid : new = id := by simpa using hnew
      rintro rfl
      obtain ⟨t, ht, hne⟩ := (ha.terminated _).1 hother
      have hrunning := (Event.ends?_eq_some_iff.1 hends).2
      rw [← hid, Engine.phase?_eq ht, Option.some.injEq] at hrunning
      exact hne hrunning
  · intro id
    rw [hdestructions, List.mem_append, Option.mem_toList, ha.terminated, h.terminated hn ho]

theorem Run.account {host : σ} {config : CoreConfig} {stages : List (Stage σ)}
    (h : Run plugins (opened host config) stages m) (hquiet : plugins.AbortQuietly) :
    Account stages m := by
  induction h with
  | start =>
    constructor
    · rfl
    · exact List.nodup_nil
    · intro id
      constructor
      · intro hmem
        cases hmem
      · rintro ⟨t, ht, -⟩
        simp [opened, Engine.new, Engine.thread?] at ht
  | step hrun hstep ih =>
    exact ih.step (hrun.orderly hquiet) hstep hquiet hrun.invariant.numbered

/-! ## Lives -/

/-- What one step can do to the life of a thread. -/
structure Lives (id : ThreadId) (s : Stage σ) : Prop where
  /-- A thread comes into being on a request that replies its number, and runs. -/
  born : s.before.engine.phase? id = none → s.after.engine.phase? id ≠ none →
    s.after.engine.phase? id = some .running ∧ ∃ overrides,
      s.event.asks? = some (.core (.createThread overrides)) ∧
      (s.before.engine.answer (.core (.createThread overrides))).reply = some (.ok id)
  /-- Such a reply is never given in vain. -/
  granted : ∀ overrides, s.event.asks? = some (.core (.createThread overrides)) →
    (s.before.engine.answer (.core (.createThread overrides))).reply = some (.ok id) →
    s.before.engine.phase? id = none ∧ s.after.engine.phase? id = some .running
  /-- The phase stays or moves on, and the thread is never forgotten. -/
  next : ∀ phase, s.before.engine.phase? id = some phase →
    ∃ phase', s.after.engine.phase? id = some phase' ∧ phase.Next phase'
  /-- A request to destroy it is granted just while it runs, and then comes next. -/
  asked : s.event.asks? = some (.destroy id) →
    ((s.before.engine.answer (.destroy id)).reply.isOk = true ↔
      s.before.engine.phase? id = some .running) ∧
    (s.before.engine.phase? id = some .running →
      s.after.engine.phase? id = some .running ∧ ∃ rest, s.after.stack = .destroy id :: rest)
  /-- A call that succeeds has the services told, and takes nothing away before. -/
  begun : s.destroyed? = some id → ∃ t t' rest, s.before.engine.thread? id = some t ∧
    s.after.engine.thread? id = some t' ∧ t'.phase = .destroying ∧ t'.vars = t.vars ∧
    s.after.stack = .notify t.services (.willDestroy id) :: .clear id :: rest
  /-- The services hear of the end before anything is taken away. -/
  heard : ∀ work ∈ s.before.stack, work.tells? = some (.willDestroy id) →
    s.before.engine.phase? id = some .destroying
  /-- Meanwhile only an assignment changes the variables. -/
  readable : ∀ t t', s.before.engine.thread? id = some t → s.after.engine.thread? id = some t' →
    t.phase = .destroying → t'.phase = .destroying → t'.vars = t.vars ∨
      ∃ name value, s.event.asks? = some (.setVar id name value) ∧
        t'.vars = (t.setVar name value).vars
  /-- A service is called only in the course of a round. -/
  called : ∀ work ∈ s.added, ∀ notification, work.calls? = some notification →
    ∃ item, s.event = .work item ∧ item.tells? = some notification
  /-- Nothing changes a thread that is gone, and no round about it is begun. -/
  gone : ∀ t, s.before.engine.thread? id = some t → t.phase = .destroyed →
    (∃ t', s.after.engine.thread? id = some t' ∧ t.Agrees t') ∧
      ∀ notification ∈ s.begins, notification.thread? ≠ some id

/-- A step that serves a request leaves what the request leaves. -/
theorem Step.answers (h : Step plugins m event m') {query : Query}
    (hasks : event.asks? = some query) :
    m'.engine = (m.engine.answer query).engine ∧
      ∃ rest, m'.stack = (m.engine.answer query).todo ++ rest := by
  cases h with
  | @work e work rest =>
    cases work with
    | script context code =>
      cases code with
      | ask _ _ =>
        cases hasks
        exact ⟨rfl, _, List.append_assoc _ _ _⟩
      | _ => cases hasks
    | hook notification code =>
      cases code with
      | ask _ _ =>
        cases hasks
        exact ⟨rfl, _, List.append_assoc _ _ _⟩
      | _ => cases hasks
    | abortHook context code =>
      cases code with
      | ask _ _ =>
        cases hasks
        exact ⟨rfl, _, List.append_assoc _ _ _⟩
      | _ => cases hasks
    | _ => cases hasks
  | ask query =>
    cases hasks
    exact ⟨rfl, [], rfl⟩
  | _ => cases hasks

theorem Orderly.born (ho : Orderly m) (h : Step plugins m event m') (hn : m.engine.Numbered)
    (hbefore : m.engine.phase? id = none) (hafter : m'.engine.phase? id ≠ none) :
    m'.engine.phase? id = some .running ∧ ∃ overrides,
      event.asks? = some (.core (.createThread overrides)) ∧
      (m.engine.answer (.core (.createThread overrides))).reply = some (.ok id) := by
  have hrunning : m'.engine.phase? id = some .running := by
    cases h.ages hn id with
    | same hends hclears hphase => exact absurd (hphase.trans hbefore) hafter
    | born hnone hphase => exact hphase
    | ending hends hphase => cases hbefore.symm.trans (Event.ends?_eq_some_iff.1 hends).2
    | cleared hclears hphase => cases hbefore.symm.trans (ho.destroying_of_clears h hclears)
  refine ⟨hrunning, ?_⟩
  obtain ⟨t', ht', -⟩ := Engine.phase?_eq_some_iff.1 hrunning
  have hle := thread?_eq_none_iff.1 (Engine.phase?_eq_none_iff.1 hbefore)
  have hlt := Engine.lt_of_thread? ht'
  cases h.enrols with
  | same hevent hroll =>
    have hcount : m'.engine.threads.length = m.engine.threads.length := congrArg Prod.snd hroll
    omega
  | @created overrides hasks hreply hroll =>
    have hcount : m'.engine.threads.length = m.engine.threads.length + 1 := congrArg Prod.snd hroll
    have hid : m.engine.threads.length = id := by
      show @Eq Nat _ id
      omega
    rw [hid] at hreply
    exact ⟨overrides, hasks, hreply⟩
  | released hevent hroll =>
    have hcount : m'.engine.threads.length = m.engine.threads.length := congrArg Prod.snd hroll
    omega

theorem Step.granted (h : Step plugins m event m') {overrides : Option ThreadConfig}
    (hasks : event.asks? = some (.core (.createThread overrides)))
    (hreply : (m.engine.answer (.core (.createThread overrides))).reply = some (.ok id)) :
    m.engine.phase? id = none ∧ m'.engine.phase? id = some .running := by
  obtain ⟨hengine, -⟩ := h.answers hasks
  rw [hengine]
  by_cases halive : m.engine.alive = true
  · simp only [Engine.answer, halive, if_true, Option.some.injEq] at hreply ⊢
    rcases Engine.createThread_cases (e := m.engine) overrides with
      ⟨error, hrefused, -⟩ | ⟨hgranted, -, -, -, t, ht, hphase, -⟩
    · cases hrefused.symm.trans hreply
    · cases hgranted.symm.trans hreply
      constructor
      · exact Engine.phase?_eq_none_iff.2 (thread?_eq_none_iff.2 (Nat.le_refl _))
      · exact (Engine.phase?_eq ht).trans (congrArg some hphase)
  · simp [Engine.answer, halive, Engine.respond] at hreply

theorem Step.asked_to_destroy (h : Step plugins m event m')
    (hasks : event.asks? = some (.destroy id)) :
    ((m.engine.answer (.destroy id)).reply.isOk = true ↔
      m.engine.phase? id = some .running) ∧
    (m.engine.phase? id = some .running →
      m'.engine.phase? id = some .running ∧ ∃ rest, m'.stack = .destroy id :: rest) := by
  obtain ⟨hengine, rest, hstack⟩ := h.answers hasks
  rw [hengine, hstack, ← Engine.look_isRunning_iff]
  by_cases hrunning : m.engine.look id false (·.isRunning) = true
  · have hanswer : m.engine.answer (.destroy id) = ⟨.ok (), [.destroy id], m.engine⟩ := by
      simp [Engine.answer, Engine.destroyThread, hrunning]
    rw [hanswer]
    refine ⟨⟨fun _ => hrunning, fun _ => rfl⟩, ?_⟩
    intro _
    exact ⟨Engine.look_isRunning_iff.1 hrunning, rest, rfl⟩
  · have hanswer : m.engine.answer (.destroy id) = m.engine.respond (.error .notRunning) := by
      simp [Engine.answer, Engine.destroyThread, hrunning]
    rw [hanswer]
    refine ⟨⟨fun h => absurd h Bool.false_ne_true, fun h => absurd h hrunning⟩, ?_⟩
    intro h
    exact absurd h hrunning

theorem Affects.readable {move : Move} (h : Affects id m event m' t move t')
    (hbefore : t.phase = .destroying) (hafter : t'.phase = .destroying) :
    t'.vars = t.vars ∨ ∃ name value, event.asks? = some (.setVar id name value) ∧
      t'.vars = (t.setVar name value).vars := by
  cases h with
  | still hagree => exact .inl hagree.vars.symm
  | assigned hagree hasks => exact .inr ⟨_, _, hasks, hagree.vars.symm⟩
  | resumed hprep => cases hprep.phase.1.symm.trans hbefore
  | executed hprep => cases hprep.phase.1.symm.trans hbefore
  | completed hid hprep => cases hprep.phase.1.symm.trans hbefore
  | failed hid hcurrent => cases (ThreadState.isCurrent_iff.1 hcurrent).1.symm.trans hbefore
  | destroying hphase => cases hphase.symm.trans hbefore
  | cleared hagree => cases hagree.phase.trans hafter

theorem Step.begun (h : Step plugins m event m') (hn : m.engine.Numbered)
    (hends : event.ends? m.engine = some id) :
    ∃ t t' rest, m.engine.thread? id = some t ∧ m'.engine.thread? id = some t' ∧
      t'.phase = .destroying ∧ t'.vars = t.vars ∧
      m'.stack = .notify t.services (.willDestroy id) :: .clear id :: rest := by
  obtain ⟨-, hrunning⟩ := Event.ends?_eq_some_iff.1 hends
  obtain ⟨t, ht, -⟩ := Engine.phase?_eq_some_iff.1 hrunning
  obtain ⟨t', ht', haffects⟩ := h.affects hn ht
  rw [moveOf_of_ends hends ht] at haffects
  cases haffects with
  | destroying hphase hagree hbefore hafter =>
    exact ⟨t, t', _, ht, ht', hagree.phase.symm, hagree.vars.symm, hafter⟩

theorem Guarded.mem {stack : List (Work σ)} (h : Guarded stack) {work : Work σ}
    (hwork : work ∈ stack) (htells : work.tells? = some (.willDestroy id)) :
    id ∈ stack.filterMap Work.clears? := by
  induction stack with
  | nil => cases hwork
  | cons first rest ih =>
    have hrest : id ∈ rest.filterMap Work.clears? := by
      rcases List.mem_cons.1 hwork with rfl | hwork
      · exact h.1 id htells
      · exact ih h.2 hwork
    obtain ⟨next, hnext, hclears⟩ := List.mem_filterMap.1 hrest
    exact List.mem_filterMap.2 ⟨next, List.mem_cons_of_mem _ hnext, hclears⟩

theorem Orderly.lives (ho : Orderly m) (h : Step plugins m event m')
    (hquiet : plugins.AbortQuietly) (hn : m.engine.Numbered) (id : ThreadId) :
    Lives id ⟨m, event, m'⟩ where
  born := ho.born h hn
  granted := fun overrides hasks hreply => h.granted hasks hreply
  next := by
    intro phase hphase
    cases h.ages hn id with
    | same hends hclears hsame => exact ⟨phase, hsame.trans hphase, .same phase⟩
    | born hnone hafter => cases hnone.symm.trans hphase
    | ending hends hafter =>
      cases (Event.ends?_eq_some_iff.1 hends).2.symm.trans hphase
      exact ⟨_, hafter, .destroying⟩
    | cleared hclears hafter =>
      cases (ho.destroying_of_clears h hclears).symm.trans hphase
      exact ⟨_, hafter, .destroyed⟩
  asked := h.asked_to_destroy
  begun := h.begun hn
  heard := by
    intro work hwork htells
    rw [← ho.destroying]
    exact ho.guarded.mem hwork htells
  readable := by
    intro t t' ht ht' hbefore hafter
    obtain ⟨s, hs, haffects⟩ := h.affects hn ht
    cases hs.symm.trans ht'
    exact haffects.readable hbefore hafter
  called := by
    obtain ⟨todo, hstack, hleaves⟩ := h.leaves hquiet hn ho.stacked.ready
    rw [added_eq event hstack]
    intro work hwork notification hcalls
    exact hleaves.calls hwork hcalls
  gone := by
    intro t ht hgone
    have hphase : m.engine.phase? id = some .destroyed := by rw [Engine.phase?_eq ht, hgone]
    have hclears : event.clears? ≠ some id := by
      intro hclears
      cases (ho.destroying_of_clears h hclears).symm.trans hphase
    obtain ⟨t', ht', haffects⟩ := h.affects hn ht
    constructor
    · exact ⟨t', ht', haffects.agrees_of_destroyed h hclears hgone⟩
    · intro notification hround hthread
      exact (ho.begins h hquiet hn).2 notification hround id hthread hphase

/-- A hook, a script or an outside caller can look at the engine. -/
def CanLook (m : Machine σ) : Prop := ∀ work ∈ m.stack.head?, work.looks = true

/-- Whoever can look finds the threads that exist and are not gone, the oldest first. -/
theorem Orderly.active_of_canLook (ho : Orderly m) (hlook : m.CanLook) :
    m.engine.active = (List.range m.engine.threads.length).filter
      (m.engine.phase? · ≠ some .destroyed) := by
  have hcalm : ∀ work ∈ m.stack, work.Calm := by
    have hstacked := ho.stacked
    revert hstacked hlook
    unfold CanLook
    generalize m.stack = stack
    intro hlook hstacked
    cases hstacked with
    | calm hcalm => exact hcalm
    | due hdue hcalm =>
      exact absurd (Work.calm_of_looks (hlook _ rfl)) (Work.not_calm_of_due hdue)
    | interrupted hwork hdue hcalm =>
      exact absurd (Work.calm_of_looks (hlook _ rfl)) (Work.not_calm_of_interrupts hwork)
  have hnone : m.releasing = [] := by
    rw [releasing, List.filterMap_eq_nil_iff]
    intro work hwork
    exact Work.releases?_of_calm (hcalm work hwork)
  rw [ho.active]
  apply List.filter_congr
  intro id _
  simp [Lists, hnone]

/-- A thread terminates once and for all, and whoever can look finds it active just until then. -/
theorem Run.terminates_once {host : σ} {config : CoreConfig} {stages : List (Stage σ)}
    (h : Run plugins (opened host config) stages m) (hquiet : plugins.AbortQuietly) :
    (∀ s ∈ stages, ∀ id, Lives id s) ∧ Account stages m ∧
      (∀ id t, m.engine.thread? id = some t → t.Bare) ∧
      (m.CanLook → m.engine.active = (List.range m.engine.threads.length).filter
        (m.engine.phase? · ≠ some .destroyed)) := by
  refine ⟨?_, h.account hquiet, ?_, ?_⟩
  · intro s hs id
    obtain ⟨earlier, hrun, hstep⟩ := h.mem hs
    exact (hrun.orderly hquiet).lives hstep hquiet hrun.invariant.numbered id
  · intro id t ht
    exact h.bare ht
  · exact (h.orderly hquiet).active_of_canLook

/-! ## A small run -/

/-- Scripts that end at once, and services that destroy every thread that they hear of. -/
def zealousPlugins : Plugins Unit where
  script _ := ⟨fun _ => .pure (.ok ()), fun _ => .pure ()⟩
  service _ notification :=
    match notification.thread? with
    | some id => .ask (.destroy id) fun _ => .pure (.ok ())
    | none => .pure (.ok ())

/-- An engine with one script, one such service and one thread, after all tasks have run. -/
def zealousEnd : Machine Unit :=
  let scripted :=
    ((opened () sampleConfig).ask (.core (.registerScript "a" ⟨"a", some [], "a"⟩))).2
  let served := (scripted.ask (.core (.registerService 0))).2
  (served.ask (.core (.createThread none))).2.runTasks zealousPlugins 40

theorem exists_run_zealous :
    ∃ stages, Run zealousPlugins (opened () sampleConfig) stages zealousEnd := by
  have hscripted := (.start : Run zealousPlugins (opened () sampleConfig) [] _).step
    (.ask (.core (.registerScript "a" ⟨"a", some [], "a"⟩)))
  have hserved := hscripted.step (.ask (.core (.registerService 0)))
  have hcreated := hserved.step (.ask (.core (.createThread none)))
  obtain ⟨more, hrun⟩ := hcreated.runTasks 40
  exact ⟨_, hrun⟩

/-- The service destroys the thread on hearing of its creation, and tries again on hearing of its
end; one call succeeds, and the thread is gone before its first run is due. -/
theorem Run.terminates_once_zealous :
    ∃ stages, Run zealousPlugins (opened () sampleConfig) stages zealousEnd ∧
      zealousPlugins.AbortQuietly ∧ zealousEnd.engine.phase? 0 = some .destroyed ∧
      0 ∈ destructions stages ∧ endings stages = destructions stages ∧
      (destructions stages).Nodup ∧ zealousEnd.engine.active = [] := by
  have hquiet : zealousPlugins.AbortQuietly := fun _ _ => .pure ()
  have hphase : zealousEnd.engine.phase? 0 = some .destroyed := by decide
  obtain ⟨stages, hrun⟩ := exists_run_zealous
  obtain ⟨-, haccount, -, hactive⟩ := Run.terminates_once hrun hquiet
  refine ⟨stages, hrun, hquiet, hphase, ?_, haccount.told, haccount.once, ?_⟩
  · rw [haccount.terminated, terminated_iff]
    exact ⟨_, hphase, by simp⟩
  · have hlook : zealousEnd.CanLook := by
      intro work hwork
      cases hwork
    rw [hactive hlook]
    decide

end Machine
end SentenceEngine
