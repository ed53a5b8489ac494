import SentenceEngine.Proofs.Retirement
import SentenceEngine.Proofs.Succession

/-!
# Destructions on the stack

A thread runs, then its services are told of its end, then everything is taken away from it. What
is still to be done of this stands on the stack: below the services that are told there is the item
that takes everything away, once for each thread that is being destroyed, and what is done first
finds its thread in the phase that it was meant for. A thread leaves the active ones before any
script or service runs again.

* `Machine.Ages`, `Machine.Step.ages`: what a step does to the phase of a thread.
* `Machine.Orderly`: what the stack and the list of active threads say about the threads.
* `Machine.Run.orderly`: the machine is in order in every state of a run.
-/

namespace SentenceEngine

variable {σ : Type}

namespace Work

/-- The notification that a service is called with. -/
def calls? : Work σ → Option Notification
  | .hook notification _ => some notification
  | _ => none

end Work

namespace Machine

variable {plugins : Plugins σ} {m m' : Machine σ} {event : Event σ} {id : ThreadId}
  {t t' : ThreadState} {e e' : Engine σ} {todo rest stack : List (Work σ)}

/-! ## Phases -/

/-- What a step does to the phase of a thread. -/
inductive Ages (id : ThreadId) (e : Engine σ) (event : Event σ) (e' : Engine σ) : Prop
  | same (hends : event.ends? e ≠ some id) (hclears : event.clears? = some id → e.phase? id = none)
      (hphase : e'.phase? id = e.phase? id)
  | born (hbefore : e.phase? id = none) (hafter : e'.phase? id = some .running)
  | ending (hends : event.ends? e = some id) (hafter : e'.phase? id = some .destroying)
  | cleared (hclears : event.clears? = some id) (hafter : e'.phase? id = some .destroyed)

theorem moveOf_of_ends (hends : event.ends? e = some id) (ht : e.thread? id = some t) :
    event.moveOf id t = .destroying := by
  obtain ⟨rfl, hrunning⟩ := Event.ends?_eq_some_iff.1 hends
  rw [Engine.phase?_eq ht, Option.some.injEq] at hrunning
  simp [Event.moveOf, Work.moveOf, ThreadState.isRunning_iff, hrunning]

theorem moveOf_of_clears (hclears : event.clears? = some id) :
    event.moveOf id t = .cleared := by
  rw [Event.clears?_eq_some_iff.1 hclears]
  simp [Event.moveOf, Work.moveOf]

theorem Affects.ages {move : Move} (h : Affects id m event m' t move t')
    (hstep : Step plugins m event m') (hmove : event.moveOf id t = move)
    (ht : m.engine.thread? id = some t) (ht' : m'.engine.thread? id = some t') :
    Ages id m.engine event m'.engine := by
  -- every move but the two halves of a destruction leaves the phase as it is
  have stays : t'.phase = t.phase → move ≠ .destroying → move ≠ .cleared →
      Ages id m.engine event m'.engine := by
    intro hphase hdestroying hcleared
    constructor
    · intro hends
      exact hdestroying (hmove.symm.trans (moveOf_of_ends hends ht))
    · intro hclears
      exact absurd (hmove.symm.trans (moveOf_of_clears hclears)) hcleared
    · rw [Engine.phase?_eq ht, Engine.phase?_eq ht', hphase]
  cases h with
  | still hagree => exact stays hagree.phase.symm (by simp) (by simp)
  | assigned hagree => exact stays hagree.of_setVar.phase.symm (by simp) (by simp)
  | resumed hprep hagree =>
    exact stays (hprep.kin_run.phase.trans hagree.phase).symm (by simp) (by simp)
  | executed hprep hagree =>
    exact stays (hprep.kin_run.phase.trans hagree.phase).symm (by simp) (by simp)
  | completed hid hprep hagree =>
    exact stays (hprep.kin_run.phase.trans hagree.phase).symm (by simp) (by simp)
  | failed hid hcurrent hagree => exact stays hagree.phase.symm (by simp) (by simp)
  | destroying hphase hagree hbefore =>
    apply Ages.ending
    · rw [Event.ends?_eq_some_iff]
      constructor
      · exact hstep.event_of_stack hbefore
      · rw [Engine.phase?_eq ht, hphase]
    · rw [Engine.phase?_eq ht', ← hagree.phase]
  | cleared hagree hbefore =>
    apply Ages.cleared
    · rw [Event.clears?_eq_some_iff]
      exact hstep.event_of_stack hbefore
    · rw [Engine.phase?_eq ht', ← hagree.phase]
      rfl

/-- Every thread is as old as before, or one phase older. -/
theorem Step.ages (h : Step plugins m event m') (hn : m.engine.Numbered) (id : ThreadId) :
    Ages id m.engine event m'.engine := by
  rcases ht : m.engine.thread? id with _ | t
  · have hbefore := Engine.phase?_eq_none_iff.2 ht
    rcases ht' : m'.engine.thread? id with _ | t'
    · constructor
      · intro hends
        have hrunning := (Event.ends?_eq_some_iff.1 hends).2
        rw [hbefore] at hrunning
        cases hrunning
      · intro _
        exact hbefore
      · rw [hbefore, Engine.phase?_eq_none_iff.2 ht']
    · -- a new thread runs
      obtain ⟨overrides, program, services, hcreates⟩ := h.creates hn ht ht'
      obtain ⟨start, -, -, rfl⟩ := ThreadState.create_eq_ok hcreates.create
      exact .born hbefore (Engine.phase?_eq ht')
  · obtain ⟨t', ht', haffects⟩ := h.affects hn ht
    exact haffects.ages h rfl ht ht'

/-! ## What the stack says -/

/-- The threads that everything is still to be taken away from. -/
def clearing (m : Machine σ) : List ThreadId := m.stack.filterMap Work.clears?

/-- The threads that are still to be taken out of the active ones. -/
def releasing (m : Machine σ) : List ThreadId := m.stack.filterMap Work.releases?

/-- Work below what is done first is calm, and what is done first comes in time. -/
inductive Stacked (e : Engine σ) : List (Work σ) → Prop
  | calm {stack : List (Work σ)} (hcalm : ∀ work ∈ stack, work.Calm) : Stacked e stack
  | due {work : Work σ} {rest : List (Work σ)} (hdue : work.Due e)
      (hcalm : ∀ work ∈ rest, work.Calm) : Stacked e (work :: rest)
  | interrupted {work next : Work σ} {rest : List (Work σ)} (hwork : work.Interrupts)
      (hdue : next.Due e) (hcalm : ∀ work ∈ rest, work.Calm) : Stacked e (work :: next :: rest)

theorem stacked_of_calm (htodo : ∀ work ∈ todo, work.Calm) (hrest : ∀ work ∈ rest, work.Calm) :
    Stacked e (todo ++ rest) := by
  apply Stacked.calm
  intro work hwork
  rcases List.mem_append.1 hwork with hwork | hwork
  · exact htodo work hwork
  · exact hrest work hwork

/-- Below each service that is told of the end of a thread, everything is still to be taken away
from this thread. -/
def Guarded : List (Work σ) → Prop
  | [] => True
  | work :: rest =>
    (∀ id, work.tells? = some (.willDestroy id) → id ∈ rest.filterMap Work.clears?) ∧ Guarded rest

/-- Whether a thread is to be among the active ones. -/
def Lists (m : Machine σ) (id : ThreadId) : Prop :=
  m.engine.phase? id = some .destroyed → id ∈ m.releasing

instance (m : Machine σ) : DecidablePred m.Lists := fun id => by
  unfold Lists
  infer_instance

/-- What the stack and the list of active threads say about the threads. -/
structure Orderly (m : Machine σ) : Prop where
  stacked : Stacked m.engine m.stack
  once : m.clearing.Nodup
  destroying : ∀ id, id ∈ m.clearing ↔ m.engine.phase? id = some .destroying
  guarded : Guarded m.stack
  active : m.engine.active = (List.range m.engine.threads.length).filter (m.Lists ·)

/-! ## What a step leaves to do -/

theorem Step.stack_eq (h : Step plugins m event m') :
    m.stack = event.item?.toList ++ m.stack.tail := by
  cases h <;> rfl

theorem Event.IsOrdinary.ends (h : event.IsOrdinary e) : event.ends? e = none := by
  rcases hends : event.ends? e with _ | id
  · rfl
  · obtain ⟨rfl, hrunning⟩ := Event.ends?_eq_some_iff.1 hends
    exact absurd hrunning h

theorem Event.IsOrdinary.clears (h : event.IsOrdinary e) : event.clears? = none := by
  rcases hclears : event.clears? with _ | id
  · rfl
  · rw [Event.clears?_eq_some_iff.1 hclears] at h
    exact h.elim

theorem Event.IsOrdinary.not_interrupts {work : Work σ} (h : (Event.work work).IsOrdinary e) :
    ¬ work.Interrupts := by
  cases work with
  | abort script => exact h.elim
  | abortHook context code => exact h.elim
  | _ => exact fun h => h

end Machine

/-- Work that has no part in a destruction. -/
structure Work.Uninvolved (work : Work σ) : Prop where
  clears : work.clears? = none
  releases : work.releases? = none
  tells : ∀ id, work.tells? ≠ some (.willDestroy id)
  calls : work.calls? = none

namespace Work

variable {work : Work σ} {todo rest : List (Work σ)}

theorem uninvolved_of_tells (hclears : work.clears? = none) (hreleases : work.releases? = none)
    (htells : work.tells? = none) : work.Uninvolved where
  clears := hclears
  releases := hreleases
  tells := by
    intro id h
    rw [htells] at h
    cases h
  calls := by
    cases work with
    | hook notification code => cases htells
    | _ => rfl

theorem uninvolved_of_isRoutine (h : work.isRoutine = true) : work.Uninvolved := by
  cases work with
  | announce notification =>
    refine ⟨rfl, rfl, ?_, rfl⟩
    rintro id ⟨⟩
    cases h
  | _ => first | exact uninvolved_of_tells rfl rfl rfl | cases h

theorem uninvolved_of_interrupts (h : work.Interrupts) : work.Uninvolved := by
  cases work with
  | abort script => exact uninvolved_of_tells rfl rfl rfl
  | abortHook context code => exact uninvolved_of_tells rfl rfl rfl
  | _ => exact h.elim

theorem not_calm_of_interrupts (h : work.Interrupts) : ¬ work.Calm := by
  cases work with
  | abort script => exact fun h => h
  | abortHook context code => exact fun h => h
  | _ => exact h.elim

theorem not_calm_of_due {e : Engine σ} (h : work.Due e) : ¬ work.Calm := by
  cases work with
  | arrive id arrival => exact fun h => h
  | fail id error => exact fun h => h
  | release id => exact fun h => h
  | _ => exact h.elim

theorem not_due_of_interrupts {e : Engine σ} (h : work.Interrupts) : ¬ work.Due e := by
  cases work with
  | abort script => exact fun h => h
  | abortHook context code => exact fun h => h
  | _ => exact h.elim

theorem releases?_of_calm (h : work.Calm) : work.releases? = none := by
  cases work with
  | release id => exact h.elim
  | _ => rfl

theorem round?_of_isRoutine (h : work.isRoutine = true) : work.round? = none := by
  cases work with
  | notify services notification => cases h
  | _ => rfl

theorem round?_of_interrupts (h : work.Interrupts) : work.round? = none := by
  cases work with
  | notify services notification => exact h.elim
  | _ => rfl

theorem round?_of_isCode (h : work.isCode = true) : work.round? = none := by
  cases work <;> first | rfl | cases h

theorem Uninvolved.round (h : work.Uninvolved) : work.round?.bind Notification.endOf? = none := by
  cases work with
  | notify services notification =>
    cases notification with
    | willDestroy id => exact absurd rfl (h.tells id)
    | _ => rfl
  | _ => rfl

end Work

namespace Engine

variable {e' : Engine σ} {todo rest : List (Work σ)}

theorem advanceWork_cases (id : ThreadId) (advance : Advance) :
    (∃ script, (advanceWork id advance : List (Work σ)) =
      [.abort script, .arrive id advance.arrival]) ∨
    (advanceWork id advance : List (Work σ)) = [.arrive id advance.arrival] := by
  unfold advanceWork
  split
  · exact .inl ⟨_, rfl⟩
  · exact .inr rfl

/-- Newly left work has no part in a destruction. -/
theorem Brings.uninvolved (h : e'.Brings todo) : ∀ work ∈ todo, work.Uninvolved := by
  intro work hwork
  cases h with
  | routine hroutine => exact Work.uninvolved_of_isRoutine (hroutine work hwork)
  | @moved id advance hrunning =>
    rcases advanceWork_cases (σ := σ) id advance with ⟨script, htodo⟩ | htodo
    · rw [htodo] at hwork
      simp only [List.mem_cons, List.not_mem_nil, or_false] at hwork
      rcases hwork with rfl | rfl <;> exact Work.uninvolved_of_tells rfl rfl rfl
    · rw [htodo] at hwork
      rw [List.mem_singleton.1 hwork]
      exact Work.uninvolved_of_tells rfl rfl rfl
  | late =>
    rw [List.mem_singleton.1 hwork]
    exact Work.uninvolved_of_tells rfl rfl rfl
  | failed hrunning =>
    rw [List.mem_singleton.1 hwork]
    exact Work.uninvolved_of_tells rfl rfl rfl
  | told hthread hend hrunning hnext =>
    simp only [List.mem_cons, List.not_mem_nil, or_false] at hwork
    rcases hwork with rfl | rfl
    · refine ⟨rfl, rfl, ?_, rfl⟩
      rintro id ⟨⟩
      cases hend
    · exact Work.uninvolved_of_isRoutine hnext
  | announced hthread =>
    rw [List.mem_singleton.1 hwork]
    refine ⟨rfl, rfl, ?_, rfl⟩
    rintro id ⟨⟩
    cases hthread

/-- Newly left work can stand on top of calm work. -/
theorem Brings.stacked (h : e'.Brings todo) (hrest : ∀ work ∈ rest, work.Calm) :
    Machine.Stacked e' (todo ++ rest) := by
  cases h with
  | routine hroutine =>
    apply Machine.stacked_of_calm _ hrest
    intro work hwork
    exact Work.calm_of_isRoutine (hroutine work hwork)
  | @moved id advance hrunning =>
    have hdue : Work.Due e' (.arrive id advance.arrival) := .inr hrunning
    rcases advanceWork_cases (σ := σ) id advance with ⟨script, htodo⟩ | htodo
    · rw [htodo]
      have hwork : (.abort script : Work σ).Interrupts := trivial
      exact .interrupted hwork hdue hrest
    · rw [htodo]
      exact .due hdue hrest
  | @late id =>
    have hdue : Work.Due e' (.arrive id .idle) := .inl rfl
    exact .due hdue hrest
  | @failed id error hrunning =>
    have hdue : Work.Due e' (.fail id error) := hrunning
    exact .due hdue hrest
  | told hthread hend hrunning hnext =>
    apply Machine.stacked_of_calm _ hrest
    intro work hwork
    simp only [List.mem_cons, List.not_mem_nil, or_false] at hwork
    rcases hwork with rfl | rfl
    · trivial
    · exact Work.calm_of_isRoutine hnext
  | announced hthread =>
    apply Machine.stacked_of_calm _ hrest
    intro work hwork
    rw [List.mem_singleton.1 hwork]
    trivial

end Engine

namespace Machine

variable {plugins : Plugins σ} {m m' : Machine σ} {event : Event σ} {id : ThreadId}
  {t t' : ThreadState} {e e' : Engine σ} {todo rest stack : List (Work σ)}

/-- Outside of a destruction, nothing is left to be taken away or released. -/
theorem Leaves.parts (h : Leaves e event todo e') :
    ((∀ work ∈ todo, work.clears? = none ∧ work.releases? = none) ∧
      event.ends? e = none ∧ event.clears? = none) ∨
    (∃ id, event.ends? e = some id ∧ event.clears? = none ∧
      todo = [.notify (e.servicesOf id) (.willDestroy id), .clear id]) ∨
    ∃ id aborted, event.ends? e = none ∧ event.clears? = some id ∧
      todo = (Option.map Work.abort aborted).toList ++ [.release id] := by
  cases h with
  | brings hevent hbrings =>
    refine .inl ⟨?_, hevent.ends, hevent.clears⟩
    intro work hwork
    have huninvolved := hbrings.uninvolved work hwork
    exact ⟨huninvolved.clears, huninvolved.releases⟩
  | @code work next todo e' hevent hcode hcalm htells hbrings =>
    refine .inl ⟨?_, hevent.ends, hevent.clears⟩
    intro w hw
    rcases List.mem_append.1 hw with hw | hw
    · have huninvolved := hbrings.uninvolved w hw
      exact ⟨huninvolved.clears, huninvolved.releases⟩
    · rw [List.mem_singleton.1 hw]
      cases next <;> first | exact ⟨rfl, rfl⟩ | cases hcode
  | round => exact .inl ⟨by simp [Work.clears?, Work.releases?], rfl, rfl⟩
  | @interrupted work next e' hwork hnext =>
    left
    constructor
    · intro w hw
      have huninvolved := Work.uninvolved_of_interrupts (hnext w (Option.mem_toList.1 hw))
      exact ⟨huninvolved.clears, huninvolved.releases⟩
    · cases work <;> first | exact ⟨rfl, rfl⟩ | exact hwork.elim
  | @ending id e' hrunning =>
    have hends : (Event.work (.destroy id) : Event σ).ends? e = some id :=
      Event.ends?_eq_some_iff.2 ⟨rfl, hrunning⟩
    exact .inr (.inl ⟨id, hends, rfl, rfl⟩)
  | @cleared id aborted => exact .inr (.inr ⟨id, aborted, rfl, rfl, rfl⟩)

/-- A step leaves something to be taken away just from the thread whose destruction it begins. -/
theorem Leaves.clears (h : Leaves e event todo e') :
    todo.filterMap Work.clears? = (event.ends? e).toList := by
  rcases h.parts with ⟨hnone, hends, -⟩ | ⟨id, hends, -, rfl⟩ | ⟨id, aborted, hends, -, rfl⟩
  · rw [hends]
    apply List.filterMap_eq_nil_iff.2
    intro work hwork
    exact (hnone work hwork).1
  · rw [hends]
    rfl
  · rw [hends]
    cases aborted <;> rfl

/-- A step leaves something to be released just where it takes everything away. -/
theorem Leaves.releases (h : Leaves e event todo e') :
    todo.filterMap Work.releases? = event.clears?.toList := by
  rcases h.parts with ⟨hnone, -, hclears⟩ | ⟨id, -, hclears, rfl⟩ | ⟨id, aborted, -, hclears, rfl⟩
  · rw [hclears]
    apply List.filterMap_eq_nil_iff.2
    intro work hwork
    exact (hnone work hwork).2
  · rw [hclears]
    rfl
  · rw [hclears]
    cases aborted <;> rfl

/-! ## The stack -/

/-- The item on top of an orderly stack can be done. -/
theorem Stacked.ready (h : Stacked e stack) : ∀ work ∈ stack.head?, Ready e work := by
  intro work hwork
  cases h with
  | calm hcalm => exact .inl (hcalm work (List.mem_of_head? hwork))
  | due hdue hcalm =>
    cases hwork
    exact .inr (.inl hdue)
  | interrupted hinterrupts hdue hcalm =>
    cases hwork
    exact .inr (.inr hinterrupts)

theorem Stacked.calm_tail (h : Stacked e stack)
    (hnot : ∀ work ∈ stack.head?, ¬ work.Interrupts) : ∀ work ∈ stack.tail, work.Calm := by
  cases h with
  | calm hcalm =>
    intro work hwork
    exact hcalm work (List.mem_of_mem_tail hwork)
  | due hdue hcalm => exact hcalm
  | interrupted hinterrupts hdue hcalm => exact absurd hinterrupts (hnot _ rfl)

theorem Stacked.release (h : Stacked e (.release id :: rest)) :
    e.phase? id = some .destroyed ∧ ∀ work ∈ rest, work.Calm := by
  cases h with
  | calm hcalm => exact absurd (hcalm _ List.mem_cons_self) (fun h => h)
  | due hdue hcalm => exact ⟨hdue, hcalm⟩
  | interrupted hwork => exact hwork.elim

theorem Step.head?_eq (h : Step plugins m event m') : m.stack.head? = event.item? := by
  cases h <;> rfl

/-- Work that is due stays due as long as its thread stays in its phase. -/
theorem due_of_phase? {work : Work σ} (h : work.Due e)
    (hstays : ∀ id phase, e.phase? id = some phase → e'.phase? id = some phase) :
    work.Due e' := by
  cases work with
  | arrive id arrival =>
    rcases h with hidle | hrunning
    · exact .inl hidle
    · exact .inr (hstays _ _ hrunning)
  | fail id error => exact hstays _ _ h
  | release id => exact hstays _ _ h
  | _ => exact h.elim

/-- While a script is told to stop, no thread leaves its phase. -/
theorem Step.phase?_of_interrupts {work : Work σ} {phase : Phase}
    (h : Step plugins m (.work work) m') (hn : m.engine.Numbered) (hwork : work.Interrupts)
    (hphase : m.engine.phase? id = some phase) : m'.engine.phase? id = some phase := by
  cases h.ages hn id with
  | same hends hclears hsame => exact hsame.trans hphase
  | born hbefore hafter => cases hbefore.symm.trans hphase
  | ending hends hafter =>
    cases (Event.ends?_eq_some_iff.1 hends).1
    exact hwork.elim
  | cleared hclears hafter =>
    cases Event.clears?_eq_some_iff.1 hclears
    exact hwork.elim

/-- Where everything is taken away from a thread, its services were told. -/
theorem Orderly.destroying_of_clears (ho : Orderly m) (h : Step plugins m event m')
    (hclears : event.clears? = some id) : m.engine.phase? id = some .destroying := by
  rw [← ho.destroying, clearing, h.stack_eq, Event.clears?_eq_some_iff.1 hclears]
  exact List.mem_cons_self

theorem Orderly.destroyed_of_clears (ho : Orderly m) (h : Step plugins m event m')
    (hn : m.engine.Numbered) (hclears : event.clears? = some id) :
    m'.engine.phase? id = some .destroyed := by
  have hbefore := ho.destroying_of_clears h hclears
  cases h.ages hn id with
  | same hends hnone hphase => cases (hnone hclears).symm.trans hbefore
  | born hnone hafter => cases hnone.symm.trans hbefore
  | ending hends hafter => cases (Event.ends?_eq_some_iff.1 hends).2.symm.trans hbefore
  | cleared hclears hafter => exact hafter

theorem Orderly.stacked_step (ho : Orderly m) (h : Step plugins m event m')
    (hquiet : plugins.AbortQuietly) (hn : m.engine.Numbered) : Stacked m'.engine m'.stack := by
  have hstacked := ho.stacked
  have hready : ∀ work ∈ m.stack.head?, Ready m.engine work := hstacked.ready
  obtain ⟨todo, hstack, hleaves⟩ := h.leaves hquiet hn hready
  have calm_rest : (∀ work ∈ event.item?, ¬ work.Interrupts) →
      ∀ work ∈ m.stack.tail, work.Calm := by
    intro hnot
    apply hstacked.calm_tail
    rw [h.head?_eq]
    exact hnot
  rw [hstack]
  cases hleaves with
  | brings hevent hbrings =>
    apply hbrings.stacked
    apply calm_rest
    intro work hwork
    cases event with
    | work item =>
      cases hwork
      exact hevent.not_interrupts
    | _ => cases hwork
  | code hevent hcode hcalm htells hbrings =>
    rw [List.append_assoc]
    apply hbrings.stacked
    intro work hwork
    rcases List.mem_append.1 hwork with hwork | hwork
    · rwa [List.mem_singleton.1 hwork]
    · apply calm_rest _ work hwork
      rintro item ⟨⟩
      exact hevent.not_interrupts
  | round =>
    apply stacked_of_calm
    · intro work hwork
      simp only [List.mem_cons, List.not_mem_nil, or_false] at hwork
      rcases hwork with rfl | rfl <;> trivial
    · apply calm_rest
      rintro item ⟨⟩
      exact fun h => h
  | @interrupted work next e' hwork hnext =>
    -- below the script that is told to stop there is something that is still due
    have hhead : m.stack.head? = some work := h.head?_eq
    have stays : ∀ id phase, m.engine.phase? id = some phase →
        m'.engine.phase? id = some phase := by
      intro id phase hphase
      exact h.phase?_of_interrupts hn hwork hphase
    revert hstacked hhead
    generalize m.stack = stack
    intro hstacked hhead
    cases hstacked with
    | calm hcalm =>
      exact absurd (hcalm work (List.mem_of_head? hhead)) (Work.not_calm_of_interrupts hwork)
    | due hdue hcalm =>
      cases hhead
      exact absurd hdue (Work.not_due_of_interrupts hwork)
    | interrupted hfirst hdue hcalm =>
      have hdue' := due_of_phase? hdue stays
      cases next with
      | none => exact .due hdue' hcalm
      | some next => exact .interrupted (hnext next rfl) hdue' hcalm
  | @ending id e' hrunning =>
    apply stacked_of_calm
    · intro work hwork
      simp only [List.mem_cons, List.not_mem_nil, or_false] at hwork
      rcases hwork with rfl | rfl <;> trivial
    · apply calm_rest
      rintro item ⟨⟩
      exact fun h => h
  | @cleared id aborted e' =>
    have hdue : Work.Due m'.engine (.release id) := ho.destroyed_of_clears h hn rfl
    have hcalm : ∀ work ∈ m.stack.tail, work.Calm := by
      apply calm_rest
      rintro item ⟨⟩
      exact fun h => h
    cases aborted with
    | none => exact .due hdue hcalm
    | some script =>
      have hwork : (.abort script : Work σ).Interrupts := trivial
      exact .interrupted hwork hdue hcalm

/-! ## Threads on the stack -/

theorem filterMap_item {α : Type} (event : Event σ) (f : Work σ → Option α) :
    event.item?.toList.filterMap f = (event.item?.bind f).toList := by
  rcases event.item? with _ | work
  · rfl
  · cases h : f work <;> simp [h]

theorem Step.clearing_eq (h : Step plugins m event m') :
    m.clearing = event.clears?.toList ++ m.stack.tail.filterMap Work.clears? := by
  have hstack : m.clearing = (event.item?.toList ++ m.stack.tail).filterMap Work.clears? :=
    congrArg _ h.stack_eq
  rw [hstack, List.filterMap_append, filterMap_item]
  rfl

theorem Step.releasing_eq (h : Step plugins m event m') :
    m.releasing = event.releases?.toList ++ m.stack.tail.filterMap Work.releases? := by
  have hstack : m.releasing = (event.item?.toList ++ m.stack.tail).filterMap Work.releases? :=
    congrArg _ h.stack_eq
  rw [hstack, List.filterMap_append, filterMap_item]
  rfl

theorem Leaves.clearing_after (h : Leaves m.engine event todo m'.engine)
    (hstack : m'.stack = todo ++ m.stack.tail) :
    m'.clearing = (event.ends? m.engine).toList ++ m.stack.tail.filterMap Work.clears? := by
  rw [clearing, hstack, List.filterMap_append, h.clears]

theorem Leaves.releasing_after (h : Leaves m.engine event todo m'.engine)
    (hstack : m'.stack = todo ++ m.stack.tail) :
    m'.releasing = event.clears?.toList ++ m.stack.tail.filterMap Work.releases? := by
  rw [releasing, hstack, List.filterMap_append, h.releases]

theorem Orderly.once_step (ho : Orderly m) (h : Step plugins m event m')
    (hleaves : Leaves m.engine event todo m'.engine) (hstack : m'.stack = todo ++ m.stack.tail) :
    m'.clearing.Nodup := by
  have honce := ho.once
  rw [h.clearing_eq] at honce
  have hrest := (List.nodup_append.1 honce).2.1
  rw [hleaves.clearing_after hstack]
  rcases hends : event.ends? m.engine with _ | id
  · exact hrest
  · -- a thread that runs is not waiting for its services
    apply List.nodup_cons.2
    refine ⟨?_, hrest⟩
    intro hmem
    have hrunning := (Event.ends?_eq_some_iff.1 hends).2
    have hdestroying := (ho.destroying id).1 (by
      rw [h.clearing_eq]
      exact List.mem_append_right _ hmem)
    cases hrunning.symm.trans hdestroying

theorem Orderly.destroying_step (ho : Orderly m) (h : Step plugins m event m')
    (hn : m.engine.Numbered) (hleaves : Leaves m.engine event todo m'.engine)
    (hstack : m'.stack = todo ++ m.stack.tail) (id : ThreadId) :
    id ∈ m'.clearing ↔ m'.engine.phase? id = some .destroying := by
  have honce := ho.once
  have hbefore := ho.destroying id
  rw [h.clearing_eq] at honce hbefore
  rw [hleaves.clearing_after hstack]
  simp only [List.mem_append, Option.mem_toList] at hbefore ⊢
  cases h.ages hn id with
  | same hends hclears hphase =>
    rw [hphase, ← hbefore]
    constructor
    · rintro (hmem | hmem)
      · exact absurd hmem hends
      · exact .inr hmem
    · rintro (hmem | hmem)
      · have hdestroying := hbefore.1 (.inl hmem)
        rw [hclears hmem] at hdestroying
        cases hdestroying
      · exact .inr hmem
  | born hnone hafter =>
    rw [hafter]
    constructor
    · rintro (hmem | hmem)
      · have hrunning := (Event.ends?_eq_some_iff.1 hmem).2
        rw [hnone] at hrunning
        cases hrunning
      · have hdestroying := hbefore.1 (.inr hmem)
        rw [hnone] at hdestroying
        cases hdestroying
    · intro hrunning
      cases hrunning
  | ending hends hafter =>
    constructor
    · intro _
      exact hafter
    · intro _
      exact .inl hends
  | cleared hclears hafter =>
    rw [hafter]
    constructor
    · rintro (hmem | hmem)
      · rw [(Event.ends?_eq_some_iff.1 hmem).1] at hclears
        cases hclears
      · -- each thread is to be cleared once only
        rw [hclears] at honce
        exact absurd hmem (List.nodup_cons.1 honce).1
    · intro hdestroyed
      cases hdestroyed

theorem guarded_append (hrest : Guarded rest)
    (htodo : ∀ work ∈ todo, ∀ id, work.tells? ≠ some (.willDestroy id)) :
    Guarded (todo ++ rest) := by
  induction todo with
  | nil => exact hrest
  | cons work todo ih =>
    constructor
    · intro id htells
      exact absurd htells (htodo work List.mem_cons_self id)
    · apply ih
      intro next hnext
      exact htodo next (List.mem_cons_of_mem _ hnext)

theorem Orderly.guarded_step (ho : Orderly m) (h : Step plugins m event m')
    (hleaves : Leaves m.engine event todo m'.engine) (hstack : m'.stack = todo ++ m.stack.tail) :
    Guarded m'.stack := by
  have hguarded := ho.guarded
  rw [h.stack_eq] at hguarded
  have hrest : Guarded m.stack.tail := by
    cases hitem : event.item? with
    | none =>
      rw [hitem] at hguarded
      exact hguarded
    | some work =>
      rw [hitem] at hguarded
      exact hguarded.2
  rw [hstack]
  revert hguarded hrest
  generalize m.stack.tail = rest
  intro hguarded hrest
  cases hleaves with
  | brings hevent hbrings =>
    apply guarded_append hrest
    intro work hwork
    exact (hbrings.uninvolved work hwork).tells
  | code hevent hcode hcalm htells hbrings =>
    rw [List.append_assoc]
    apply guarded_append
    · constructor
      · intro id hid
        rw [htells] at hid
        exact hguarded.1 id hid
      · exact hrest
    · intro work hwork
      exact (hbrings.uninvolved work hwork).tells
  | round =>
    -- the rest of the round is told of the same end
    constructor
    · intro id hid
      exact hguarded.1 id hid
    · exact hguarded
  | interrupted next hwork hnext =>
    apply guarded_append hrest
    intro work hmem
    exact (Work.uninvolved_of_interrupts (hnext work (Option.mem_toList.1 hmem))).tells
  | ending hrunning =>
    constructor
    · rintro id ⟨⟩
      exact List.mem_cons_self
    · constructor
      · rintro id ⟨⟩
      · exact hrest
  | @cleared id aborted e' =>
    apply guarded_append hrest
    intro work hmem
    rcases aborted with _ | script
    · rw [List.mem_singleton.1 hmem]
      simp [Work.tells?]
    · simp only [Option.map_some, Option.toList_some, List.cons_append, List.nil_append,
        List.mem_cons, List.not_mem_nil, or_false] at hmem
      rcases hmem with rfl | rfl <;> simp [Work.tells?]

/-! ## The active threads -/

/-- As long as a thread is not released, it stays on the list or off it. -/
theorem Orderly.lists_step (ho : Orderly m) (h : Step plugins m event m')
    (hn : m.engine.Numbered) (hleaves : Leaves m.engine event todo m'.engine)
    (hstack : m'.stack = todo ++ m.stack.tail) (hevent : event.releases? ≠ some id) :
    m'.Lists id ↔ m.Lists id := by
  have hbefore : id ∈ m.releasing ↔ id ∈ m.stack.tail.filterMap Work.releases? := by
    rw [h.releasing_eq, List.mem_append, Option.mem_toList]
    exact or_iff_right hevent
  have hafter : id ∈ m'.releasing ↔
      event.clears? = some id ∨ id ∈ m.stack.tail.filterMap Work.releases? := by
    rw [hleaves.releasing_after hstack, List.mem_append, Option.mem_toList]
  unfold Lists
  cases h.ages hn id with
  | same hends hclears hphase =>
    rw [hphase, hbefore, hafter]
    constructor
    · intro hlists hdestroyed
      rcases hlists hdestroyed with hmem | hmem
      · cases (hclears hmem).symm.trans hdestroyed
      · exact hmem
    · intro hlists hdestroyed
      exact .inr (hlists hdestroyed)
  | born hnone hphase => simp [hnone, hphase]
  | ending hends hphase =>
    have hrunning := (Event.ends?_eq_some_iff.1 hends).2
    simp [hrunning, hphase]
  | cleared hclears hphase =>
    -- the thread is gone, but it is released before anyone can look
    have hdestroying := ho.destroying_of_clears h hclears
    simp [hdestroying, hafter, hclears]

/-- A thread that is released leaves the list. -/
theorem Orderly.not_lists_of_release (ho : Orderly m) (h : Step plugins m (.work (.release id)) m')
    (hn : m.engine.Numbered) (hleaves : Leaves m.engine (.work (.release id)) todo m'.engine)
    (hstack : m'.stack = todo ++ m.stack.tail) : ¬ m'.Lists id := by
  have hstacked := ho.stacked
  have hmstack : m.stack = .release id :: m.stack.tail := h.stack_eq
  rw [hmstack] at hstacked
  obtain ⟨hdue, hcalm⟩ := hstacked.release
  have hphase : m'.engine.phase? id = some .destroyed := by
    cases h.ages hn id with
    | same hends hclears hphase => exact hphase.trans hdue
    | born hnone hafter => cases hnone.symm.trans hdue
    | ending hends hafter => cases (Event.ends?_eq_some_iff.1 hends).1
    | cleared hclears hafter => exact hafter
  intro hlists
  have hmem := hlists hphase
  rw [hleaves.releasing_after hstack] at hmem
  -- nothing below the top of the stack releases anyone
  obtain ⟨work, hwork, hreleases⟩ := List.mem_filterMap.1 hmem
  rw [Work.releases?_of_calm (hcalm work hwork)] at hreleases
  cases hreleases

theorem Orderly.active_step (ho : Orderly m) (h : Step plugins m event m')
    (hn : m.engine.Numbered) (hleaves : Leaves m.engine event todo m'.engine)
    (hstack : m'.stack = todo ++ m.stack.tail) :
    m'.engine.active = (List.range m'.engine.threads.length).filter (m'.Lists ·) := by
  have kept : event.releases? = none →
      (List.range m.engine.threads.length).filter (m'.Lists ·) = m.engine.active := by
    intro hevent
    rw [ho.active]
    apply List.filter_congr
    intro id _
    exact decide_eq_decide.2 (ho.lists_step h hn hleaves hstack (by simp [hevent]))
  cases h.enrols with
  | same hevent hroll =>
    have hactive : m'.engine.active = m.engine.active := congrArg Prod.fst hroll
    have hcount : m'.engine.threads.length = m.engine.threads.length := congrArg Prod.snd hroll
    rw [hactive, hcount, kept hevent]
  | created hasks hreply hroll =>
    have hactive : m'.engine.active = _ := congrArg Prod.fst hroll
    have hcount : m'.engine.threads.length = _ := congrArg Prod.snd hroll
    have hevent := Event.releases?_of_asks hasks
    have hnew : m'.Lists m.engine.threads.length := by
      rw [ho.lists_step h hn hleaves hstack (by simp [hevent])]
      intro hdestroyed
      have hnone : m.engine.thread? m.engine.threads.length = none :=
        thread?_eq_none_iff.2 (Nat.le_refl _)
      rw [Engine.phase?_eq_none_iff.2 hnone] at hdestroyed
      cases hdestroyed
    rw [hactive, hcount, List.range_succ, List.filter_append, kept hevent]
    simp [hnew]
  | @released gone hevent hroll =>
    have hactive : m'.engine.active = _ := congrArg Prod.fst hroll
    have hcount : m'.engine.threads.length = _ := congrArg Prod.snd hroll
    subst hevent
    rw [hactive, hcount, ho.active, List.filter_filter]
    apply List.filter_congr
    intro id _
    by_cases hid : id = gone
    · subst hid
      simp [ho.not_lists_of_release h hn hleaves hstack]
    · have hevent : (Event.work (.release gone) : Event σ).releases? ≠ some id := by
        intro hreleases
        exact hid (Option.some.inj hreleases).symm
      simp [hid, ho.lists_step h hn hleaves hstack hevent]

/-- Every step leaves the machine in order. -/
theorem Orderly.step (ho : Orderly m) (h : Step plugins m event m')
    (hquiet : plugins.AbortQuietly) (hn : m.engine.Numbered) : Orderly m' := by
  obtain ⟨todo, hstack, hleaves⟩ := h.leaves hquiet hn ho.stacked.ready
  constructor
  · exact ho.stacked_step h hquiet hn
  · exact ho.once_step h hleaves hstack
  · exact ho.destroying_step h hn hleaves hstack
  · exact ho.guarded_step h hleaves hstack
  · exact ho.active_step h hn hleaves hstack

theorem Run.orderly {host : σ} {config : CoreConfig} {stages : List (Stage σ)}
    (h : Run plugins (opened host config) stages m) (hquiet : plugins.AbortQuietly) :
    Orderly m := by
  induction h with
  | start =>
    constructor
    · exact .calm (by simp [opened])
    · simp [clearing, opened]
    · simp [clearing, opened, Engine.phase?, Engine.thread?, Engine.new]
    · trivial
    · rfl
  | step hrun hstep ih => exact ih.step hstep hquiet hrun.invariant.numbered

end Machine
end SentenceEngine
