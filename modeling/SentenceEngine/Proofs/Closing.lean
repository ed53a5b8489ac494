import Mathlib.Data.List.Basic
import SentenceEngine.Proofs.Reentrance

/-!
# The end of the engine

To destroy the engine is to destroy the threads that are active at that moment, one after the other,
and to tell the services of it after that. Each of these destructions is over by then, except for
those that had begun before and wait below the request on the stack. But services and abort hooks
call back into the engine meanwhile, and the threads that they create are not destroyed with the
others. If nobody asks for anything in the course of a destruction, no thread is active any more.

* `Machine.Closing`: the engine is being destroyed.
* `Machine.Dismissal`: the destruction of a thread in which nobody asks for anything.
* `Machine.Run.core_destroyed`: which threads are active when the services are told of the end of
  the engine.
-/

namespace SentenceEngine

/-- Neither the abort hooks nor the services that are told of the end of a thread ask the engine for
anything. -/
structure Plugins.DismissQuietly {σ : Type} (plugins : Plugins σ) : Prop where
  abort : plugins.AbortQuietly
  service : ∀ service id, (plugins.service service (.willDestroy id)).Quiet

/-- Loose work is no part of a destruction. -/
theorem Work.uninvolved_of_isLoose {σ : Type} {work : Work σ} (h : work.isLoose = true) :
    work.clears? = none ∧ work.releases? = none := by
  cases work with
  | clear id => cases h
  | release id => cases h
  | _ => exact ⟨rfl, rfl⟩

namespace Machine

variable {σ : Type} {plugins : Plugins σ} {m m' : Machine σ} {event : Event σ} {id : ThreadId}
  {e : Engine σ} {above below todo rest : List (Work σ)} {host : σ} {config : CoreConfig}
  {stages : List (Stage σ)}

/-! ## The threads of a request -/

/-- The request to destroy the engine brings the destruction of every active thread, above the
announcement of the end. -/
theorem Begets.announces (h : Begets plugins e event (above ++ .announce .coreDestroy :: below)) :
    event.asks? = some (.core .destroyCore) ∧ above = e.active.map .destroy ∧
      ∃ more, below = .reopen :: more ∧ ∀ work ∈ more, work.isLoose = true := by
  generalize htodo : above ++ .announce .coreDestroy :: below = todo at h
  have hmem : .announce .coreDestroy ∈ todo := by
    rw [← htodo]
    exact List.mem_append_right _ List.mem_cons_self
  have not_loose : ∀ {more : List (Work σ)}, (∀ work ∈ more, work.isLoose = true) →
      .announce .coreDestroy ∉ more := by
    intro more hloose hannounce
    cases hloose _ hannounce
  cases h with
  | loose hloose => exact absurd hmem (not_loose hloose)
  | moved hrunning hmore =>
    rcases List.mem_append.1 hmem with hmem | hmem
    · rcases mem_advanceWork hmem with ⟨script, habort⟩ | harrive
      · cases habort
      · cases harrive
    · exact absurd hmem (not_loose hmore)
  | told hmore =>
    rcases List.mem_cons.1 hmem with hmem | hmem
    · cases hmem
    · exact absurd hmem (not_loose hmore)
  | called => simp at hmem
  | failing hfails => simp at hmem
  | ending => simp at hmem
  | cleared => simp at hmem
  | @closing _ more hasks hmore =>
    -- the announcement is there once, so the two ways to split the work are one
    have honce : .announce .coreDestroy ∉ .reopen :: more := by
      intro hannounce
      rcases List.mem_cons.1 hannounce with hannounce | hannounce
      · cases hannounce
      · exact not_loose hmore hannounce
    obtain ⟨rfl, -, rfl⟩ := (List.append_cons_inj_of_notMem (by simp) honce).1 htodo.symm
    exact ⟨hasks, rfl, more, rfl, hmore⟩

/-- Nobody becomes active by the request to destroy the engine. -/
theorem Step.active_of_closing (h : Step plugins m event m')
    (hasks : event.asks? = some (.core .destroyCore)) : m'.engine.active = m.engine.active := by
  cases h.enrols with
  | same hreleases hroll => exact congrArg Prod.fst hroll
  | created hcreates => cases hasks.symm.trans hcreates
  | released hevent =>
    rw [hevent] at hasks
    cases hasks

/-- A thread that is to be destroyed, or runs no more, is so after a step too. -/
theorem Underway.doomed_step (hu : Underway m) (h : Step plugins m event m')
    (hn : m.engine.Numbered) {first : Work σ} (hstack : m.stack = first :: rest)
    (hactive : id ∈ m.engine.active) (hdoomed : .destroy id ∈ first :: above ∨ Past id m) :
    .destroy id ∈ above ∨ Past id m' := by
  obtain ⟨t, ht⟩ := Option.ne_none_iff_exists'.1 (hu.known id hactive)
  rcases hdoomed with hdestroy | hpast
  · rcases List.mem_cons.1 hdestroy with rfl | hdestroy
    · cases h.event_of_stack hstack
      exact .inr (h.past_of_destroy hn ht)
    · exact .inl hdestroy
  · exact .inr (hpast.step h hn)

/-- A thread that is not there was not there before. -/
theorem Run.unborn_before {earlier later : List (Stage σ)} {s : Stage σ}
    (h : Run plugins (opened host config) stages m) (hstages : stages = earlier ++ s :: later)
    (hnone : m.engine.thread? id = none) : s.before.engine.thread? id = none := by
  apply Classical.byContradiction
  intro hthere
  obtain ⟨hrun, hstep⟩ := h.reached hstages
  have hafter := hstep.thread?_ne_none hrun.invariant.numbered hthere
  have hstays : m.engine.thread? id ≠ none := (h.since hstages hafter fun hrun hstep hthere =>
    hstep.thread?_ne_none hrun.invariant.numbered hthere).1
  exact hstays hnone

/-- The engine is being destroyed: `above` is still to be done before the services are told, and
`below` comes after it. No thread that was there when this was asked for stays active without being
destroyed. -/
def Closing (stages : List (Stage σ)) (m : Machine σ) (above below : List (Work σ)) : Prop :=
  ∃ earlier call during, stages = earlier ++ call :: during ∧
    call.event.asks? = some (.core .destroyCore) ∧
    (∀ r ∈ during, ∃ first lower,
      r.before.stack = first :: (lower ++ .announce .coreDestroy :: .reopen :: below)) ∧
    ∀ id ∈ m.engine.active, call.before.engine.thread? id = none ∨ .destroy id ∈ above ∨ Past id m

theorem Closing.step {first : Work σ} {lower : List (Work σ)}
    (hc : Closing stages m (first :: lower) below)
    (hrun : Run plugins (opened host config) stages m) (h : Step plugins m event m')
    (hstack : m.stack = first :: (lower ++ .announce .coreDestroy :: .reopen :: below)) :
    Closing (stages ++ [⟨m, event, m'⟩]) m' (todo ++ lower) below := by
  obtain ⟨earlier, call, during, hstages, hasks, hwaits, hactive⟩ := hc
  refine ⟨earlier, call, during ++ [⟨m, event, m'⟩], by simp [hstages], hasks, ?_, ?_⟩
  · intro r hr
    rcases List.mem_append.1 hr with hr | hr
    · exact hwaits r hr
    · rw [List.mem_singleton.1 hr]
      exact ⟨first, lower, hstack⟩
  · intro id hid
    -- whoever has just come into being was not there when this was asked for
    rcases h.active_cases hid with ⟨hid, -⟩ | ⟨hnone, -⟩
    · rcases hactive id hid with hnew | hdoomed
      · exact .inl hnew
      · right
        rcases hrun.underway.doomed_step h hrun.invariant.numbered hstack hid hdoomed with
          hdestroy | hpast
        · exact .inl (List.mem_append_right _ hdestroy)
        · exact .inr hpast
    · exact .inl (hrun.unborn_before hstages hnone)

theorem Run.closing (h : Run plugins (opened host config) stages m)
    (hsplit : m.stack = above ++ .announce .coreDestroy :: rest) :
    ∃ below, rest = .reopen :: below ∧ Closing stages m above below := by
  induction h generalizing above rest with
  | start => simp [opened] at hsplit
  | @step stages m m' event hrun hstep ih =>
    rcases hstep.split_cases hsplit with ⟨more, hbegets, rfl⟩ | ⟨first, todo, lower, hbelow, rfl⟩
    · obtain ⟨hasks, rfl, more, rfl, -⟩ := hbegets.announces
      refine ⟨_, rfl, stages, ⟨m, event, m'⟩, [], rfl, hasks, by simp, ?_⟩
      intro id hid
      rw [hstep.active_of_closing hasks] at hid
      exact .inr (.inl (List.mem_map.2 ⟨id, hid, rfl⟩))
    · have hbefore : m.stack = (first :: lower) ++ .announce .coreDestroy :: rest := hbelow
      obtain ⟨below, rfl, hclosing⟩ := ih hbefore
      exact ⟨below, rfl, hclosing.step hrun hstep hbelow⟩

/-! ## Destructions in which nobody asks for anything -/

/-- What is left to do of the destruction of a thread in which nobody asks for anything. -/
inductive Dismissal : List (Work σ) → Prop
  | finished : Dismissal []
  | begun {services : ServiceSet} {id : ThreadId} :
      Dismissal [.notify services (.willDestroy id), .clear id]
  | called {services : ServiceSet} {id : ThreadId} {code : Behaviour σ Empty Outcome}
      (hcode : code.Quiet) :
      Dismissal [.hook (.willDestroy id) code, .notify services (.willDestroy id), .clear id]
  | heard {id : ThreadId} : Dismissal [.clear id]
  | told {script : Instance} {id : ThreadId} : Dismissal [.abort script, .release id]
  | stopping {context : Context} {id : ThreadId} {code : Behaviour σ Empty Unit}
      (hcode : code.Quiet) : Dismissal [.abortHook context code, .release id]
  | cleared {id : ThreadId} : Dismissal [.release id]

/-- The destruction of a thread goes on, and nobody asks for anything. -/
theorem Dismissal.step (hd : Dismissal above) (hquiet : plugins.DismissQuietly)
    (h : Step plugins m event m') (hstack : m.stack = above ++ rest) (hnot : above ≠ []) :
    event.asks? = none ∧ ∃ above', Dismissal above' ∧ m'.stack = above' ++ rest := by
  obtain ⟨e, stack⟩ := m
  cases hstack
  cases hd with
  | finished => exact absurd rfl hnot
  | @begun services id =>
    cases h
    cases services with
    | nil => exact ⟨rfl, _, .heard, rfl⟩
    | cons first services => exact ⟨rfl, _, .called (hquiet.service first id), rfl⟩
  | called hcode =>
    cases h
    cases hcode with
    | pure outcome => cases outcome <;> exact ⟨rfl, _, .begun, rfl⟩
    | log hnext => exact ⟨rfl, _, .called hnext, rfl⟩
    | update hnext => exact ⟨rfl, _, .called (hnext _), rfl⟩
    | @wait reason _ _ => cases reason
  | @heard id =>
    cases h
    refine ⟨rfl, _, ?_, rfl⟩
    simp only [perform]
    cases e.look id none (·.inFlight) with
    | none => exact .cleared
    | some script => exact .told
  | @told script id =>
    cases h
    exact ⟨rfl, _, .stopping (hquiet.abort _ _), rfl⟩
  | stopping hcode =>
    cases h
    cases hcode with
    | pure done => exact ⟨rfl, _, .cleared, rfl⟩
    | log hnext => exact ⟨rfl, _, .stopping hnext, rfl⟩
    | update hnext => exact ⟨rfl, _, .stopping (hnext _), rfl⟩
    | @wait reason _ _ => cases reason
  | cleared =>
    cases h
    exact ⟨rfl, _, .finished, rfl⟩

theorem Step.dismisses (h : Step plugins m (.work (.destroy id)) m')
    (hstack : m.stack = .destroy id :: rest) :
    ∃ above, Dismissal above ∧ m'.stack = above ++ rest := by
  obtain ⟨e, stack⟩ := m
  cases hstack
  cases h
  refine ⟨_, ?_, rfl⟩
  simp only [perform]
  split
  · exact .begun
  · exact .finished

/-- Only the destruction of a thread leaves a part of it to do. -/
theorem Puts.uninvolved {work : Work σ} (h : Puts e event work)
    (hdestroy : ∀ id, event ≠ .work (.destroy id)) (hclear : ∀ id, event ≠ .work (.clear id)) :
    work.clears? = none ∧ work.releases? = none := by
  cases h with
  | loose hloose => exact Work.uninvolved_of_isLoose hloose
  | clear => exact absurd rfl (hdestroy _)
  | release => exact absurd rfl (hclear _)
  | _ => exact ⟨rfl, rfl⟩

/-- No destruction is going on in a part of the stack. -/
def Settling (stack : List (Work σ)) : Prop :=
  ∀ work ∈ stack, work.clears? = none ∧ work.releases? = none

/-- At most one destruction is going on, on top of the stack. -/
theorem Run.dismissal (h : Run plugins (opened host config) stages m)
    (hquiet : plugins.DismissQuietly) :
    ∃ above rest, m.stack = above ++ rest ∧ Dismissal above ∧ Settling rest := by
  induction h with
  | start => exact ⟨[], [], rfl, .finished, by simp [Settling]⟩
  | @step stages m m' event hrun hstep ih =>
    obtain ⟨above, rest, hstack, hd, hrest⟩ := ih
    by_cases hover : above = []
    · subst hover
      by_cases hdestroy : ∃ id, event = .work (.destroy id)
      · obtain ⟨id, rfl⟩ := hdestroy
        obtain ⟨below, hbelow⟩ := hstep.stack_of_event
        obtain ⟨above, hd, hstack'⟩ := hstep.dismisses hbelow
        refine ⟨above, below, hstack', hd, ?_⟩
        intro work hwork
        apply hrest work
        rw [← List.nil_append rest, ← hstack, hbelow]
        exact List.mem_cons_of_mem _ hwork
      · -- what is left to do otherwise is no part of a destruction
        obtain ⟨todo, hstack', hbegets⟩ := hstep.begets
        have hclear : ∀ id, event ≠ .work (.clear id) := by
          rintro id rfl
          obtain ⟨below, hbelow⟩ := hstep.stack_of_event
          have hmem : .clear id ∈ rest := by
            rw [← List.nil_append rest, ← hstack, hbelow]
            exact List.mem_cons_self
          cases (hrest _ hmem).1
        refine ⟨[], m'.stack, rfl, .finished, ?_⟩
        rw [hstack']
        intro work hwork
        rcases List.mem_append.1 hwork with hwork | hwork
        · exact (hbegets.puts hwork).uninvolved (fun id hevent => hdestroy ⟨id, hevent⟩) hclear
        · rw [hstack] at hwork
          exact hrest work (List.mem_of_mem_tail hwork)
    · obtain ⟨-, above', hd', hstack'⟩ := hd.step hquiet hstep hstack hover
      exact ⟨above', rest, hstack', hd', hrest⟩

/-- Whoever asks for anything does so while no destruction is going on. -/
theorem Run.settling_of_asks (h : Run plugins (opened host config) stages m)
    (hquiet : plugins.DismissQuietly) (hstep : Step plugins m event m') {query : Query}
    (hasks : event.asks? = some query) : Settling m.stack := by
  obtain ⟨above, rest, hstack, hd, hrest⟩ := h.dismissal hquiet
  by_cases hover : above = []
  · subst hover
    rwa [hstack]
  · cases (hd.step hquiet hstep hstack hover).1.symm.trans hasks

/-- The engine is being destroyed while nobody asks for anything: one of its threads is being
destroyed, others come next, and no others are active. -/
structure Unwinding (m : Machine σ) (above rest : List (Work σ)) : Prop where
  shape : ∃ (dismissal : List (Work σ)) (ids : List ThreadId),
    above = dismissal ++ ids.map .destroy ∧ Dismissal dismissal
  settling : Settling rest
  active : ∀ id ∈ m.engine.active, .destroy id ∈ above ∨ Past id m

/-- Nobody comes into being while nobody asks for anything. -/
theorem Step.active_of_silent (h : Step plugins m event m') (hn : m.engine.Numbered)
    (hasks : event.asks? = none) (hactive : id ∈ m'.engine.active) : id ∈ m.engine.active := by
  rcases h.active_cases hactive with ⟨hactive, -⟩ | ⟨hnone, hborn⟩
  · exact hactive
  · obtain ⟨t', ht'⟩ := Option.ne_none_iff_exists'.1 hborn
    obtain ⟨overrides, program, services, hcreates⟩ := h.creates hn hnone ht'
    cases hasks.symm.trans hcreates.asks

theorem Unwinding.step {first : Work σ} {lower : List (Work σ)}
    (hu : Unwinding m (first :: lower) rest) (hrun : Run plugins (opened host config) stages m)
    (hquiet : plugins.DismissQuietly) (h : Step plugins m event m')
    (hstack : m.stack = first :: (lower ++ .announce .coreDestroy :: rest))
    (hstack' : m'.stack = above ++ .announce .coreDestroy :: rest)
    (habove : above = todo ++ lower) : Unwinding m' above rest := by
  obtain ⟨dismissal, ids, hshape, hd⟩ := hu.shape
  have hbelow : m.stack =
      dismissal ++ (ids.map .destroy ++ .announce .coreDestroy :: rest) := by
    rw [← List.append_assoc, ← hshape]
    exact hstack
  -- the destruction that is going on goes on, or the next one begins
  obtain ⟨hasks, dismissal', ids', hd', hnext⟩ : event.asks? = none ∧
      ∃ (dismissal' : List (Work σ)) (ids' : List ThreadId), Dismissal dismissal' ∧
        m'.stack = (dismissal' ++ ids'.map .destroy) ++ .announce .coreDestroy :: rest := by
    by_cases hover : dismissal = []
    · subst hover
      cases ids with
      | nil => cases hshape
      | cons id ids =>
        cases h.event_of_stack hbelow
        obtain ⟨dismissal', hd', hstack'⟩ := h.dismisses hbelow
        refine ⟨rfl, dismissal', ids, hd', ?_⟩
        rw [hstack', List.append_assoc]
        rfl
    · obtain ⟨hasks, dismissal', hd', hstack'⟩ := hd.step hquiet h hbelow hover
      refine ⟨hasks, dismissal', ids, hd', ?_⟩
      rw [hstack', List.append_assoc]
  constructor
  · exact ⟨dismissal', ids', List.append_cancel_right (hstack'.symm.trans hnext), hd'⟩
  · exact hu.settling
  · intro id hid
    have hn := hrun.invariant.numbered
    have hactive := h.active_of_silent hn hasks hid
    rw [habove]
    rcases hrun.underway.doomed_step h hn hstack hactive (hu.active id hactive) with
      hdestroy | hpast
    · exact .inl (List.mem_append_right _ hdestroy)
    · exact .inr hpast

theorem Run.unwinding (h : Run plugins (opened host config) stages m)
    (hquiet : plugins.DismissQuietly)
    (hsplit : m.stack = above ++ .announce .coreDestroy :: rest) : Unwinding m above rest := by
  induction h generalizing above rest with
  | start => simp [opened] at hsplit
  | @step stages m m' event hrun hstep ih =>
    rcases hstep.split_cases hsplit with
      ⟨more, hbegets, rfl⟩ | ⟨first, todo, lower, hbelow, habove⟩
    · obtain ⟨hasks, rfl, more, rfl, hmore⟩ := hbegets.announces
      have hsettling := hrun.settling_of_asks hquiet hstep hasks
      constructor
      · exact ⟨[], _, rfl, .finished⟩
      · intro work hwork
        rcases List.mem_append.1 hwork with hwork | hwork
        · rcases List.mem_cons.1 hwork with rfl | hwork
          · exact ⟨rfl, rfl⟩
          · exact Work.uninvolved_of_isLoose (hmore work hwork)
        · exact hsettling work (List.mem_of_mem_tail hwork)
      · intro id hid
        rw [hstep.active_of_closing hasks] at hid
        exact .inl (List.mem_map.2 ⟨id, hid, rfl⟩)
    · have hbefore : m.stack = (first :: lower) ++ .announce .coreDestroy :: rest := hbelow
      exact (ih hbefore).step hrun hquiet hstep hbelow hsplit habove

/-- When the services are told that the engine is destroyed, a thread that is still active has come
into being since this was asked for, or is being destroyed further down the stack. If nobody asks
for anything in the course of a destruction, no thread is active any more. -/
theorem Run.core_destroyed (h : Run plugins (opened host config) stages m)
    (hstack : m.stack = .announce .coreDestroy :: rest) :
    (∃ earlier call during below, stages = earlier ++ call :: during ∧
      call.event.asks? = some (.core .destroyCore) ∧ rest = .reopen :: below ∧
      (∀ r ∈ during, ∃ first lower,
        r.before.stack = first :: (lower ++ .announce .coreDestroy :: .reopen :: below)) ∧
      ∀ id ∈ m.engine.active, call.before.engine.thread? id = none ∨
        .clear id ∈ below ∨ .release id ∈ below) ∧
    (plugins.DismissQuietly → m.engine.active = []) := by
  constructor
  · obtain ⟨below, rfl, earlier, call, during, hstages, hasks, hwaits, hactive⟩ :=
      h.closing (show m.stack = [] ++ .announce .coreDestroy :: rest from hstack)
    refine ⟨earlier, call, during, below, hstages, hasks, rfl, hwaits, ?_⟩
    intro id hid
    rcases hactive id hid with hnew | hdestroy | hpast
    · exact .inl hnew
    · cases hdestroy
    · -- it is still active, so its destruction is on the stack, and there it waits below
      right
      simpa [hstack] using h.underway.leaving hid hpast.not_running
  · intro hquiet
    have hunwinding := h.unwinding hquiet
      (show m.stack = [] ++ .announce .coreDestroy :: rest from hstack)
    apply List.eq_nil_iff_forall_not_mem.2
    intro id hid
    rcases hunwinding.active id hid with hdestroy | hpast
    · cases hdestroy
    · rcases h.underway.leaving hid hpast.not_running with hclear | hrelease
      · rw [hstack] at hclear
        cases (hunwinding.settling _ (List.mem_of_ne_of_mem (by simp) hclear)).1
      · rw [hstack] at hrelease
        cases (hunwinding.settling _ (List.mem_of_ne_of_mem (by simp) hrelease)).2

/-- Services that answer the end of a thread with a new one. -/
def fertilePlugins : Plugins Unit where
  script _ := ⟨fun _ => .pure (.ok ()), fun _ => .pure ()⟩
  service _
    | .willDestroy _ => .ask (.core (.createThread none)) fun _ => .pure (.ok ())
    | _ => .pure (.ok ())

/-- The small engine with such a service, as soon as its thread has been started. -/
def fertile : Machine Unit := attended.drain fertilePlugins 4

/-- The same engine, destroyed up to the announcement of its end. -/
def fertileEnd : Machine Unit := (fertile.ask (.core .destroyCore)).2.drain fertilePlugins 11

theorem exists_run_fertileEnd :
    ∃ stages, Run fertilePlugins (opened () sampleConfig) stages fertileEnd := by
  obtain ⟨stages, hattended⟩ := exists_run_attended fertilePlugins
  obtain ⟨more, hfertile⟩ := hattended.drain 4
  have hidle : fertile.stack = [] := rfl
  obtain ⟨last, hrun⟩ := (hfertile.ask hidle (.core .destroyCore)).drain 11
  exact ⟨_, hrun⟩

/-- The thread that the service has created is active, and it was not there when the end of the
engine was asked for. -/
theorem Run.core_destroyed_fertile :
    ∃ stages rest, Run fertilePlugins (opened () sampleConfig) stages fertileEnd ∧
      fertileEnd.stack = .announce .coreDestroy :: rest ∧ fertileEnd.engine.active = [1] ∧
      ∃ call ∈ stages, call.event.asks? = some (.core .destroyCore) ∧
        ∃ below, rest = .reopen :: below ∧ (call.before.engine.thread? 1 = none ∨
          .clear 1 ∈ below ∨ .release 1 ∈ below) := by
  obtain ⟨stages, hrun⟩ := exists_run_fertileEnd
  have hstack : fertileEnd.stack = .announce .coreDestroy :: [.reopen] := rfl
  have hone : fertileEnd.engine.active = [1] := rfl
  obtain ⟨earlier, call, during, below, hstages, hasks, hrest, -, hactive⟩ :=
    (Run.core_destroyed hrun hstack).1
  refine ⟨stages, _, hrun, hstack, hone, call, ?_, hasks, below, hrest, ?_⟩
  · rw [hstages]
    exact List.mem_append_right _ List.mem_cons_self
  · apply hactive
    rw [hone]
    exact List.mem_singleton_self _

/-- So threads can be active when the services are told of the end of the engine. -/
theorem not_core_destroyed_last :
    ¬ ∀ (plugins : Plugins Unit) (host : Unit) (config : CoreConfig) (stages : List (Stage Unit))
      (m : Machine Unit) (rest : List (Work Unit)), Run plugins (opened host config) stages m →
      m.stack = .announce .coreDestroy :: rest → m.engine.active = [] := by
  intro hlast
  obtain ⟨stages, hrun⟩ := exists_run_fertileEnd
  have hstack : fertileEnd.stack = .announce .coreDestroy :: [.reopen] := rfl
  have hone : fertileEnd.engine.active = [1] := rfl
  cases hone.symm.trans (hlast _ _ _ stages _ _ hrun hstack)

end Machine
end SentenceEngine
