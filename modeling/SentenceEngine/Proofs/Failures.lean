import SentenceEngine.Proofs.Reentrance

/-!
# What follows a failure

A thread that fails has its services told of the error and is destroyed afterwards. While the
services are told it still runs, so what a service asks for in this round can set it going again.
As soon as the round is over the thread is destroyed: from then on it dispatches nothing, and it
fails again only if that was on the stack already when it failed.

* `Machine.Aftermath`: where a thread that failed stands.
* `Machine.Run.after_failure`: a thread that failed dispatches another script, or fails again, only
  in the round in which its services are told, by a service that calls back into the engine.
-/

namespace SentenceEngine

namespace Machine

variable {σ : Type} {plugins : Plugins σ} {m m' : Machine σ} {event : Event σ} {id : ThreadId}
  {t : ThreadState} {e : Engine σ} {error : ThreadError} {todo rest : List (Work σ)}
  {host : σ} {config : CoreConfig} {stages : List (Stage σ)}

/-! ## What lets a thread fail -/

/-- To destroy a thread lets no thread fail. -/
theorem Step.fails_of_destroy (hstep : Step plugins m (.work (.destroy id)) m') {work : Work σ}
    {other : ThreadId} (hwork : work ∈ m'.stack) (hfails : work.fails? = some other) :
    work ∈ m.stack.tail := by
  cases hstep with
  | work =>
    rcases List.mem_append.1 hwork with hwork | hwork
    · simp only [perform] at hwork
      split at hwork
      · simp only [List.mem_cons, List.not_mem_nil, or_false] at hwork
        rcases hwork with rfl | rfl <;> cases hfails
      · cases hwork
    · exact hwork

/-- Work that lets a thread fail comes from such work, or the thread runs. -/
theorem Puts.fails {work : Work σ} (h : Puts e event work) (hfails : work.fails? = some id) :
    event.item?.bind Work.fails? = some id ∨ e.phase? id = some .running := by
  cases h with
  | loose hloose => cases (Work.fails?_of_isLoose hloose).symm.trans hfails
  | fatal hrunning =>
    cases hfails
    exact .inr hrunning
  | failing hbefore =>
    cases hfails
    exact hbefore
  | _ => cases hfails

/-! ## After a failure -/

/-- Where a thread that failed stands: its services are told of the error, it is destroyed next, or
it runs no more and what lets it fail again is left from before. -/
def Aftermath (id : ThreadId) (error : ThreadError) (rest : List (Work σ)) (m : Machine σ) : Prop :=
  InRound (.error id error) (.destroy id :: rest) m.stack ∨ m.stack = .destroy id :: rest ∨
    Past id m ∧ ∀ work ∈ m.stack, work.fails? = some id → ∃ left ∈ rest, left.fails? = some id

theorem Aftermath.step (h : Aftermath id error rest m) (hstep : Step plugins m event m')
    (hrun : Run plugins (opened host config) stages m) : Aftermath id error rest m' := by
  have hn := hrun.invariant.numbered
  obtain ⟨todo, hstack', hbegets⟩ := hstep.begets
  rcases h with hround | hdestroy | ⟨hpast, hleft⟩
  · -- however much the services ask for, the thread is destroyed when their round is over
    rcases hstep.inRound hround with hround | hover
    · exact .inl hround
    · exact .inr (.inl hover)
  · -- the thread is destroyed, and nothing of that lets it fail
    cases hstep.event_of_stack hdestroy
    have hthread : m.engine.thread? id ≠ none := by
      intro hnone
      have hnothing := List.filter_eq_nil_iff.1 (hrun.unborn hnone).stack (.destroy id)
        (by rw [hdestroy]; exact List.mem_cons_self)
      exact hnothing (Work.concerns_of_owner rfl)
    obtain ⟨t, ht⟩ := Option.ne_none_iff_exists'.1 hthread
    refine .inr (.inr ⟨hstep.past_of_destroy hn ht, ?_⟩)
    intro work hwork hfails
    have hbefore := hstep.fails_of_destroy hwork hfails
    rw [hdestroy] at hbefore
    exact ⟨work, hbefore, hfails⟩
  · refine .inr (.inr ⟨hpast.step hstep hn, ?_⟩)
    intro work hwork hfails
    rw [hstack'] at hwork
    rcases List.mem_append.1 hwork with hwork | hwork
    · -- a thread that runs no more fails only by what was left
      rcases (hbegets.puts hwork).fails hfails with hbefore | hrunning
      · obtain ⟨item, hitem, hfails⟩ := Option.bind_eq_some_iff.1 hbefore
        refine hleft item ?_ hfails
        rw [hstep.stack_eq, hitem]
        exact List.mem_append_left _ (List.mem_singleton_self item)
      · exact absurd hrunning hpast.not_running
    · exact hleft work (List.mem_of_mem_tail hwork) hfails

/-- Abort hooks that ask for nothing leave nothing below a failure that lets its thread fail
again. -/
theorem Run.fails_once (hrun : Run plugins (opened host config) stages m)
    (hquiet : plugins.AbortQuietly) (hfail : m.stack = .fail id error :: rest) :
    ∀ work ∈ rest, work.fails? = none := by
  have calm : ∀ work ∈ m.stack.tail, work.Calm := by
    have hstacked := (hrun.orderly hquiet).stacked
    rw [hfail] at hstacked ⊢
    cases hstacked with
    | calm hcalm => exact (hcalm _ List.mem_cons_self).elim
    | due hdue hcalm => exact hcalm
    | interrupted hwork => exact hwork.elim
  intro work hwork
  rw [hfail] at calm
  have hcalm := calm work hwork
  cases work with
  | arrive other arrival => exact hcalm.elim
  | fail other error => exact hcalm.elim
  | _ => rfl

/-- A round in which a script is dispatched, or a thread fails, has a service that calls back into
the engine. -/
theorem Run.exists_not_quiet {n : Notification} {r : Stage σ}
    (hrun : Run plugins (opened host config) stages r.before)
    (hstep : Step plugins r.before r.event r.after) (hround : InRound n rest r.before.stack)
    (hbusy : (∃ a, r.dispatched? id = some a) ∨ ∃ error, r.event = .work (.fail id error)) :
    ∃ service, ¬ (plugins.service service n).Quiet := by
  apply Classical.byContradiction
  intro hnone
  have hhushed := hrun.hushed fun service =>
    Classical.byContradiction fun hnot => hnone ⟨service, hnot⟩
  obtain ⟨item, hevent, hasks, hcomplete, hfail⟩ :
      ∃ item, r.event = .work item ∧ item.asks? = none ∧ (∀ context, item ≠ .complete context) ∧
        ∀ error, item ≠ .fail id error := by
    rcases hhushed.event_cases hstep hround with ⟨services, hevent⟩ | ⟨code, hevent, hcode⟩
    · exact ⟨_, hevent, rfl, by simp, by simp⟩
    · refine ⟨_, hevent, ?_, by simp, by simp⟩
      cases hcode <;> rfl
  rcases hbusy with ⟨a, hdispatched⟩ | ⟨error, hfailed⟩
  · rcases (hstep.dispatching hrun.invariant hdispatched).2 with
      hempty | ⟨query, hquery⟩ | ⟨context, hcontext⟩
    · obtain ⟨above, services, hstack⟩ := hround
      rw [hempty] at hstack
      simp at hstack
    · rw [hevent] at hquery
      cases hasks.symm.trans hquery
    · rw [hevent] at hcontext
      cases hcontext
      exact hcomplete context rfl
  · rw [hevent] at hfailed
    cases hfailed
    exact hfail error rfl

/-- After its failure a thread dispatches another script, or fails again, only in the round in which
its services are told of the error, by a service that calls back into the engine; or else what lets
it fail again was left on the stack already when it failed, which takes an abort hook that calls
back. -/
theorem Run.after_failure {earlier later : List (Stage σ)} {s r : Stage σ}
    (h : Run plugins (opened host config) stages m) (hstages : stages = earlier ++ s :: later)
    (hfail : s.before.stack = .fail id error :: rest) (hr : r ∈ later) :
    (∀ a, r.dispatched? id = some a →
      InRound (.error id error) (.destroy id :: rest) r.before.stack ∧
        ∃ service, ¬ (plugins.service service (.error id error)).Quiet) ∧
    (∀ another, r.event = .work (.fail id another) →
      (InRound (.error id error) (.destroy id :: rest) r.before.stack ∧
        ∃ service, ¬ (plugins.service service (.error id error)).Quiet) ∨
      (∃ work ∈ rest, work.fails? = some id) ∧ ¬ plugins.AbortQuietly) := by
  obtain ⟨hrun, hstep⟩ := h.reached hstages
  have hfirst : Aftermath id error rest s.after := by
    obtain ⟨⟨e, stack⟩, event, m'⟩ := s
    cases hfail
    cases hstep
    exact .inl ⟨[], _, rfl⟩
  have hafter := (h.since hstages hfirst fun hrun hstep h => h.step hstep hrun).2 r hr
  have hmem : r ∈ stages := by
    rw [hstages]
    exact List.mem_append_right _ (List.mem_cons_of_mem _ hr)
  obtain ⟨before, hbefore, hnext⟩ := h.mem hmem
  constructor
  · intro a hdispatched
    obtain ⟨hrunning, hcause⟩ := hnext.dispatching hbefore.invariant hdispatched
    rcases hafter with hround | hdestroy | ⟨hpast, -⟩
    · exact ⟨hround, hbefore.exists_not_quiet hnext hround (.inl ⟨a, hdispatched⟩)⟩
    · -- to destroy a thread dispatches nothing
      have hevent := hnext.event_of_stack hdestroy
      rcases hcause with hempty | ⟨query, hasks⟩ | ⟨context, hcontext⟩
      · cases hdestroy.symm.trans hempty
      · rw [hevent] at hasks
        cases hasks
      · cases hevent.symm.trans hcontext
    · exact absurd hrunning hpast.not_running
  · intro another hfails
    rw [hfails] at hnext
    obtain ⟨below, hstack⟩ := hnext.stack_of_event
    rcases hafter with hround | hdestroy | ⟨-, hleft⟩
    · rw [← hfails] at hnext
      exact .inl ⟨hround, hbefore.exists_not_quiet hnext hround (.inr ⟨another, hfails⟩)⟩
    · cases hstack.symm.trans hdestroy
    · obtain ⟨work, hwork, hleft⟩ := hleft (.fail id another) (by simp [hstack]) rfl
      refine .inr ⟨⟨work, hwork, hleft⟩, ?_⟩
      intro hquiet
      cases (hrun.fails_once hquiet hfail work hwork).symm.trans hleft

/-- Scripts that fail, and services that answer an error with a program of a label alone. -/
def stubbornPlugins : Plugins Unit where
  script _ := ⟨fun _ => .pure (.error (.ofMessage "boom")), fun _ => .pure ()⟩
  service _
    | .error id _ => .ask (.execute id [.label "again"] none) fun _ => .pure (.ok ())
    | _ => .pure (.ok ())

/-- The small engine with such a script and such a service, up to the failure of its thread. -/
def stubborn : Machine Unit := attended.runTasks stubbornPlugins 12

theorem exists_run_stubborn :
    ∃ stages, Run stubbornPlugins (opened () sampleConfig) stages stubborn := by
  obtain ⟨stages, hattended⟩ := exists_run_attended stubbornPlugins
  obtain ⟨more, hrun⟩ := hattended.runTasks 12
  exact ⟨_, hrun⟩

/-- The thread of the small engine fails, the service is told so and hands it to its program, and
the instruction that failed is dispatched again. -/
theorem exists_dispatch_after_failure :
    ∃ stages m earlier s later r a error rest,
      Run stubbornPlugins (opened () sampleConfig) stages m ∧ stages = earlier ++ s :: later ∧
        s.before.stack = .fail 0 error :: rest ∧ r ∈ later ∧ r.dispatched? 0 = some a ∧
        a.context.instruction = .new "a" := by
  obtain ⟨stages, hrun⟩ := exists_run_stubborn
  let problem : ThreadError := .script "a" (.ofMessage "boom")
  have hfail : stubborn.stack = .fail 0 problem :: [] := rfl
  have hfailed := hrun.work hfail
  obtain ⟨more, hcalled⟩ := hfailed.drain 1
  have hexecuted := hcalled.work rfl
  rw [List.append_assoc, List.append_assoc] at hexecuted
  exact ⟨_, _, stages, ⟨stubborn, .work (.fail 0 problem), _⟩, _, _, ⟨"a", ⟨0, 2, .new "a"⟩⟩,
    problem, [], hexecuted, rfl, hfail, List.mem_append_right more (List.mem_singleton_self _),
    by decide +kernel, rfl⟩

/-- There the service is called in the round in which the error is told. -/
theorem Run.after_failure_stubborn :
    ∃ stages m earlier s later r a error rest,
      Run stubbornPlugins (opened () sampleConfig) stages m ∧ stages = earlier ++ s :: later ∧
        s.before.stack = .fail 0 error :: rest ∧ r ∈ later ∧ r.dispatched? 0 = some a ∧
        InRound (.error 0 error) (.destroy 0 :: rest) r.before.stack := by
  obtain ⟨stages, m, earlier, s, later, r, a, error, rest, hrun, hstages, hfail, hr, ha, -⟩ :=
    exists_dispatch_after_failure
  have hround := ((Run.after_failure hrun hstages hfail hr).1 a ha).1
  exact ⟨stages, m, earlier, s, later, r, a, error, rest, hrun, hstages, hfail, hr, ha, hround⟩

/-- So a failure is not always final. -/
theorem not_failure_final :
    ¬ ∀ (plugins : Plugins Unit) (host : Unit) (config : CoreConfig) (stages earlier later :
      List (Stage Unit)) (m : Machine Unit) (s r : Stage Unit) (id : ThreadId)
      (error : ThreadError) (rest : List (Work Unit)),
      Run plugins (opened host config) stages m → stages = earlier ++ s :: later →
      s.before.stack = .fail id error :: rest → r ∈ later → r.dispatched? id = none := by
  intro hfinal
  obtain ⟨stages, m, earlier, s, later, r, a, error, rest, hrun, hstages, hfail, hr, ha, -⟩ :=
    exists_dispatch_after_failure
  have hnone := hfinal _ _ _ stages earlier later m s r 0 error rest hrun hstages hfail hr
  cases hnone.symm.trans ha

end Machine
end SentenceEngine
