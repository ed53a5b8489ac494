import SentenceEngine.Proofs.Reentrance

/-!
# Scripts that have returned

The code of a script comes to its end once. If it ended well and its thread runs, the services are
told before the script is completed, and until then it keeps its place: whatever a service asks for
in this round meets the script as the one in flight. After that it has lost its place for good, and
whoever had to be told to stop was told.

* `Machine.Returned`: the code of a script has come to its end.
* `Machine.Concluding`, `Machine.Concluded`: what is still to be done for it, and its account.
* `Machine.Run.abort_of_returned`: an abort hook is called for a script that has returned only in
  the round in which its own end is told, by a service that calls back into the engine.
-/

namespace SentenceEngine

namespace Machine

variable {σ : Type} {plugins : Plugins σ} {m m' : Machine σ} {event : Event σ} {id : ThreadId}
  {t t' : ThreadState} {context : Context} {a : Instance} {host : σ} {config : CoreConfig}
  {stages : List (Stage σ)}

/-- The code of a script has come to its end. -/
def Returned (context : Context) (stages : List (Stage σ)) : Prop :=
  ∃ s ∈ stages, ∃ outcome, s.event = .work (.script context (.pure outcome))

/-- The good end of a script is told, or it is completed next. -/
def Concluding (context : Context) (stack : List (Work σ)) : Prop :=
  InRound (.after context.thread context.instruction) [.complete context] stack ∨
    stack = [.complete context]

/-- A script was retired, and told to stop if it had to be. -/
def Concluded (context : Context) (stages : List (Stage σ)) : Prop :=
  ∃ a manner, a.context = context ∧ (a, manner) ∈ retirements context.thread stages ∧
    (manner.tells = true → a ∈ tellings context.thread stages)

theorem Concluded.step (h : Concluded context stages) (s : Stage σ) :
    Concluded context (stages ++ [s]) := by
  obtain ⟨a, manner, heq, hretired, htold⟩ := h
  refine ⟨a, manner, heq, ?_, ?_⟩
  · rw [retirements, filterMap_snoc]
    exact List.mem_append_left _ hretired
  · intro htells
    rw [tellings, filterMap_snoc]
    exact List.mem_append_left _ (htold htells)

/-- A script that has lost its place while nobody is still to be told is concluded. -/
theorem Ledger.concluded (hl : Ledger context.thread stages m)
    (ha : a ∈ dispatches context.thread stages) (heq : a.context = context)
    (hslot : m.slot context.thread ≠ some a) (htell : m.toTell? context.thread = none) :
    Concluded context stages := by
  have hretired : ∃ manner, (a, manner) ∈ retirements context.thread stages := by
    rw [hl.balance] at ha
    rcases List.mem_append.1 ha with ha | ha
    · obtain ⟨⟨b, manner⟩, hb, hba⟩ := List.mem_map.1 ha
      cases hba
      exact ⟨manner, hb⟩
    · exact absurd (Option.mem_toList.1 ha) hslot
  obtain ⟨manner, hretired⟩ := hretired
  refine ⟨a, manner, heq, hretired, ?_⟩
  intro htells
  have htold := hl.told
  rw [htell, Option.toList_none, List.append_nil] at htold
  rw [htold]
  exact List.mem_map.2 ⟨_, List.mem_filter.2 ⟨hretired, htells⟩, rfl⟩

/-- Whoever is in flight while no destruction is going on is current. -/
theorem Run.isCurrent_of_slot (h : Run plugins (opened host config) stages m)
    (hclear : .clear id ∉ m.stack) (ht : m.engine.thread? id = some t) (ha : t.inFlight = some a) :
    t.isCurrent a.context.ticket = true := by
  refine ThreadState.isCurrent_iff.2 ⟨?_, a, ha, rfl⟩
  cases hphase : t.phase with
  | running => rfl
  | destroying =>
    have hdestroying : m.engine.phase? id = some .destroying := by
      rw [Engine.phase?_eq ht, hphase]
    exact absurd (h.underway.clearing id hdestroying) hclear
  | destroyed => cases (h.bare ht hphase).2.2.symm.trans ha

/-! ## The end of a script -/

/-- A script that was somewhere before a step is concluded if the step leaves it without its place
and nobody to be told. -/
theorem Step.concluded (hstep : Step plugins m event m')
    (h : Run plugins (opened host config) stages m) (hheld : context ∈ m.held)
    (hleft : ∀ a ∈ dispatches context.thread stages, a.context = context →
      m'.slot context.thread ≠ some a ∧ m'.toTell? context.thread = none) :
    Concluded context (stages ++ [⟨m, event, m'⟩]) := by
  obtain ⟨a, ha, heq⟩ := h.custody.dispatched context hheld
  obtain ⟨hslot, htell⟩ := hleft a ha heq
  have hl := ((h.step hstep).ledger context.thread).1
  refine hl.concluded ?_ heq hslot htell
  rw [dispatches, filterMap_snoc]
  exact List.mem_append_left _ ha

/-- When the code of a script ends, its good end is told, or the script is concluded. -/
theorem Step.returned {outcome : Outcome}
    (hstep : Step plugins m (.work (.script context (.pure outcome))) m')
    (h : Run plugins (opened host config) stages m) :
    Concluding context m'.stack ∨
      Concluded context (stages ++ [⟨m, .work (.script context (.pure outcome)), m'⟩]) := by
  have hg : Grounded m.stack := h.grounded (by simp [Grounded, opened])
  obtain ⟨todo, rest, hstack, hstack', hworked⟩ := hstep.workedOff
  cases hg.alone hstack rfl
  have hheld : context ∈ m.held := by simp [held, hstack, Work.holds?]
  have hn := h.invariant.numbered
  have concluded := hstep.concluded h hheld
  have current : ∀ {t a}, m.engine.thread? context.thread = some t → t.inFlight = some a →
      t.isCurrent a.context.ticket = true := h.isCurrent_of_slot (by simp [hstack])
  -- an end that comes too late is not that of the script in flight
  have late : ∀ {f : ThreadState → Bool} {a : Instance},
      m.engine.look context.thread false f = false →
      (∀ t, t.isCurrent context.ticket = true → f t = true) → a.context = context →
      m.slot context.thread ≠ some a := by
    intro f a hlook hf heq hslot
    obtain ⟨t, ht, hflight⟩ := Option.bind_eq_some_iff.1 hslot
    have hcurrent := current ht hflight
    rw [heq] at hcurrent
    rw [Engine.look_eq ht, hf t hcurrent] at hlook
    cases hlook
  obtain ⟨e', stack'⟩ := m'
  dsimp only at hstack' hworked
  rw [List.append_nil] at hstack'
  subst hstack'
  cases outcome with
  | ok done =>
    rcases hworked.of_success with ⟨-, -, rfl⟩ | ⟨hgone, rfl, rfl⟩
    · exact .inl (.inl ⟨[], _, rfl⟩)
    · right
      apply concluded
      intro a ha heq
      refine ⟨late hgone ?_ heq, rfl⟩
      intro t hcurrent
      exact ThreadState.isRunning_iff.2 (ThreadState.isCurrent_iff.1 hcurrent).1
  | error failure =>
    right
    apply concluded
    intro a ha heq
    rcases hworked.of_failure with ⟨hcurrent, rfl, rfl⟩ | ⟨hlost, rfl, rfl⟩
    · obtain ⟨t, ht, -⟩ := Engine.exists_of_look hcurrent
      have hid : t.id = context.thread := hn _ _ ht
      have hset : (m.engine.setThread { t with inFlight := none }).thread? t.id = _ :=
        Engine.thread?_setThread_self (by rwa [hid])
      refine ⟨?_, rfl⟩
      rw [Engine.modifyThread_eq ht, ← hid, slot_eq hset]
      simp
    · exact ⟨late hlost (fun _ hcurrent => hcurrent) heq, rfl⟩

/-- When a script is completed, it is concluded. -/
theorem Step.completed (hstep : Step plugins m event m')
    (h : Run plugins (opened host config) stages m) (hstack : m.stack = [.complete context]) :
    Concluded context (stages ++ [⟨m, event, m'⟩]) := by
  have hheld : context ∈ m.held := by simp [held, hstack, Work.holds?]
  apply hstep.concluded h hheld
  intro a ha heq
  have current : ∀ {t a}, m.engine.thread? context.thread = some t → t.inFlight = some a →
      t.isCurrent a.context.ticket = true := h.isCurrent_of_slot (by simp [hstack])
  have hlast := ((h.ledger context.thread).1.bounded a ha).2
  have hm := h.invariant
  obtain ⟨e, stack⟩ := m
  cases hstack
  cases hstep
  rcases ht : e.thread? context.thread with _ | t
  · simp [perform, slot, toTell?, ht]
  rcases hcurrent : t.isCurrent context.ticket with _ | _
  · have hperform : perform plugins e (.complete context) = ([], e) := by
      simp [perform, ht, hcurrent]
    rw [hperform]
    refine ⟨?_, rfl⟩
    intro hslot
    have hstill := current ht ((slot_eq ht).symm.trans hslot)
    rw [heq, hcurrent] at hstill
    cases hstill
  · obtain ⟨p, hprep, hcomplete, hfree, hticket⟩ :
        ∃ p, t.Prepares (.completed context) p ∧ t.complete = p.run ∧ p.inFlight = none ∧
          p.ticket = t.ticket :=
      ⟨_, .completed hcurrent, ThreadState.complete_eq t, rfl, rfl⟩
    have hperform : perform plugins e (.complete context) =
        (Engine.advanceWork context.thread p.run.1, e.setThread p.run.2) := by
      simp only [perform, ht, hcurrent, if_true, hcomplete]
    rw [hperform]
    have hid := hprep.kin_run.id.symm.trans (hm.numbered _ _ ht)
    have hset := Engine.thread?_setThread_self (by rwa [hid] : e.thread? _ = some t)
    rw [hid] at hset
    constructor
    · rw [slot_eq hset]
      intro hstays
      -- the slot was emptied, and what is put into it has a later ticket
      rcases (hprep.ran (hm.sound ht)).inFlight with ⟨hsame, -⟩ | hnext
      · cases hfree.symm.trans (hsame.symm.trans hstays)
      · have hlater := hnext a hstays
        rw [lastTicket_eq ht] at hlast
        omega
    · rw [toTell?_advanceWork rfl]
      rcases haborted : p.run.1.aborted with _ | b
      · rfl
      · cases hfree.symm.trans (ThreadState.aborted_run haborted)

theorem Run.returned (h : Run plugins (opened host config) stages m)
    (hreturned : Returned context stages) :
    Concluding context m.stack ∨ Concluded context stages := by
  induction h with
  | start =>
    obtain ⟨s, hs, -⟩ := hreturned
    cases hs
  | step hrun hstep ih =>
    obtain ⟨s, hs, outcome, hevent⟩ := hreturned
    rcases List.mem_append.1 hs with hs | hs
    · rcases ih ⟨s, hs, outcome, hevent⟩ with (hround | hstack) | hconcluded
      · exact .inl (hstep.inRound hround)
      · exact .inr (hstep.completed hrun hstack)
      · exact .inr (hconcluded.step _)
    · cases List.mem_singleton.1 hs
      cases hevent
      exact hstep.returned hrun

/-! ## Abort hooks -/

/-- The scripts of a thread were retired in the order of their tickets. -/
theorem Ledger.retired_increasing (hl : Ledger id stages m) :
    (retirements id stages).Pairwise (·.1.context.ticket < ·.1.context.ticket) := by
  have hincreasing := hl.increasing
  rw [hl.balance, List.pairwise_append, List.pairwise_map] at hincreasing
  exact hincreasing.1

/-- A script is retired in one way. -/
theorem Ledger.retired_once (hl : Ledger id stages m) {one two : Retirement}
    (hone : (a, one) ∈ retirements id stages) (htwo : (a, two) ∈ retirements id stages) :
    one = two := by
  -- two entries for one script have one ticket, and tickets increase from entry to entry
  obtain ⟨i, hi, hgeti⟩ := List.getElem_of_mem hone
  obtain ⟨j, hj, hgetj⟩ := List.getElem_of_mem htwo
  have hlt := List.pairwise_iff_getElem.1 hl.retired_increasing
  rcases Nat.lt_trichotomy i j with hij | rfl | hij
  · have := hlt i j hi hj hij
    rw [hgeti, hgetj] at this
    exact absurd this (Nat.lt_irrefl _)
  · exact congrArg Prod.snd (hgeti.symm.trans hgetj)
  · have := hlt j i hj hi hij
    rw [hgeti, hgetj] at this
    exact absurd this (Nat.lt_irrefl _)

/-- A script that is concluded is not to be told to stop any more. -/
theorem Concluded.toTell?_ne (h : Concluded context stages)
    (hl : Ledger context.thread stages m) (heq : a.context = context) :
    m.toTell? context.thread ≠ some a := by
  intro htell
  obtain ⟨b, manner, hb, hretired, htold⟩ := h
  have haccount := hl.told
  rw [htell, Option.toList_some] at haccount
  have hmem : a ∈ toldOf (retirements context.thread stages) := by
    rw [← haccount]
    exact List.mem_append_right _ (List.mem_singleton_self a)
  obtain ⟨⟨c, told⟩, hc, rfl⟩ := List.mem_map.1 hmem
  obtain ⟨hc, htells⟩ := List.mem_filter.1 hc
  have hsame : b = c := by
    refine hl.unique (hl.mem_of_retired hretired) (hl.mem_of_retired hc) ?_
    rw [hb, heq]
  subst hsame
  cases hl.retired_once hretired hc
  -- it was told already, and those that are told have increasing tickets
  have hincreasing : (toldOf (retirements context.thread stages)).Pairwise
      (·.context.ticket < ·.context.ticket) := by
    rw [toldOf, List.pairwise_map]
    exact hl.retired_increasing.sublist List.filter_sublist
  rw [← haccount, List.pairwise_append] at hincreasing
  have hlt := hincreasing.2.2 b (htold htells) b (List.mem_singleton_self b)
  exact absurd hlt (Nat.lt_irrefl _)

/-- An abort hook is called for a script whose code has come to its end only in the round in which
this end is told to the services, by a service that calls back into the engine. -/
theorem Run.abort_of_returned {earlier later : List (Stage σ)} {s : Stage σ}
    (h : Run plugins (opened host config) stages m) (hstages : stages = earlier ++ s :: later)
    (habort : s.event = .work (.abort a)) (hreturned : Returned a.context earlier) :
    (∃ above services, s.before.stack = .abort a :: (above ++
      [.notify services (.after a.context.thread a.context.instruction), .complete a.context])) ∧
    ∃ service,
      ¬ (plugins.service service (.after a.context.thread a.context.instruction)).Quiet := by
  obtain ⟨hrun, hstep⟩ := h.reached hstages
  rw [habort] at hstep
  obtain ⟨rest, hstack⟩ := hstep.stack_of_event
  have htell : s.before.toTell? a.context.thread = some a := by
    simp [toTell?, hstack, Work.aborts?]
  -- the end of the script is being told, or comes to completion next, or has been dealt with
  rcases hrun.returned hreturned with (⟨above, services, hround⟩ | hcomplete) | hconcluded
  · cases above with
    | nil => cases hstack.symm.trans hround
    | cons first above =>
      cases hstack.symm.trans hround
      refine ⟨⟨above, services, hround⟩, ?_⟩
      -- nothing comes between services that ask for nothing
      apply Classical.byContradiction
      intro hnone
      have hhushed := hrun.hushed fun service =>
        Classical.byContradiction fun hnot => hnone ⟨service, hnot⟩
      rcases hhushed _ _ _ hround with hnil | ⟨code, hcode, -⟩
      · cases hnil
      · cases hcode
  · cases hstack.symm.trans hcomplete
  · exact absurd htell (hconcluded.toTell?_ne (hrun.ledger _).1 rfl)

/-- Services that destroy a thread as soon as one of its scripts has ended. -/
def hastyPlugins : Plugins Unit where
  script _ := ⟨fun _ => .pure (.ok ()), fun _ => .pure ()⟩
  service _
    | .after id _ => .ask (.destroy id) fun _ => .pure (.ok ())
    | _ => .pure (.ok ())

/-- The small engine with such a service, up to the end of its first script. -/
def hasty : Machine Unit := attended.runTasks hastyPlugins 11

theorem exists_run_hasty :
    ∃ stages, Run hastyPlugins (opened () sampleConfig) stages hasty := by
  obtain ⟨stages, hattended⟩ := exists_run_attended hastyPlugins
  obtain ⟨more, hrun⟩ := hattended.runTasks 11
  exact ⟨_, hrun⟩

/-- The script of the small engine: its code comes to its end, the service is told so and destroys
the thread, and the abort hook of the script is called. -/
theorem exists_abort_of_returned :
    ∃ stages m earlier s later a, Run hastyPlugins (opened () sampleConfig) stages m ∧
      stages = earlier ++ s :: later ∧ s.event = .work (.abort a) ∧
      Returned a.context earlier := by
  obtain ⟨stages, hrun⟩ := exists_run_hasty
  let context : Context := ⟨0, 1, .new "a"⟩
  have hends : hasty.stack = [.script context (.pure (.ok ()))] := rfl
  obtain ⟨more, hrun⟩ := (hrun.work hends).drain 7
  have haborted := hrun.work (rfl : _ = Work.abort ⟨"a", context⟩ :: _)
  refine ⟨_, _, _, _, [], ⟨"a", context⟩, haborted, rfl, rfl, ?_⟩
  exact ⟨_, List.mem_append_left _ (List.mem_append_right _ (List.mem_singleton_self _)), _, rfl⟩

/-- There the service is called in the round in which the end of the script is told. -/
theorem Run.abort_of_returned_hasty :
    ∃ stages m earlier s later a, Run hastyPlugins (opened () sampleConfig) stages m ∧
      stages = earlier ++ s :: later ∧ s.event = .work (.abort a) ∧
      Returned a.context earlier ∧ ∃ above services, s.before.stack = .abort a :: (above ++
        [.notify services (.after a.context.thread a.context.instruction),
          .complete a.context]) := by
  obtain ⟨stages, m, earlier, s, later, a, hrun, hstages, habort, hreturned⟩ :=
    exists_abort_of_returned
  have hround := (Run.abort_of_returned hrun hstages habort hreturned).1
  exact ⟨stages, m, earlier, s, later, a, hrun, hstages, habort, hreturned, hround⟩

/-- So it is not only scripts that wait or are still to begin whose abort hooks are called. -/
theorem not_abort_pending :
    ¬ ∀ (plugins : Plugins Unit) (host : Unit) (config : CoreConfig) (stages earlier later :
      List (Stage Unit)) (m : Machine Unit) (s : Stage Unit) (a : Instance),
      Run plugins (opened host config) stages m → stages = earlier ++ s :: later →
      s.event = .work (.abort a) → ¬ Returned a.context earlier := by
  intro hpending
  obtain ⟨stages, m, earlier, s, later, a, hrun, hstages, habort, hreturned⟩ :=
    exists_abort_of_returned
  exact hpending _ _ _ stages earlier later m s a hrun hstages habort hreturned

end Machine
end SentenceEngine
