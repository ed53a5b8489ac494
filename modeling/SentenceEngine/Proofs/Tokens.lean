import SentenceEngine.Proofs.Custody

/-!
# What scripts can learn about their place

A script asks whether it was told to stop, and the engine judges for itself whether the script still
has its place: only the script in flight of a running thread may hand control to a program. The two
come from different steps, since a script loses its place in one and is told in a later one. But
no script is executed in between: a script is executed only when nothing else is left to do, and by
then whoever lost its place was told.

* `Machine.Noted`: what is noted about a thread, over a whole run.
* `Machine.Grounded`: a script is executed at the bottom of the stack.
* `Engine.Agreement`, `Machine.Run.token_agrees`: what a script that is executed learns.
-/

namespace SentenceEngine

variable {σ : Type}

/-- Whether an item of work is the code of a script. -/
def Work.isScript : Work σ → Bool
  | .script _ _ => true
  | _ => false

theorem Work.isScript_of_isErrand {work : Work σ} (h : work.isErrand = true) :
    work.isScript = false := by
  cases work <;> first | rfl | cases h

namespace Engine

variable {e : Engine σ}

theorem isScript_advanceWork (id : ThreadId) (advance : Advance) :
    ∀ work ∈ (advanceWork id advance : List (Work σ)), work.isScript = false :=
  forall_advanceWork (fun _ => rfl) (fun _ _ => rfl) id advance

theorem isScript_answer (query : Query) :
    ∀ work ∈ (e.answer query).todo, work.isScript = false :=
  forall_answer (fun _ h => Work.isScript_of_isErrand h) (fun _ => rfl) (fun _ _ => rfl) query

/-- A script is the one in flight of a running thread. -/
def InFlight (e : Engine σ) (context : Context) : Prop :=
  ∃ t a, e.thread? context.thread = some t ∧ t.phase = .running ∧ t.inFlight = some a ∧
    a.context = context

/-- How a script that has lost its place is refused a transfer of control. -/
def refusal (e : Engine σ) (context : Context) : ThreadError :=
  if e.phase? context.thread = some .running then .superseded context.name else .notRunning

/-- What a script is told about itself is what the engine goes by. -/
structure Agreement (e : Engine σ) (context : Context) : Prop where
  /-- It is told to have been cancelled just when it is not the one in flight. -/
  inFlight : (e.answer (.isCancelled context)).reply = true ↔ ¬ e.InFlight context
  /-- Then it is refused to hand control to a program from its start, -/
  refused : ∀ program, (e.answer (.isCancelled context)).reply = true ↔
    (e.answer (.transfer context program none)).reply = .error (e.refusal context)
  /-- and otherwise it is granted. -/
  granted : ∀ program, (e.answer (.isCancelled context)).reply = false ↔
    (e.answer (.transfer context program none)).reply = .ok ()

end Engine

namespace Machine

variable {plugins : Plugins σ} {m m' : Machine σ} {event : Event σ} {id : ThreadId}
  {t t' : ThreadState} {context : Context}

/-! ## Notes -/

/-- What a step notes about a thread that is there. -/
theorem Step.notes (h : Step plugins m event m') (hn : m.engine.Numbered)
    (ht : m.engine.thread? id = some t) (ht' : m'.engine.thread? id = some t') :
    t'.cancelled =
        ((Stage.told? id ⟨m, event, m'⟩).map (·.context.ticket)).toList ++ t.cancelled ∧
      t'.ended = (t.ended || event.releases? == some id) := by
  have hmarks : m'.engine.marks id =
      (((Stage.told? id ⟨m, event, m'⟩).map (·.context.ticket)).toList ++ t.cancelled,
        t.ended || event.releases? == some id) := by
    -- only work on the stack notes anything
    have same : m'.engine.marks id = m.engine.marks id → event.item? = none →
        m'.engine.marks id =
          (((Stage.told? id ⟨m, event, m'⟩).map (·.context.ticket)).toList ++ t.cancelled,
            t.ended || event.releases? == some id) := by
      intro hmarks hitem
      rw [hmarks, Engine.marks_eq ht]
      cases event with
      | work item => cases hitem
      | _ => simp [Stage.told?, Event.releases?, Event.item?]
    cases h with
    | work => exact (Engine.workedOff_perform plugins _ _).notes hn id t ht
    | @task e before after task hqueue =>
      apply same _ rfl
      cases task with
      | start other =>
        simp only [take]
        split
        · rfl
        next s hs =>
          have hs' : e.thread? s.id = some s := by rwa [hn _ _ hs]
          have hset := Engine.custody_setThread hs' s.sameMarks_resume
          exact congrFun (Engine.marks_of_custody hset) id
      | begin script => rfl
      | resume context rest => rfl
    | ask query =>
      have hanswer := Engine.custody_answer hn query
      exact same (congrFun (Engine.marks_of_custody hanswer) id) rfl
    | @permits e tag count =>
      apply same _ rfl
      have hapart : e.Apart id (e.givePermits tag count) := Engine.apart_givePermits tag count
      rw [Engine.marks, Engine.marks, Engine.look, Engine.look, hapart.thread]
    | letGo => exact same rfl rfl
    | outside host log => exact same rfl rfl
  rw [Engine.marks_eq ht'] at hmarks
  exact ⟨congrArg Prod.fst hmarks, congrArg Prod.snd hmarks⟩

/-- A thread that is gone stays gone. -/
theorem Step.destroyed (h : Step plugins m event m') (hn : m.engine.Numbered)
    (hgone : m.engine.phase? id = some .destroyed) : m'.engine.phase? id = some .destroyed := by
  cases h.ages hn id with
  | same hends hclears hphase => exact hphase.trans hgone
  | born hnone hafter => cases hnone.symm.trans hgone
  | ending hends hafter => cases (Event.ends?_eq_some_iff.1 hends).2.symm.trans hgone
  | cleared hclears hafter => exact hafter

theorem Orderly.destroyed_of_releases (ho : Orderly m) (h : Step plugins m event m')
    (hreleases : event.releases? = some id) : m.engine.phase? id = some .destroyed := by
  have hstacked := ho.stacked
  cases event with
  | work item =>
    cases item with
    | release other =>
      cases hreleases
      obtain ⟨rest, hstack⟩ := h.stack_of_event
      rw [hstack] at hstacked
      exact hstacked.release.1
    | _ => cases hreleases
  | _ => cases hreleases

/-- The tickets noted are those of the scripts that were told to stop, and what has ended is
gone. -/
structure Noted (id : ThreadId) (stages : List (Stage σ)) (m : Machine σ) : Prop where
  cancelled : ∀ t, m.engine.thread? id = some t →
    t.cancelled = ((tellings id stages).map (·.context.ticket)).reverse
  ended : ∀ t, m.engine.thread? id = some t → t.ended = true → t.phase = .destroyed
  unborn : m.engine.thread? id = none → tellings id stages = []

theorem Noted.step {stages : List (Stage σ)} (hnoted : Noted id stages m)
    (h : Step plugins m event m') (hm : Invariant m) (ho : Orderly m)
    (hunborn : m.engine.thread? id = none → Unborn id m) :
    Noted id (stages ++ [⟨m, event, m'⟩]) m' := by
  have htellings : tellings id (stages ++ [⟨m, event, m'⟩]) =
      tellings id stages ++ (Stage.told? id ⟨m, event, m'⟩).toList := filterMap_snoc _ _ _
  rcases ht : m.engine.thread? id with _ | t
  · -- nothing is told on behalf of a thread that is still to come
    have hother := (hunborn ht).not_concerns h
    have htold : Stage.told? id ⟨m, event, m'⟩ = none := by
      cases event with
      | work item =>
        cases item with
        | abort aborted =>
          have hne : aborted.context.thread ≠ id := by
            intro hid
            have howner : (Work.abort aborted : Work σ).owner? = some id := congrArg some hid
            cases (Work.concerns_of_owner howner).symm.trans hother
          simp [Stage.told?, Work.aborts?, hne]
        | _ => rfl
      | _ => rfl
    have hnone : tellings id (stages ++ [⟨m, event, m'⟩]) = [] := by
      rw [htellings, htold, hnoted.unborn ht]
      rfl
    constructor
    · intro t' ht'
      obtain ⟨overrides, program, services, hcreates⟩ := h.creates hm.numbered ht ht'
      obtain ⟨start, -, -, rfl⟩ := ThreadState.create_eq_ok hcreates.create
      rw [hnone]
      rfl
    · intro t' ht' hended
      obtain ⟨overrides, program, services, hcreates⟩ := h.creates hm.numbered ht ht'
      obtain ⟨start, -, -, rfl⟩ := ThreadState.create_eq_ok hcreates.create
      cases hended
    · intro _
      exact hnone
  · constructor
    · intro t' ht'
      obtain ⟨hcancelled, -⟩ := h.notes hm.numbered ht ht'
      rw [hcancelled, hnoted.cancelled t ht, htellings]
      cases Stage.told? id ⟨m, event, m'⟩ <;> simp
    · intro t' ht' hended
      obtain ⟨-, hsame⟩ := h.notes hm.numbered ht ht'
      have hgone : m.engine.phase? id = some .destroyed := by
        rw [hsame, Bool.or_eq_true] at hended
        rcases hended with hended | hreleases
        · rw [Engine.phase?_eq ht, hnoted.ended t ht hended]
        · exact ho.destroyed_of_releases h (eq_of_beq hreleases)
      have hgone' := h.destroyed hm.numbered hgone
      rw [Engine.phase?_eq ht'] at hgone'
      exact Option.some.inj hgone'
    · intro hnone
      obtain ⟨t', ht', -⟩ := h.affects hm.numbered ht
      cases ht'.symm.trans hnone

theorem Run.noted {host : σ} {config : CoreConfig} {stages : List (Stage σ)}
    (h : Run plugins (opened host config) stages m) (hquiet : plugins.AbortQuietly)
    (id : ThreadId) : Noted id stages m := by
  induction h with
  | start =>
    have hnone : (opened host config).engine.thread? id = none := by
      simp [opened, Engine.new, Engine.thread?]
    constructor
    · intro t ht
      cases hnone.symm.trans ht
    · intro t ht
      cases hnone.symm.trans ht
    · intro _
      rfl
  | step hrun hstep ih =>
    exact ih.step hstep hrun.invariant (hrun.orderly hquiet) fun hnone => hrun.unborn hnone

/-! ## The bottom of the stack -/

/-- No script is anywhere but at the bottom of the stack. -/
def Grounded (stack : List (Work σ)) : Prop := ∀ work ∈ stack.dropLast, work.isScript = false

/-- Only a script leaves a script to do, and below everything else that it leaves. -/
theorem scripts_of_workedOff {e e' : Engine σ} {work : Work σ} {todo : List (Work σ)}
    (h : e.WorkedOff plugins work todo e') :
    ∃ (above : List (Work σ)) (last : Option (Work σ)), todo = above ++ last.toList ∧
      (∀ next ∈ above, next.isScript = false) ∧ ∀ next ∈ last, next.isScript = work.isScript := by
  have only : ∀ {work : Work σ} {todo : List (Work σ)},
      (∀ next ∈ todo, next.isScript = false) →
      ∃ (above : List (Work σ)) (last : Option (Work σ)), todo = above ++ last.toList ∧
        (∀ next ∈ above, next.isScript = false) ∧ ∀ next ∈ last, next.isScript = work.isScript := by
    intro work todo htodo
    refine ⟨todo, none, by simp, htodo, ?_⟩
    rintro next ⟨⟩
  cases h with
  | @asked _ next query hasks hnext =>
    refine ⟨(e.answer query).todo, some next, rfl, Engine.isScript_answer query, ?_⟩
    rintro _ ⟨⟩
    cases hnext <;> rfl
  | @continued _ next _ _ _ hasks hnext =>
    refine ⟨[], some next, rfl, by simp, ?_⟩
    rintro _ ⟨⟩
    cases hnext <;> rfl
  | completed ht hprep => exact only (Engine.isScript_advanceWork _ _)
  | @cleared id =>
    apply only
    cases e.look id none (·.inFlight) <;> simp [Work.isScript]
  | _ => exact only (by simp [Work.isScript])

theorem Step.grounded (h : Step plugins m event m') (hg : Grounded m.stack) :
    Grounded m'.stack := by
  cases h with
  | @work e work rest =>
    have hworked := Engine.workedOff_perform plugins e work
    obtain ⟨todo, last, hperform, htodo, hlast⟩ := scripts_of_workedOff hworked
    intro next hnext
    simp only [hperform] at hnext
    by_cases hrest : rest = []
    · -- the item was at the bottom itself
      subst hrest
      rw [List.append_nil] at hnext
      cases last with
      | none =>
        rw [Option.toList_none, List.append_nil] at hnext
        exact htodo next (List.dropLast_subset _ hnext)
      | some last =>
        rw [Option.toList_some, List.dropLast_concat] at hnext
        exact htodo next hnext
    · -- there is something below, so the item is no script and leaves none
      rw [List.dropLast_append_of_ne_nil hrest] at hnext
      have hwork : work.isScript = false := by
        apply hg
        show work ∈ (work :: rest).dropLast
        rw [List.dropLast_cons_of_ne_nil hrest]
        exact List.mem_cons_self
      rcases List.mem_append.1 hnext with hnext | hnext
      · rcases List.mem_append.1 hnext with hnext | hnext
        · exact htodo next hnext
        · rw [hlast next (Option.mem_toList.1 hnext), hwork]
      · apply hg
        show next ∈ (work :: rest).dropLast
        rw [List.dropLast_cons_of_ne_nil hrest]
        exact List.mem_cons_of_mem _ hnext
  | @task e before after task hqueue =>
    cases task with
    | start other =>
      simp only [take]
      split
      · simp [Grounded]
      · intro next hnext
        exact Engine.isScript_advanceWork _ _ next (List.dropLast_subset _ hnext)
    | begin script => simp [take, Grounded]
    | resume context rest => simp [take, Grounded]
  | @ask e query =>
    intro next hnext
    have hmem : next ∈ (e.answer query).todo := by
      simpa [Machine.ask] using List.dropLast_subset _ hnext
    exact Engine.isScript_answer query next hmem
  | permits tag count => simp [Grounded]
  | letGo => simp [Grounded]
  | outside host log => simp [Grounded]

theorem Run.grounded {start : Machine σ} {stages : List (Stage σ)}
    (h : Run plugins start stages m) (hstart : Grounded start.stack) : Grounded m.stack := by
  induction h with
  | start => exact hstart
  | step hrun hstep ih => exact hstep.grounded ih

/-- While a script is executed, nothing else is to be done. -/
theorem Grounded.alone {stack rest : List (Work σ)} {work : Work σ} (hg : Grounded stack)
    (hstack : stack = work :: rest) (hwork : work.isScript = true) : rest = [] := by
  by_cases hrest : rest = []
  · exact hrest
  · have hnot : work.isScript = false := by
      apply hg
      rw [hstack, List.dropLast_cons_of_ne_nil hrest]
      exact List.mem_cons_self
    cases hnot.symm.trans hwork

/-! ## Tokens -/

/-- Nothing is to be done, or a script is executed. -/
def AtRest (m : Machine σ) : Prop := ∀ work ∈ m.stack.head?, work.isScript = true

/-- Whatever is on the stack then is a script. -/
theorem AtRest.scripts (hrest : m.AtRest) (hg : Grounded m.stack) :
    ∀ work ∈ m.stack, work.isScript = true := by
  intro work hwork
  rcases hstack : m.stack with _ | ⟨first, rest⟩
  · rw [hstack] at hwork
    cases hwork
  · have hfirst := hrest first (by simp [hstack])
    rw [hstack, hg.alone hstack hfirst] at hwork
    rwa [List.mem_singleton.1 hwork]

/-- Then no thread is being destroyed. -/
theorem AtRest.not_destroying (hrest : m.AtRest) (hg : Grounded m.stack) (ho : Orderly m) :
    m.engine.phase? id ≠ some .destroying := by
  intro hdestroying
  obtain ⟨work, hwork, hclears⟩ := List.mem_filterMap.1 ((ho.destroying id).2 hdestroying)
  have hscript := hrest.scripts hg work hwork
  cases work with
  | clear other => cases hscript
  | _ => cases hclears

/-- Then nobody is still to be told. -/
theorem AtRest.toTell?_eq_none (hrest : m.AtRest) : m.toTell? id = none := by
  unfold toTell?
  rcases hab : m.stack.head?.bind Work.aborts? with _ | aborted
  · rfl
  · obtain ⟨work, hwork, hab⟩ := Option.bind_eq_some_iff.1 hab
    have hscript := hrest work hwork
    cases work with
    | abort other => cases hscript
    | _ => cases hab

/-- The script in flight under a ticket is the one that was dispatched under it. -/
theorem Ledger.inFlight_of_current {stages : List (Stage σ)} (hl : Ledger id stages m)
    (ht : m.engine.thread? id = some t) {a : Instance} (ha : a ∈ dispatches id stages)
    (hcurrent : t.isCurrent a.context.ticket = true) : m.engine.InFlight a.context := by
  obtain ⟨hphase, b, hb, hticket⟩ := ThreadState.isCurrent_iff.1 hcurrent
  have hmem : b ∈ dispatches id stages := by
    rw [hl.balance, slot_eq ht, hb]
    exact List.mem_append_right _ (List.mem_singleton_self b)
  have hsame := hl.unique hmem ha hticket
  have hthread := (hl.bounded a ha).1
  refine ⟨t, b, ?_, hphase, hb, congrArg _ hsame⟩
  rwa [hthread]

/-- A script that is somewhere is the one in flight just when its ticket is. -/
theorem Run.inFlight_iff {host : σ} {config : CoreConfig} {stages : List (Stage σ)}
    (h : Run plugins (opened host config) stages m) (hheld : context ∈ m.held)
    (ht : m.engine.thread? context.thread = some t) :
    m.engine.InFlight context ↔ t.isCurrent context.ticket = true := by
  constructor
  · rintro ⟨s, a, hs, hphase, ha, heq⟩
    cases ht.symm.trans hs
    exact ThreadState.isCurrent_iff.2 ⟨hphase, a, ha, congrArg _ heq⟩
  · intro hcurrent
    obtain ⟨a, ha, heq⟩ := h.custody.dispatched context hheld
    have hl := (h.ledger context.thread).1
    rw [← heq] at hcurrent ⊢
    exact hl.inFlight_of_current ht ha hcurrent

/-- A script that is somewhere and has lost its place was told to stop. -/
theorem Custody.told {stages : List (Stage σ)} (hc : Custody stages m)
    (hl : Ledger context.thread stages m) (hheld : context ∈ m.held)
    (htell : m.toTell? context.thread = none) (hslot : ∀ a, m.slot context.thread = some a →
      a.context ≠ context) :
    ∃ a ∈ tellings context.thread stages, a.context = context := by
  obtain ⟨a, ha, heq⟩ := hc.dispatched context hheld
  have hretired : ∃ manner, (a, manner) ∈ retirements context.thread stages := by
    rw [hl.balance] at ha
    rcases List.mem_append.1 ha with ha | ha
    · obtain ⟨⟨b, manner⟩, hb, hba⟩ := List.mem_map.1 ha
      cases hba
      exact ⟨manner, hb⟩
    · exact absurd heq (hslot a (Option.mem_toList.1 ha))
  obtain ⟨manner, hretired⟩ := hretired
  have htells := hc.unsettled context hheld a manner hretired heq
  refine ⟨a, ?_, heq⟩
  -- nobody is still to be told, so all who had to be told were
  have htold := hl.told
  rw [htell, Option.toList_none, List.append_nil] at htold
  rw [htold]
  exact List.mem_map.2 ⟨_, List.mem_filter.2 ⟨hretired, htells⟩, rfl⟩

/-- A script was told to stop, or its thread has ended, just when it is not the one in flight. -/
theorem Run.cancelled_iff {host : σ} {config : CoreConfig} {stages : List (Stage σ)}
    (h : Run plugins (opened host config) stages m) (hquiet : plugins.AbortQuietly)
    (hrest : m.AtRest) (hheld : context ∈ m.held) (ht : m.engine.thread? context.thread = some t) :
    t.isCancelled context.ticket = true ↔ t.isCurrent context.ticket = false := by
  have hl := (h.ledger context.thread).1
  have hc := h.custody
  have ho := h.orderly hquiet
  have hg := h.grounded (by simp [Grounded, opened])
  have hnoted := h.noted hquiet context.thread
  have hcancelled : t.isCancelled context.ticket = true ↔
      t.ended = true ∨ ∃ a ∈ tellings context.thread stages, a.context.ticket = context.ticket := by
    simp [ThreadState.isCancelled, hnoted.cancelled t ht]
  rw [hcancelled]
  constructor
  · rintro (hended | ⟨a, ha, hticket⟩)
    · -- a thread that has ended is gone
      have hgone := hnoted.ended t ht hended
      simp [ThreadState.isCurrent, ThreadState.isRunning, hgone]
    · -- a script that was told to stop was retired
      have hmem : a ∈ toldOf (retirements context.thread stages) := by
        rw [← hl.told]
        exact List.mem_append_left _ ha
      obtain ⟨⟨b, manner⟩, hb, hba⟩ := List.mem_map.1 hmem
      cases hba
      rw [← hticket]
      exact hl.not_current (List.mem_filter.1 hb).1 ht
  · intro hcurrent
    right
    have hslot : ∀ a, m.slot context.thread = some a → a.context ≠ context := by
      intro a ha heq
      rw [slot_eq ht] at ha
      -- a thread with a script in flight is not gone, and at rest none is being destroyed
      have hrunning : t.phase = .running := by
        have hnot : m.engine.phase? context.thread ≠ some .destroying :=
          hrest.not_destroying hg ho
        have hbare := h.bare ht
        rw [Engine.phase?_eq ht] at hnot
        cases hphase : t.phase with
        | running => rfl
        | destroying => exact absurd (congrArg some hphase) hnot
        | destroyed => cases (hbare hphase).2.2.symm.trans ha
      have hstill : t.isCurrent context.ticket = true :=
        ThreadState.isCurrent_iff.2 ⟨hrunning, a, ha, congrArg _ heq⟩
      cases hcurrent.symm.trans hstill
    obtain ⟨a, ha, heq⟩ := hc.told hl hheld hrest.toTell?_eq_none hslot
    exact ⟨a, ha, congrArg _ heq⟩

/-- A transfer without an entry label is judged by the place of the script alone. -/
theorem reply_transfer {e : Engine σ} (ht : e.thread? context.thread = some t)
    (program : Sequence) :
    (e.answer (.transfer context program none)).reply =
      if t.isCurrent context.ticket then .ok () else .error (e.refusal context) := by
  have hreply : (e.answer (.transfer context program none)).reply =
      (match t.transfer (some context) program none with
        | .error error => .error error
        | .ok _ => .ok ()) := by
    simp only [Engine.answer, Engine.transfer, ht]
    split <;> simp_all [Engine.respond]
  rw [hreply]
  by_cases hcurrent : t.isCurrent context.ticket = true
  · obtain ⟨hphase, -⟩ := ThreadState.isCurrent_iff.1 hcurrent
    have hcaller : ∀ other, some context = some other → t.isCurrent other.ticket = true := by
      rintro other ⟨⟩
      exact hcurrent
    have hentry : program.entry none = .ok 0 := rfl
    have hprep := ThreadState.Prepares.executed hphase hcaller hentry
    rw [hprep.transfer_eq, if_pos hcurrent]
  · have hnot := Bool.eq_false_iff.2 hcurrent
    rw [transfer_of_not_current hnot, if_neg hcurrent, Engine.refusal, Engine.phase?_eq ht]
    simp [ThreadState.isRunning_iff]

/-- Whenever a script is executed, it is told the truth about its place, and that is what its
requests are judged by. -/
theorem Run.token_agrees {host : σ} {config : CoreConfig} {stages : List (Stage σ)}
    (h : Run plugins (opened host config) stages m) (hquiet : plugins.AbortQuietly)
    {code : Behaviour σ Wait Outcome} (hexec : m.stack.head? = some (.script context code)) :
    m.engine.Agreement context := by
  have hmem := List.mem_of_head? hexec
  have hrest : m.AtRest := by
    intro work hwork
    cases hexec.symm.trans hwork
    rfl
  have hheld : context ∈ m.held :=
    List.mem_append_left _ (List.mem_filterMap.2 ⟨_, hmem, rfl⟩)
  -- a script on the stack belongs to a thread that is there
  obtain ⟨t, ht⟩ : ∃ t, m.engine.thread? context.thread = some t := by
    rcases hnone : m.engine.thread? context.thread with _ | t
    · have hnothing := List.filter_eq_nil_iff.1 (h.unborn hnone).stack _ hmem
      exact absurd (Work.concerns_of_owner rfl) hnothing
    · exact ⟨t, rfl⟩
  have hcancelled := h.cancelled_iff hquiet hrest hheld ht
  have htoken : (m.engine.answer (.isCancelled context)).reply = t.isCancelled context.ticket :=
    Engine.look_eq ht
  have hflight := h.inFlight_iff hheld ht
  constructor
  · rw [htoken, hcancelled, hflight, Bool.not_eq_true]
  · intro program
    rw [htoken, hcancelled, reply_transfer ht]
    cases t.isCurrent context.ticket <;> simp
  · intro program
    rw [htoken, ← Bool.not_eq_true, hcancelled, reply_transfer ht]
    cases t.isCurrent context.ticket <;> simp

/-- The first script of the small run, executed after its thread was handed to another program: it
is told that it was cancelled. -/
theorem Run.token_agrees_nested :
    ∃ stages context code, Run idlePlugins (opened () sampleConfig) stages
        (nestedSample.runTasks idlePlugins 1) ∧
      (nestedSample.runTasks idlePlugins 1).stack.head? = some (.script context code) ∧
      (nestedSample.runTasks idlePlugins 1).engine.Agreement context ∧
      ((nestedSample.runTasks idlePlugins 1).engine.answer (.isCancelled context)).reply = true := by
  have hquiet : idlePlugins.AbortQuietly := fun _ _ => .pure ()
  obtain ⟨stages, hnested⟩ := exists_run_nestedSample
  obtain ⟨more, hrun⟩ := hnested.runTasks 1
  have hexec : (nestedSample.runTasks idlePlugins 1).stack.head? = some (.script _ _) := rfl
  exact ⟨_, _, _, hrun, hexec, Run.token_agrees hrun hquiet hexec, rfl⟩

end Machine
end SentenceEngine
