import SentenceEngine.Proofs.Notifications
import SentenceEngine.Proofs.Tokens

/-!
# The lives of threads as services hear of them

What the services of a thread are told of it makes up a well-formed trace, whatever scripts and
outside callers do in which order: the creation comes first, every script is told of before it runs
and at most once after it has ended, nothing but the end of the thread follows an error, and nothing
at all follows its end.

* `News.Follows`, `News.Trace`: the traces that are well-formed.
* `Machine.Chronicle`: what there was to tell of a thread, against where its scripts are.
* `Machine.Lifecycle`, `Machine.Run.lifecycle`: what every service of a thread hears.
-/

namespace SentenceEngine

variable {σ : Type}

namespace News

/-- The script that is about to run. -/
def before? : News → Option Context
  | .before context => some context
  | _ => none

/-- Whether nothing but the end of the thread may follow. -/
def isFinal : News → Bool
  | .error _ => true
  | .willDestroy => true
  | _ => false

/-- What may be told of a thread after what was told of it earlier. -/
inductive Follows (earlier : List News) : News → Prop
  | created (hfirst : earlier = []) : Follows earlier .created
  /-- Scripts are told of in the order of their tickets. -/
  | before {context : Context} (hcreated : .created ∈ earlier)
      (hopen : ∀ news ∈ earlier, news.isFinal = false)
      (hticket : ∀ other, .before other ∈ earlier → other.ticket < context.ticket) :
      Follows earlier (.before context)
  | after {context : Context} (hopen : ∀ news ∈ earlier, news.isFinal = false)
      (hbefore : .before context ∈ earlier) (honce : .after context ∉ earlier) :
      Follows earlier (.after context)
  | error {problem : ThreadError} (hcreated : .created ∈ earlier)
      (hopen : ∀ news ∈ earlier, news.isFinal = false) : Follows earlier (.error problem)
  | willDestroy (hcreated : .created ∈ earlier) (honce : .willDestroy ∉ earlier) :
      Follows earlier .willDestroy

/-- What can be told of a thread, one thing after the other. -/
inductive Trace : List News → Prop
  | nil : Trace []
  | snoc {earlier : List News} {news : News} (htrace : Trace earlier)
      (hnext : Follows earlier news) : Trace (earlier ++ [news])

/-- The creation comes first. -/
theorem Trace.head? {trace : List News} (h : Trace trace) (hne : trace ≠ []) :
    trace.head? = some .created := by
  induction h with
  | nil => exact absurd rfl hne
  | @snoc earlier news htrace hnext ih =>
    rcases hearlier : earlier with _ | ⟨first, rest⟩
    · subst hearlier
      cases hnext with
      | created => rfl
      | before hcreated => cases hcreated
      | after hopen hbefore => cases hbefore
      | error hcreated => cases hcreated
      | willDestroy hcreated => cases hcreated
    · have hfirst := ih (by simp [hearlier])
      rw [hearlier] at hfirst
      exact hfirst

/-- A script that has ended was told of before. -/
theorem Trace.before_of_after {trace : List News} (h : Trace trace) {context : Context}
    (hafter : .after context ∈ trace) : .before context ∈ trace := by
  induction h with
  | nil => cases hafter
  | snoc htrace hnext ih =>
    rcases List.mem_append.1 hafter with hold | hnew
    · exact List.mem_append_left _ (ih hold)
    · rw [List.mem_singleton] at hnew
      subst hnew
      cases hnext with
      | after hopen hbefore => exact List.mem_append_left _ hbefore

end News

namespace Machine

variable {plugins : Plugins σ} {m m' : Machine σ} {event : Event σ} {id : ThreadId}
  {t t' : ThreadState} {e e' : Engine σ} {todo : List (Work σ)} {stages : List (Stage σ)}

/-! ## Dispatches that are arrived at -/

/-- The dispatches of a thread among items of work. -/
def arrivalsIn (id : ThreadId) (items : List (Work σ)) : List Instance :=
  ((items.filterMap Work.arrives?).filter (·.1 == id)).map (·.2)

/-- The scripts of a thread that were dispatched and are still to be told of. -/
def arriving (id : ThreadId) (m : Machine σ) : List Context :=
  (arrivalsIn id m.stack).map (·.context)

theorem arrivalsIn_append (xs ys : List (Work σ)) :
    arrivalsIn id (xs ++ ys) = arrivalsIn id xs ++ arrivalsIn id ys := by
  simp [arrivalsIn]

theorem mem_arrivalsIn {items : List (Work σ)} {a : Instance} :
    a ∈ arrivalsIn id items ↔ .arrive id (.dispatch a) ∈ items := by
  have harrives : ∀ work : Work σ, work.arrives? = some (id, a) ↔
      work = .arrive id (.dispatch a) := by
    intro work
    cases work with
    | arrive other arrival => cases arrival <;> simp [Work.arrives?]
    | _ => simp [Work.arrives?]
  simp [arrivalsIn, List.mem_filter, List.mem_filterMap, harrives]

theorem arrivalsIn_eq_nil {items : List (Work σ)}
    (h : ∀ work ∈ items, work.Calm ∨ work.Interrupts) : arrivalsIn id items = [] := by
  rw [List.eq_nil_iff_forall_not_mem]
  intro a ha
  rcases h _ (mem_arrivalsIn.1 ha) with hcalm | hinterrupts
  · exact hcalm
  · exact hinterrupts

/-- What a step dispatches for a thread is arrived at next. -/
theorem Custody.arrivals (hc : Custody stages m) (hl : ∀ id, Ledger id stages m)
    (h : Step plugins m event m') (hm : Invariant m) (hstack : m'.stack = todo ++ m.stack.tail) :
    arrivalsIn id todo = (Stage.dispatched? id ⟨m, event, m'⟩).toList := by
  obtain ⟨script, todo', htakes, hstack', harrives, -⟩ := h.hands hm.numbered
  have htodo : todo' = todo := List.append_cancel_right (hstack'.symm.trans hstack)
  subst htodo
  have hscript : arrivalsIn id todo' = (script.filter (·.context.thread == id)).toList := by
    rw [arrivalsIn, harrives]
    cases script with
    | none => rfl
    | some a => by_cases hid : a.context.thread = id <;> simp [hid, Option.filter]
  rw [hscript]
  congr 1
  rcases hdispatched : Stage.dispatched? id ⟨m, event, m'⟩ with _ | b
  · -- what takes the slot is dispatched
    rw [Option.filter_eq_none_iff]
    rintro a ha hid
    have htaken : Stage.dispatched? a.context.thread ⟨m, event, m'⟩ = some a :=
      Stage.dispatched?_of_takes (htakes a ha)
    rw [eq_of_beq hid, hdispatched] at htaken
    cases htaken
  · -- what is dispatched is on the stack, and it was not there before
    obtain ⟨aborted, rest, hshows⟩ := ((h.booked hm id).fresh b hdispatched).2.2.2
    have hmem : .arrive id (.dispatch b) ∈ m'.stack := by
      have harrive : (.arrive id (.dispatch b) : Work σ) ∈
          Engine.advanceWork id ⟨aborted, .dispatch b⟩ := by
        rcases Engine.advanceWork_cases (σ := σ) id ⟨aborted, .dispatch b⟩ with
          ⟨script, htodo⟩ | htodo
        · simp [htodo]
        · simp [htodo]
      rw [hshows]
      exact List.mem_append_left _ harrive
    rw [hstack'] at hmem
    rcases List.mem_append.1 hmem with hmem | hmem
    · rw [← mem_arrivalsIn, hscript] at hmem
      exact Option.mem_toList.1 hmem
    · exfalso
      have hheld : b.context ∈ m.held :=
        List.mem_append_left _ (List.mem_filterMap.2 ⟨_, List.mem_of_mem_tail hmem, rfl⟩)
      obtain ⟨a, ha, heq⟩ := hc.dispatched _ hheld
      have hthread := ((h.booked hm id).fresh b hdispatched).1
      rw [hthread] at ha
      exact (hl id).ne_of_dispatched h hm ha hdispatched heq

/-- While a script is told to stop, nothing else comes up. -/
theorem Leaves.interrupts {work : Work σ} (h : Leaves e (.work work) todo e')
    (hwork : work.Interrupts) : ∀ next ∈ todo, next.Interrupts := by
  cases h with
  | brings hevent => exact absurd hwork hevent.not_interrupts
  | code hevent => exact absurd hwork hevent.not_interrupts
  | round => exact hwork.elim
  | interrupted next hfirst hnext =>
    intro other hother
    exact hnext other (Option.mem_toList.1 hother)
  | ending hrunning => exact hwork.elim
  | cleared => exact hwork.elim

/-- A step dispatches nothing while a dispatch is arrived at below. -/
theorem Orderly.arrivals_below (ho : Orderly m) (h : Step plugins m event m')
    (hleaves : Leaves m.engine event todo m'.engine) :
    arrivalsIn id todo = [] ∨ arrivalsIn id m.stack.tail = [] := by
  by_cases hwork : ∃ work, event = .work work ∧ work.Interrupts
  · obtain ⟨work, rfl, hwork⟩ := hwork
    left
    apply arrivalsIn_eq_nil
    intro next hnext
    exact .inr (hleaves.interrupts hwork next hnext)
  · right
    have hhead : ∀ work ∈ m.stack.head?, ¬ work.Interrupts := by
      rw [h.head?_eq]
      intro work hitem hinterrupts
      cases event with
      | work item =>
        cases hitem
        exact hwork ⟨_, rfl, hinterrupts⟩
      | _ => cases hitem
    apply arrivalsIn_eq_nil
    intro work hmem
    exact .inl (ho.stacked.calm_tail hhead work hmem)

/-- To arrive at a dispatch is to have the services told of the script. -/
theorem arrivalsIn_item (id : ThreadId) (event : Event σ) (m m' : Machine σ) :
    (arrivalsIn id event.item?.toList).map (·.context) =
      ((Stage.news? id ⟨m, event, m'⟩).bind News.before?).toList := by
  have nothing : (∀ other news, event.news? m.engine = some (other, news) → news.before? = none) →
      (∀ item ∈ event.item?, item.arrives? = none) →
      (arrivalsIn id event.item?.toList).map (·.context) =
        ((Stage.news? id ⟨m, event, m'⟩).bind News.before?).toList := by
    intro hnews hitem
    have hleft : event.item?.toList.filterMap Work.arrives? = [] := by
      rw [List.filterMap_eq_nil_iff]
      intro item hmem
      exact hitem item (Option.mem_toList.1 hmem)
    have hright : (Stage.news? id ⟨m, event, m'⟩).bind News.before? = none := by
      rw [Option.bind_eq_none_iff]
      intro news htold
      exact hnews id news (Stage.news?_eq_some_iff.1 htold)
    rw [arrivalsIn, hleft, hright]
    rfl
  unfold Event.news? at nothing
  split at nothing
  next other dispatched =>
    by_cases hid : other = id <;>
      simp [arrivalsIn, Event.item?, Work.arrives?, Stage.news?, Event.news?, News.before?, hid,
        Option.filter]
  next context done =>
    apply nothing
    · intro other news hnews
      split at hnews
      · cases hnews
        rfl
      · cases hnews
    · rintro item ⟨⟩
      rfl
  next other problem =>
    apply nothing
    · rintro other news ⟨⟩
      rfl
    · rintro item ⟨⟩
      rfl
  next other =>
    apply nothing
    · intro other news hnews
      split at hnews
      · cases hnews
        rfl
      · cases hnews
    · rintro item ⟨⟩
      rfl
  next hdispatch _ _ _ =>
    apply nothing
    · intro other news hnews
      obtain ⟨created, -, heq⟩ := Option.map_eq_some_iff.1 hnews
      cases heq
      rfl
    · intro item hitem
      cases event with
      | work work =>
        cases hitem
        cases item with
        | arrive other arrival =>
          cases arrival with
          | dispatch dispatched => exact absurd rfl (hdispatch other dispatched)
          | _ => rfl
        | _ => rfl
      | _ => cases hitem

/-! ## Threads at their end -/

/-- The destruction of a thread comes next, after a round of the services. -/
def Doomed (id : ThreadId) (m : Machine σ) : Prop :=
  ∃ above rest, m.stack = above ++ .destroy id :: rest ∧ ∀ work ∈ above, work.isRound = true

/-- There is nothing to tell in the course of a round. -/
theorem Tells.news?_of_round {work : Work σ} (h : Tells plugins e (.work work) todo e')
    (hround : work.isRound = true) :
    (Event.work work).news? e = none ∧ ∀ next ∈ todo, next.isRound = true := by
  have loud : ¬ (Event.work work).IsSilent := by
    intro hsilent
    cases hround.symm.trans (hsilent work rfl)
  cases h with
  | silent hevent => exact absurd hevent loud
  | told news hevent => exact absurd hevent loud
  | announced hevent => exact absurd hevent loud
  | called => exact ⟨rfl, by simp [Work.isRound]⟩
  | finished => exact ⟨rfl, by simp⟩
  | spoken next hnews hquiet =>
    refine ⟨hnews, ?_⟩
    intro other hother
    obtain ⟨code, -, rfl⟩ := Option.map_eq_some_iff.1 (Option.mem_toList.1 hother)
    rfl

/-- All that there is to tell of a doomed thread, or of others meanwhile, is its end. -/
theorem Doomed.news (hd : Doomed id m) (h : Step plugins m event m')
    (htells : Tells plugins m.engine event todo m'.engine) {other : ThreadId} {news : News}
    (hnews : event.news? m.engine = some (other, news)) : news = .willDestroy := by
  obtain ⟨above, rest, hstack, habove⟩ := hd
  cases above with
  | nil =>
    cases h.event_of_stack hstack
    simp only [Event.news?, Option.ite_none_right_eq_some] at hnews
    obtain ⟨-, heq⟩ := hnews
    cases heq
    rfl
  | cons work above =>
    cases h.event_of_stack hstack
    cases (htells.news?_of_round (habove work List.mem_cons_self)).1.symm.trans hnews

/-- A doomed thread stays so until it is destroyed. -/
theorem Doomed.step (hd : Doomed id m) (h : Step plugins m event m')
    (hstack' : m'.stack = todo ++ m.stack.tail)
    (htells : Tells plugins m.engine event todo m'.engine) :
    event = .work (.destroy id) ∨ Doomed id m' := by
  obtain ⟨above, rest, hstack, habove⟩ := hd
  cases above with
  | nil => exact .inl (h.event_of_stack hstack)
  | cons work above =>
    right
    cases h.event_of_stack hstack
    have htodo := (htells.news?_of_round (habove work List.mem_cons_self)).2
    rw [hstack] at hstack'
    refine ⟨todo ++ above, rest, ?_, ?_⟩
    · rw [hstack', List.append_assoc]
      rfl
    · intro next hnext
      rcases List.mem_append.1 hnext with hnext | hnext
      · exact htodo next hnext
      · exact habove next (List.mem_cons_of_mem _ hnext)

/-! ## What there was to tell -/

namespace Event

/-- The services are told of the good end of a script where its code comes to it. -/
theorem event_of_after {context : Context} (h : event.news? e = some (id, .after context)) :
    context.thread = id ∧ e.phase? id = some .running ∧
      ∃ done, event = .work (.script context (.pure (.ok done))) := by
  unfold news? at h
  split at h
  next => cases h
  next other done =>
    simp only [Option.ite_none_right_eq_some, Option.some.injEq, Prod.mk.injEq,
      News.after.injEq] at h
    obtain ⟨hrunning, rfl, rfl⟩ := h
    exact ⟨rfl, hrunning, done, rfl⟩
  next => cases h
  next =>
    split at h <;> cases h
  next =>
    obtain ⟨other, -, heq⟩ := Option.map_eq_some_iff.1 h
    cases heq

theorem event_of_error {problem : ThreadError} (h : event.news? e = some (id, .error problem)) :
    event = .work (.fail id problem) := by
  unfold news? at h
  split at h
  next => cases h
  next =>
    split at h <;> cases h
  next =>
    cases h
    rfl
  next =>
    split at h <;> cases h
  next =>
    obtain ⟨other, -, heq⟩ := Option.map_eq_some_iff.1 h
    cases heq

/-- The services are told of the end of a thread where its destruction begins. -/
theorem news?_willDestroy_iff :
    event.news? e = some (id, .willDestroy) ↔ event.ends? e = some id := by
  rw [ends?_eq_some_iff]
  constructor
  · intro h
    unfold news? at h
    split at h
    next => cases h
    next =>
      split at h <;> cases h
    next => cases h
    next other =>
      simp only [Option.ite_none_right_eq_some, Option.some.injEq, Prod.mk.injEq, and_true] at h
      obtain ⟨hrunning, rfl⟩ := h
      exact ⟨rfl, hrunning⟩
    next =>
      obtain ⟨other, -, heq⟩ := Option.map_eq_some_iff.1 h
      cases heq
  · rintro ⟨rfl, hrunning⟩
    simp [news?, hrunning]

end Event

/-- What there was to tell of a thread, against the thread and where its scripts are. -/
structure Chronicle (id : ThreadId) (stages : List (Stage σ)) (m : Machine σ) : Prop where
  trace : News.Trace (history id stages)
  absent : m.engine.phase? id = none → history id stages = []
  created : m.engine.phase? id ≠ none → .created ∈ history id stages
  before : (history id stages).filterMap News.before? ++ arriving id m =
    (dispatches id stages).map (·.context)
  after : ∀ context, .after context ∈ history id stages →
    context ∉ m.held ∨ .complete context ∈ m.stack
  terminated : .willDestroy ∈ history id stages ↔ m.Terminated id
  failed : ∀ problem, .error problem ∈ history id stages → m.Terminated id ∨ Doomed id m

theorem not_terminated (hrunning : m.engine.phase? id = some .running) : ¬ m.Terminated id := by
  rw [terminated_iff]
  rintro ⟨phase, hphase, hne⟩
  cases hphase.symm.trans hrunning
  exact hne rfl

/-- While a script is executed, no dispatch is arrived at. -/
theorem Orderly.arriving_of_script (ho : Orderly m) {context : Context}
    {code : Behaviour σ Wait Outcome} {rest : List (Work σ)}
    (hstack : m.stack = .script context code :: rest) : arriving id m = [] := by
  have hcalm : ∀ work ∈ rest, work.Calm := by
    have htail := ho.stacked.calm_tail
    rw [hstack] at htail
    apply htail
    rintro work ⟨⟩
    exact fun h => h
  have hnone : arrivalsIn id m.stack = [] := by
    apply arrivalsIn_eq_nil
    rw [hstack]
    intro work hwork
    rcases List.mem_cons.1 hwork with rfl | hwork
    · exact .inl trivial
    · exact .inl (hcalm work hwork)
  rw [arriving, hnone]
  rfl

/-- What there is to tell next may follow what was told. -/
theorem Chronicle.follows (hc : Chronicle id stages m) (hcustody : Custody stages m)
    (hl : Ledger id stages m) (ho : Orderly m) (h : Step plugins m event m')
    (htells : Tells plugins m.engine event todo m'.engine) {news : News}
    (hnews : Stage.news? id ⟨m, event, m'⟩ = some news) :
    News.Follows (history id stages) news := by
  have hevent := Stage.news?_eq_some_iff.1 hnews
  rcases ho.news h hevent with ⟨rfl, hnone, -⟩ | ⟨hne, hrunning⟩
  · exact .created (hc.absent hnone)
  have hcreated : .created ∈ history id stages := by
    apply hc.created
    simp [hrunning]
  have hnot : ¬ m.Terminated id := not_terminated hrunning
  -- after an error the thread is doomed, and there is nothing to tell but its end
  have hopen : news ≠ .willDestroy → ∀ earlier ∈ history id stages, earlier.isFinal = false := by
    intro hother earlier hmem
    cases earlier with
    | error problem =>
      rcases hc.failed problem hmem with hgone | hdoomed
      · exact absurd hgone hnot
      · exact absurd (hdoomed.news h htells hevent) hother
    | willDestroy => exact absurd (hc.terminated.1 hmem) hnot
    | _ => rfl
  cases news with
  | created => exact absurd rfl hne
  | before context =>
    refine .before hcreated (hopen (by simp)) ?_
    have harrives : context ∈ arriving id m := by
      have hitem := arrivalsIn_item id event m m'
      rw [hnews] at hitem
      rw [arriving, h.stack_eq, arrivalsIn_append, List.map_append, hitem]
      simp [News.before?]
    have hincreasing : ((dispatches id stages).map (·.context)).Pairwise
        (·.ticket < ·.ticket) := List.pairwise_map.2 hl.increasing
    rw [← hc.before, List.pairwise_append] at hincreasing
    intro other hother
    exact hincreasing.2.2 other (List.mem_filterMap.2 ⟨_, hother, rfl⟩) context harrives
  | after context =>
    obtain ⟨rfl, -, done, rfl⟩ := Event.event_of_after hevent
    obtain ⟨rest, hstack⟩ := h.stack_of_event
    have hheld : context ∈ m.held := by
      rw [held, hstack]
      exact List.mem_append_left _ List.mem_cons_self
    refine .after (hopen (by simp)) ?_ ?_
    · -- the script was dispatched, and no dispatch is still to be told of
      obtain ⟨a, ha, heq⟩ := hcustody.dispatched context hheld
      have hmem : context ∈ (dispatches context.thread stages).map (·.context) :=
        List.mem_map.2 ⟨a, ha, heq⟩
      rw [← hc.before, ho.arriving_of_script hstack, List.append_nil] at hmem
      obtain ⟨news, hmem, hbefore⟩ := List.mem_filterMap.1 hmem
      cases news with
      | before other =>
        cases hbefore
        exact hmem
      | _ => cases hbefore
    · -- if it had ended before, it would be in a second place
      intro hmem
      rcases hc.after context hmem with hnowhere | hcomplete
      · exact hnowhere hheld
      · have honce := hcustody.once
        rw [hstack] at hcomplete
        rw [held, hstack, filterMap_cons_eq, List.append_assoc] at honce
        have hrest : .complete context ∈ rest := by simpa using hcomplete
        have htwice : context ∈ rest.filterMap Work.holds? ++ m.engine.stored :=
          List.mem_append_left _ (List.mem_filterMap.2 ⟨_, hrest, rfl⟩)
        exact (List.nodup_cons.1 honce).1 htwice
  | error problem => exact .error hcreated (hopen (by simp))
  | willDestroy =>
    refine .willDestroy hcreated ?_
    intro hmem
    exact hnot (hc.terminated.1 hmem)

/-- The scripts that were told of and those that are arrived at are those that were dispatched. -/
theorem Chronicle.before_step (hc : Chronicle id stages m) (hcustody : Custody stages m)
    (hl : ∀ id, Ledger id stages m) (ho : Orderly m) (hm : Invariant m)
    (h : Step plugins m event m') (hstack : m'.stack = todo ++ m.stack.tail)
    (hleaves : Leaves m.engine event todo m'.engine) :
    (history id (stages ++ [⟨m, event, m'⟩])).filterMap News.before? ++ arriving id m' =
      (dispatches id (stages ++ [⟨m, event, m'⟩])).map (·.context) := by
  have htodo : arrivalsIn id todo = (Stage.dispatched? id ⟨m, event, m'⟩).toList :=
    hcustody.arrivals hl h hm hstack
  have hitem := arrivalsIn_item id event m m'
  have hbefore : arriving id m = (arrivalsIn id event.item?.toList).map (·.context) ++
      (arrivalsIn id m.stack.tail).map (·.context) := by
    rw [← List.map_append, ← arrivalsIn_append, ← h.stack_eq]
    rfl
  have hafter : arriving id m' = (arrivalsIn id todo).map (·.context) ++
      (arrivalsIn id m.stack.tail).map (·.context) := by
    rw [← List.map_append, ← arrivalsIn_append, ← hstack]
    rfl
  have hdispatches : dispatches id (stages ++ [⟨m, event, m'⟩]) =
      dispatches id stages ++ (Stage.dispatched? id ⟨m, event, m'⟩).toList := filterMap_snoc _ _ _
  have hnews : (Stage.news? id ⟨m, event, m'⟩).toList.filterMap News.before? =
      (arrivalsIn id event.item?.toList).map (·.context) := by
    rw [hitem]
    cases Stage.news? id ⟨m, event, m'⟩ with
    | none => rfl
    | some news => cases hbefore : news.before? <;> simp [hbefore]
  have hold := hc.before
  rw [hbefore] at hold
  rw [history_snoc, List.filterMap_append, hnews, hdispatches, List.map_append, ← hold, hafter,
    ← htodo]
  -- what is dispatched comes last, since nothing else is arrived at
  have hbelow : arrivalsIn id todo = [] ∨ arrivalsIn id m.stack.tail = [] :=
    ho.arrivals_below h hleaves
  rcases hbelow with hnone | hnone <;> simp [hnone]

/-- A script whose good end was told is nowhere any more, or about to be completed. -/
theorem Chronicle.after_step (hc : Chronicle id stages m) (hcustody : Custody stages m)
    (hl : ∀ id, Ledger id stages m) (hm : Invariant m) (h : Step plugins m event m')
    (hstack : m'.stack = todo ++ m.stack.tail) {context : Context}
    (hmem : .after context ∈ history id (stages ++ [⟨m, event, m'⟩])) :
    context ∉ m'.held ∨ .complete context ∈ m'.stack := by
  rw [history_snoc] at hmem
  rcases List.mem_append.1 hmem with hold | hnew
  · rcases hc.after context hold with hnowhere | hcomplete
    · -- it does not come back: it was dispatched before
      left
      intro hheld
      rcases h.origin hm.numbered hheld with hbefore | ⟨a, ha, heq⟩
      · exact hnowhere hbefore
      · have hdispatched : context ∈ (dispatches id stages).map (·.context) := by
          rw [← hc.before]
          have hbefore := hc.trace.before_of_after hold
          exact List.mem_append_left _ (List.mem_filterMap.2 ⟨_, hbefore, rfl⟩)
        obtain ⟨b, hb, rfl⟩ := List.mem_map.1 hdispatched
        rw [((hl id).bounded b hb).1] at ha
        exact (hl id).ne_of_dispatched h hm hb ha heq.symm
    · by_cases hevent : event = .work (.complete context)
      · -- its end is worked off now
        left
        have honce := hcustody.nodup_step hl h hm
        rw [hevent] at honce
        exact (List.nodup_cons.1 honce).1
      · right
        rw [h.stack_eq] at hcomplete
        rw [hstack]
        rcases List.mem_append.1 hcomplete with hitem | htail
        · exfalso
          cases event with
          | work item =>
            cases Option.mem_toList.1 hitem
            exact hevent rfl
          | _ => cases hitem
        · exact List.mem_append_right _ htail
  · obtain ⟨rfl, hrunning, done, rfl⟩ :=
      Event.event_of_after (Stage.news?_eq_some_iff.1 (Option.mem_toList.1 hnew))
    right
    have hlook := Engine.look_isRunning_iff.2 hrunning
    cases h with
    | work => simp [perform, Engine.stepCode, settle, hlook]

theorem Chronicle.failed_step (hc : Chronicle id stages m) (ho : Orderly m) (hn : m.engine.Numbered)
    (h : Step plugins m event m') (hstack : m'.stack = todo ++ m.stack.tail)
    (htells : Tells plugins m.engine event todo m'.engine) {problem : ThreadError}
    (hmem : .error problem ∈ history id (stages ++ [⟨m, event, m'⟩])) :
    m'.Terminated id ∨ Doomed id m' := by
  rw [history_snoc] at hmem
  rcases List.mem_append.1 hmem with hold | hnew
  · rcases hc.failed problem hold with hgone | hdoomed
    · exact .inl ((h.terminated hn ho id).2 (.inl hgone))
    · rcases hdoomed.step h hstack htells with rfl | hdoomed
      · -- the thread is destroyed, unless it was before
        left
        rw [h.terminated hn ho id, terminated_iff]
        rcases hphase : m.engine.phase? id with _ | phase
        · rw [hc.absent hphase] at hold
          cases hold
        · by_cases hrunning : phase = .running
          · right
            rw [Event.ends?_eq_some_iff]
            exact ⟨rfl, by rw [hphase, hrunning]⟩
          · exact .inl ⟨phase, rfl, hrunning⟩
      · exact .inr hdoomed
  · have hevent := Event.event_of_error (Stage.news?_eq_some_iff.1 (Option.mem_toList.1 hnew))
    subst hevent
    right
    cases h with
    | @work e _ rest =>
      refine ⟨[.notify (e.servicesOf id) (.error id problem)], rest, rfl, ?_⟩
      simp [Work.isRound]

theorem Run.chronicle {host : σ} {config : CoreConfig}
    (h : Run plugins (opened host config) stages m) (habort : plugins.AbortQuietly)
    (hserve : plugins.ServeQuietly) (id : ThreadId) : Chronicle id stages m := by
  induction h with
  | start =>
    have hnone : (opened host config).engine.phase? id = none := by
      simp [opened, Engine.new, Engine.phase?, Engine.thread?]
    constructor
    · exact .nil
    · intro _
      rfl
    · intro hthere
      exact absurd hnone hthere
    · rfl
    · rintro context ⟨⟩
    · constructor
      · rintro ⟨⟩
      · rintro ⟨t, ht, -⟩
        cases (Engine.phase?_eq_none_iff.1 hnone).symm.trans ht
    · rintro problem ⟨⟩
  | @step stages m m' event hrun hstep ih =>
    have hm := hrun.invariant
    have hn := hm.numbered
    have ho := hrun.orderly habort
    have hcustody := hrun.custody
    have hl : ∀ id, Ledger id stages m := fun id => (hrun.ledger id).1
    have hrounds := hrun.rounds habort hserve
    obtain ⟨todo, hstack, htells⟩ := hstep.tells hn ho.stacked.ready
      fun notification code hhead => hrounds.quiet hhead
    obtain ⟨todo', hstack', hleaves⟩ := hstep.leaves habort hn ho.stacked.ready
    cases List.append_cancel_right (hstack.symm.trans hstack')
    have hsnoc := history_snoc id stages ⟨m, event, m'⟩
    constructor
    · rw [hsnoc]
      rcases hnews : Stage.news? id ⟨m, event, m'⟩ with _ | news
      · simpa using ih.trace
      · exact .snoc ih.trace (ih.follows hcustody (hl id) ho hstep htells hnews)
    · intro hnone
      exact (hrun.step hstep).history_eq_nil habort hnone
    · intro hthere
      rw [hsnoc]
      rcases hphase : m.engine.phase? id with _ | phase
      · -- the thread comes into being now
        obtain ⟨-, overrides, hasks, hreply⟩ := ho.born hstep hn hphase hthere
        have hcreates := Query.creates?_eq_some_iff.2 ⟨overrides, rfl, hreply⟩
        have hnews : Stage.news? id ⟨m, event, m'⟩ = some .created := by
          rw [Stage.news?_eq_some_iff, Event.news?_of_asks hasks, hcreates]
          rfl
        rw [hnews]
        exact List.mem_append_right _ (List.mem_singleton_self _)
      · exact List.mem_append_left _ (ih.created (by simp [hphase]))
    · exact ih.before_step hcustody hl ho hm hstep hstack hleaves
    · intro context hmem
      exact ih.after_step hcustody hl hm hstep hstack hmem
    · rw [hsnoc, List.mem_append, Option.mem_toList, ih.terminated, hstep.terminated hn ho id,
        ← Event.news?_willDestroy_iff, ← Stage.news?_eq_some_iff]
    · intro problem hmem
      exact ih.failed_step ho hn hstep hstack htells hmem

/-! ## What services hear -/

/-- What the services of a thread hear of it. -/
structure Lifecycle (plugins : Plugins σ) (id : ThreadId) (stages : List (Stage σ))
    (m : Machine σ) : Prop where
  /-- What there was to tell of the thread is in order, -/
  trace : News.Trace (history id stages)
  /-- and the creation came first. -/
  created : (history id stages).head? = some .created
  /-- Each dispatch was told of once and in the order of the tickets, but for one that may be still
  to be told of. -/
  before : (history id stages).filterMap News.before? ++ arriving id m =
    (dispatches id stages).map (·.context)
  tickets : (dispatches id stages).Pairwise (·.context.ticket < ·.context.ticket)
  /-- The end was told of just if the thread was terminated. -/
  terminated : .willDestroy ∈ history id stages ↔ m.Terminated id
  /-- Each service of the thread was called with all of it, but for what it is still to be told, -/
  heard : ∀ service ∈ m.engine.servicesOf id,
    heard service id stages ++ awaiting service id m =
      (history id stages).map (·.notification id)
  /-- and other services with nothing. -/
  unheard : ∀ service, service ∉ m.engine.servicesOf id → Machine.heard service id stages = []
  /-- To be called is to have one's code run next. -/
  called : ∀ s ∈ stages, ∀ service notification, s.event.hears? service id = some notification →
    ∃ rest, s.after.stack = .hook notification (plugins.service service notification) :: rest
  /-- As soon as nothing else is to be done, everything was told, and a thread with an error was
  terminated. -/
  settled : m.AtRest → arriving id m = [] ∧ (∀ service, awaiting service id m = []) ∧
    ∀ problem, .error problem ∈ history id stages → .willDestroy ∈ history id stages

/-- At rest no thread is doomed. -/
theorem AtRest.not_doomed (hrest : m.AtRest) (hg : Grounded m.stack) : ¬ Doomed id m := by
  rintro ⟨above, rest, hstack, -⟩
  have hmem : .destroy id ∈ m.stack := by
    rw [hstack]
    exact List.mem_append_right _ List.mem_cons_self
  cases hrest.scripts hg _ hmem

/-- The services of a thread hear the same well-formed trace of it, whatever the scripts and the
outside callers do, and whatever the services say in the end. -/
theorem Run.lifecycle {host : σ} {config : CoreConfig}
    (h : Run plugins (opened host config) stages m) (habort : plugins.AbortQuietly)
    (hserve : plugins.ServeQuietly) (ht : m.engine.thread? id = some t) :
    Lifecycle plugins id stages m := by
  have hc := h.chronicle habort hserve id
  have hg : Grounded m.stack := h.grounded (by simp [Grounded, opened])
  have hcreated : .created ∈ history id stages := by
    apply hc.created
    simp [Engine.phase?_eq ht]
  have hhearing := fun service => h.hearing habort hserve service id
  constructor
  · exact hc.trace
  · exact hc.trace.head? (List.ne_nil_of_mem hcreated)
  · exact hc.before
  · exact (h.ledger id).1.increasing
  · exact hc.terminated
  · intro service hmem
    rw [hhearing service, if_pos hmem]
  · intro service hmem
    have hnothing := hhearing service
    rw [if_neg hmem] at hnothing
    exact (List.append_eq_nil_iff.1 hnothing).1
  · intro s hs service notification hhears
    obtain ⟨earlier, -, hstep⟩ := h.mem hs
    exact hstep.calls hhears
  · intro hrest
    have hscripts := hrest.scripts hg
    refine ⟨?_, ?_, ?_⟩
    · have hnone : arrivalsIn id m.stack = [] := by
        apply arrivalsIn_eq_nil
        intro work hwork
        have hscript := hscripts work hwork
        cases work with
        | script context code => exact .inl trivial
        | _ => cases hscript
      rw [arriving, hnone]
      rfl
    · intro service
      rw [awaiting, List.filterMap_eq_nil_iff]
      intro work hwork
      have hscript := hscripts work hwork
      cases work with
      | script context code => rfl
      | _ => cases hscript
    · intro problem hmem
      rcases hc.failed problem hmem with hgone | hdoomed
      · exact hc.terminated.2 hgone
      · exact absurd hdoomed (hrest.not_doomed hg)

/-! ## A small run -/

/-- Scripts that end at once, and services that fail whatever they are told. -/
def grumblingPlugins : Plugins Unit where
  script _ := ⟨fun _ => .pure (.ok ()), fun _ => .pure ()⟩
  service _ _ := .pure (.error (.ofMessage "no"))

/-- An engine with one script, one such service and one thread, after all tasks have run. -/
def grumblingEnd : Machine Unit :=
  let scripted :=
    ((opened () sampleConfig).ask (.core (.registerScript "a" ⟨"a", some [], "a"⟩))).2
  let served := (scripted.ask (.core (.registerService 0))).2
  (served.ask (.core (.createThread none))).2.runTasks grumblingPlugins 40

/-- The service hears all there is to tell of the thread up to its end, although it fails each
time. -/
theorem Run.lifecycle_grumbling :
    ∃ stages t, Run grumblingPlugins (opened () sampleConfig) stages grumblingEnd ∧
      grumblingPlugins.AbortQuietly ∧ grumblingPlugins.ServeQuietly ∧
      grumblingEnd.engine.thread? 0 = some t ∧ t.services = [0] ∧ t.phase = .destroyed ∧
      Lifecycle grumblingPlugins 0 stages grumblingEnd ∧ .willDestroy ∈ history 0 stages ∧
      heard 0 0 stages = (history 0 stages).map (·.notification 0) := by
  have habort : grumblingPlugins.AbortQuietly := fun _ _ => .pure ()
  have hserve : grumblingPlugins.ServeQuietly := fun _ _ => .pure _
  have hscripted := (.start : Run grumblingPlugins (opened () sampleConfig) [] _).step
    (.ask (.core (.registerScript "a" ⟨"a", some [], "a"⟩)))
  have hserved := hscripted.step (.ask (.core (.registerService 0)))
  have hcreated := hserved.step (.ask (.core (.createThread none)))
  obtain ⟨more, hrun⟩ := hcreated.runTasks 40
  obtain ⟨t, ht, hservices, hphase⟩ : ∃ t, grumblingEnd.engine.thread? 0 = some t ∧
      t.services = [0] ∧ t.phase = .destroyed := ⟨_, rfl, rfl, rfl⟩
  have hlife : Lifecycle grumblingPlugins 0 _ grumblingEnd :=
    Run.lifecycle hrun habort hserve ht
  have hrest : grumblingEnd.AtRest := by
    intro work hwork
    cases hwork
  have hheard := hlife.heard 0 (by simp [Engine.servicesOf_eq ht, hservices])
  rw [(hlife.settled hrest).2.1 0, List.append_nil] at hheard
  refine ⟨_, t, hrun, habort, hserve, ht, hservices, hphase, hlife, ?_, hheard⟩
  rw [hlife.terminated]
  exact ⟨t, ht, by simp [hphase]⟩

end Machine
end SentenceEngine
