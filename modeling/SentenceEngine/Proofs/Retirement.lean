import SentenceEngine.Proofs.Steps

/-!
# Retirement of dispatched scripts

Every script that a thread dispatches leaves the slot of the script in flight at most once, and in
one of four ways. The history of a run is the ledger: the scripts dispatched so far are those that
were retired, in the same order, followed by the one in flight. Scripts that are superseded or lose
their thread are told to stop once each; those that end on their own are not.

* `Stage.dispatched?`, `Stage.retired?`, `Stage.told?`, `Stage.granted?`: what one step enters.
* `Retires`: the four ways.
* `Machine.Run.ledger`: the account over a whole run.
-/

namespace SentenceEngine

/-- How a script in flight loses its place. -/
inductive Retirement where
  /-- It ended well. -/
  | completed
  /-- It failed. -/
  | failed
  /-- A later dispatch took its place, or one that found no script. -/
  | superseded
  /-- The thread was destroyed. -/
  | destroyed
deriving DecidableEq

/-- Whether the script is told to stop. -/
def Retirement.tells : Retirement → Bool
  | .completed => false
  | .failed => false
  | .superseded => true
  | .destroyed => true

namespace Machine

variable {σ : Type} {plugins : Plugins σ} {m m' : Machine σ} {event : Event σ}
  {id : ThreadId} {t t' : ThreadState}

/-- The script in flight of a thread. -/
def slot (m : Machine σ) (id : ThreadId) : Option Instance :=
  (m.engine.thread? id).bind (·.inFlight)

/-- The ticket of the last dispatch of a thread. -/
def lastTicket (m : Machine σ) (id : ThreadId) : Nat :=
  ((m.engine.thread? id).map (·.ticket)).getD 0

/-- The script of a thread that is to be told to stop next. -/
def toTell? (m : Machine σ) (id : ThreadId) : Option Instance :=
  (m.stack.head?.bind Work.aborts?).filter (·.context.thread == id)

/-- The manner in which a step retires a script, if it does. -/
def Event.retirement : Event σ → Retirement
  | .work (.complete _) => .completed
  | .work (.script _ (.pure (.error _))) => .failed
  | .work (.clear _) => .destroyed
  | _ => .superseded

namespace Stage

/-- The script that a step dispatches. -/
def dispatched? (id : ThreadId) (s : Stage σ) : Option Instance :=
  if s.before.lastTicket id < s.after.lastTicket id then s.after.slot id else none

/-- The script that a step retires, and how. -/
def retired? (id : ThreadId) (s : Stage σ) : Option (Instance × Retirement) :=
  if s.before.slot id = s.after.slot id then none
  else (s.before.slot id).map fun script => (script, s.event.retirement)

/-- The script that a step tells to stop. -/
def told? (id : ThreadId) (s : Stage σ) : Option Instance :=
  match s.event with
  | .work work => work.aborts?.filter (·.context.thread == id)
  | _ => none

/-- The ticket of the script whose transfer of control a step grants. -/
def granted? (id : ThreadId) (s : Stage σ) : Option Nat :=
  match (s.before.engine.thread? id).map fun t => s.event.moveOf id t with
  | some (.executed (some context) _ _) => some context.ticket
  | _ => none

end Stage

/-- The scripts that a thread dispatched, in order. -/
def dispatches (id : ThreadId) (stages : List (Stage σ)) : List Instance :=
  stages.filterMap (·.dispatched? id)

/-- The scripts of a thread that were retired, in order. -/
def retirements (id : ThreadId) (stages : List (Stage σ)) : List (Instance × Retirement) :=
  stages.filterMap (·.retired? id)

/-- The scripts of a thread that were told to stop, in order. -/
def tellings (id : ThreadId) (stages : List (Stage σ)) : List Instance :=
  stages.filterMap (·.told? id)

/-- The tickets of the scripts of a thread whose transfers were granted, in order. -/
def grants (id : ThreadId) (stages : List (Stage σ)) : List Nat :=
  stages.filterMap (·.granted? id)

/-- Those of a list of retired scripts that have to be told to stop. -/
def toldOf (retired : List (Instance × Retirement)) : List Instance :=
  (retired.filter (·.2.tells)).map (·.1)

/-- What a step does that retires the script `a`. -/
inductive Retires (id : ThreadId) (s : Stage σ) (t t' : ThreadState) (a : Instance) :
    Retirement → Prop
  /-- Its own good end: the top frame steps past its instruction once, and the cursor machine
  goes on. -/
  | completed {context : Context} {rest : List (Work σ)} {p : ThreadState}
      (hevent : s.event = .work (.complete context)) (hthread : context.thread = id)
      (hticket : context.ticket = a.context.ticket)
      (hadvance : p = { t with inFlight := none, frames := ThreadState.advanceTop t.frames })
      (hrun : p.run.2.Agrees t') (hafter : s.after.stack = Engine.advanceWork id p.run.1 ++ rest)
      (htold : p.run.1.aborted = none) : Retires id s t t' a .completed
  /-- Its own failure: the thread fails next. -/
  | failed {context : Context} {failure : Failure} {rest : List (Work σ)}
      (hevent : s.event = .work (.script context (.pure (.error failure))))
      (hthread : context.thread = id) (hticket : context.ticket = a.context.ticket)
      (hafter : s.after.stack = .fail id (.script context.name failure) :: rest) :
      Retires id s t t' a .failed
  /-- A later dispatch, or one that found no script: it is told to stop first. -/
  | superseded {arrival : Arrival} {rest : List (Work σ)}
      (hafter : s.after.stack = .abort a :: .arrive id arrival :: rest)
      (hnext : (∃ next, arrival = .dispatch next ∧ t'.inFlight = some next ∧
          a.context.ticket < next.context.ticket) ∨
        ∃ error, arrival = .fatal (.dispatch error) ∧ t'.inFlight = none) :
      Retires id s t t' a .superseded
  /-- The end of the thread: it is told to stop before the thread is released. -/
  | destroyed {rest : List (Work σ)} (hevent : s.event = .work (.clear id))
      (hphase : t'.phase = .destroyed) (hafter : s.after.stack = .abort a :: .release id :: rest) :
      Retires id s t t' a .destroyed

/-! ## What stands on top of the stack -/

theorem Step.event_of_stack {work : Work σ} {rest : List (Work σ)} (h : Step plugins m event m')
    (hstack : m.stack = work :: rest) : event = .work work := by
  obtain ⟨e, stack⟩ := m
  cases hstack
  cases h
  rfl

theorem Step.stack_of_event {work : Work σ} (h : Step plugins m (.work work) m') :
    ∃ rest, m.stack = work :: rest := by
  cases h
  exact ⟨_, rfl⟩

/-- A step tells just the script that was to be told next. -/
theorem Step.told_eq (h : Step plugins m event m') :
    (Stage.told? id ⟨m, event, m'⟩) = m.toTell? id := by
  obtain ⟨e, stack⟩ := m
  cases h <;> simp [Stage.told?, toTell?]

/-- What is to be told next comes from a move of its thread. -/
theorem Step.head_aborts (h : Step plugins m event m') (hm : Invariant m) {a : Instance}
    (ha : m'.stack.head?.bind Work.aborts? = some a) :
    ∃ id t, m.engine.thread? id = some t ∧ t.inFlight = some a ∧
      (event.moveOf id t).tells = true := by
  cases h with
  | @work e work rest =>
    have hperformed := Engine.performed_perform hm.numbered plugins work
    revert hperformed ha
    generalize (perform plugins e work).1 = todo
    intro ha hperformed
    cases todo with
    | nil =>
      -- the next item was below the top before, where nothing tells a script to stop
      obtain ⟨next, hnext, hab⟩ := Option.bind_eq_some_iff.1 ha
      cases (hm.aborts next (List.mem_of_head? hnext)).symm.trans hab
    | cons first todo => exact hperformed.head_aborts ha
  | @task e before after task hqueue =>
    cases task with
    | start other =>
      rcases take_start_cases plugins { e with queue := before ++ after } other with
        ⟨-, htake⟩ | ⟨t, -, ⟨-, -, htake⟩ | ⟨p, hprep, htake⟩⟩
      · rw [htake] at ha
        cases ha
      · rw [htake] at ha
        cases ha
      · -- a first run finds the slot free, so it takes it from nobody
        rw [htake] at ha
        simp only [Engine.advanceWork_head_aborts] at ha
        have hflight := ThreadState.aborted_run ha
        cases hprep with
        | resumed hphase hstarted hfree => cases hfree.symm.trans hflight
    | begin script => cases ha
    | resume context rest => cases ha
  | ask query =>
    refine (Engine.answered_answer hm.numbered query).head_aborts ?_
    simpa [Machine.ask] using ha
  | permits tag count => cases ha
  | letGo => cases ha
  | outside host log => cases ha

/-- A thread whose move tells nobody has nobody to be told next. -/
theorem Step.toTell?_eq_none (h : Step plugins m event m') (hm : Invariant m)
    (hquiet : ∀ t, m.engine.thread? id = some t → (event.moveOf id t).tells = false) :
    m'.toTell? id = none := by
  unfold toTell?
  rcases ha : m'.stack.head?.bind Work.aborts? with _ | a
  · rfl
  · -- a script is told on account of its own thread
    obtain ⟨other, t, ht, hflight, htells⟩ := h.head_aborts hm ha
    have hthread := ((hm.sound ht).ticketed a hflight).1.trans (hm.numbered _ _ ht)
    by_cases hid : a.context.thread = id
    · rw [← hthread, hid] at ht htells
      cases (hquiet t ht).symm.trans htells
    · simp [hid]

/-! ## The slot -/

/-- What a step does to the slot of a thread. A new script in it is dispatched next. -/
inductive Turn (id : ThreadId) (m' : Machine σ) (t t' : ThreadState) : Prop
  | same (hslot : t'.inFlight = t.inFlight) (hticket : t'.ticket = t.ticket)
  | freed (hslot : t'.inFlight = none) (hticket : t'.ticket = t.ticket)
  | taken {next : Instance} (hslot : t'.inFlight = some next) (hthread : next.context.thread = t.id)
      (hnext : next.context.ticket = t.ticket + 1) (hticket : t'.ticket = t.ticket + 1)
      (hshows : Shows id (.dispatch next) m')

theorem turn_of_prepares {p : ThreadState} {move : Move} {rest : List (Work σ)}
    (hprep : t.Prepares move p) (hs : t.Sound) (hagree : p.run.2.Agrees t')
    (hafter : m'.stack = Engine.advanceWork id p.run.1 ++ rest) : Turn id m' t t' := by
  have hid := hprep.kin.id
  have hticket : p.ticket = t.ticket := by cases hprep <;> rfl
  have hslot : p.inFlight = t.inFlight ∨ p.inFlight = none := by
    cases hprep
    · exact .inl rfl
    · exact .inl rfl
    · exact .inr rfl
  have hran := hprep.ran hs
  revert hran hagree hafter
  generalize p.run = r
  intro hagree hafter hran
  cases hran with
  | exhausted =>
    rcases hslot with hslot | hslot
    · exact .same (hagree.inFlight.symm.trans hslot) (hagree.ticket.symm.trans hticket)
    · exact .freed (hagree.inFlight.symm.trans hslot) (hagree.ticket.symm.trans hticket)
  | unknown => exact .freed hagree.inFlight.symm (hagree.ticket.symm.trans hticket)
  | dispatched =>
    refine .taken hagree.inFlight.symm hid.symm ?_ ?_ ⟨_, _, hafter⟩
    · simp [hticket]
    · exact hagree.ticket.symm.trans (by simp [hticket])

theorem Affects.turn {move : Move} (h : Affects id m event m' t move t') (hs : t.Sound) :
    Turn id m' t t' := by
  cases h with
  | still hagree => exact .same hagree.inFlight.symm hagree.ticket.symm
  | assigned hagree => exact .same hagree.of_setVar.inFlight.symm hagree.of_setVar.ticket.symm
  | resumed hprep hagree hbefore hafter =>
    exact turn_of_prepares hprep hs hagree (hafter.trans (List.append_nil _).symm)
  | executed hprep hagree hasks hquery hafter => exact turn_of_prepares hprep hs hagree hafter
  | completed hid hprep hagree hbefore hafter => exact turn_of_prepares hprep hs hagree hafter
  | failed hid hcurrent hagree => exact .freed hagree.inFlight.symm hagree.ticket.symm
  | destroying hphase hagree => exact .same hagree.inFlight.symm hagree.ticket.symm
  | cleared hagree => exact .freed hagree.inFlight.symm hagree.ticket.symm

/-! ## One step -/

theorem slot_eq (h : m.engine.thread? id = some t) : m.slot id = t.inFlight := by
  simp [slot, h]

theorem lastTicket_eq (h : m.engine.thread? id = some t) : m.lastTicket id = t.ticket := by
  simp [lastTicket, h]

/-- The script of the slot before a step is retired unless it stays. -/
theorem retired?_eq (ht : m.engine.thread? id = some t) (ht' : m'.engine.thread? id = some t') :
    Stage.retired? id ⟨m, event, m'⟩ =
      if t.inFlight = t'.inFlight then none
      else t.inFlight.map fun script => (script, event.retirement) := by
  simp [Stage.retired?, slot_eq ht, slot_eq ht']

/-- A thread that dispatched has another script in its slot than before. -/
theorem ne_of_ticketed {next : Instance} (h : t.Ticketed)
    (hnext : next.context.ticket = t.ticket + 1) : t.inFlight ≠ some next := by
  intro hslot
  have := (h next hslot).2
  omega

theorem balance_of_turn (ht : m.engine.thread? id = some t) (ht' : m'.engine.thread? id = some t')
    (hs : t.Ticketed) (hturn : Turn id m' t t') :
    (m.slot id).toList ++ (Stage.dispatched? id ⟨m, event, m'⟩).toList =
      (Stage.retired? id ⟨m, event, m'⟩).toList.map (·.1) ++ (m'.slot id).toList := by
  rw [retired?_eq ht ht', Stage.dispatched?, slot_eq ht, slot_eq ht', lastTicket_eq ht,
    lastTicket_eq ht']
  cases hturn with
  | same hslot hticket => simp [hslot, hticket]
  | freed hslot hticket =>
    rcases hflight : t.inFlight with _ | a <;> simp [hslot, hticket]
  | taken hslot hthread hnext hticket hshows =>
    -- whatever was in the slot goes out as the new script comes in
    have hne := ne_of_ticketed hs hnext
    rw [← hslot] at hne
    rw [if_neg hne, if_pos (by omega)]
    rcases hflight : t.inFlight with _ | a <;> simp [hslot]

theorem fresh_of_turn (hid : t.id = id) (ht : m.engine.thread? id = some t)
    (ht' : m'.engine.thread? id = some t') (hturn : Turn id m' t t') {a : Instance}
    (ha : Stage.dispatched? id ⟨m, event, m'⟩ = some a) :
    a.context.thread = id ∧ m.lastTicket id < a.context.ticket ∧
      a.context.ticket ≤ m'.lastTicket id ∧ Shows id (.dispatch a) m' := by
  simp only [Stage.dispatched?, slot_eq ht', lastTicket_eq ht, lastTicket_eq ht'] at ha ⊢
  cases hturn with
  | same hslot hticket => simp [hticket] at ha
  | freed hslot hticket => simp [hslot] at ha
  | taken hslot hthread hnext hticket hshows =>
    rw [if_pos (by omega), hslot] at ha
    cases ha
    exact ⟨hthread.trans hid, by omega, by omega, hshows⟩

/-- A request retires a script only by superseding it. -/
theorem retirement_of_asks {query : Query} (h : event.asks? = some query) :
    event.retirement = .superseded := by
  cases event with
  | work work =>
    cases work with
    | script context code =>
      cases code with
      | ask _ _ => rfl
      | _ => cases h
    | hook notification code => rfl
    | abortHook context code => rfl
    | _ => first | rfl | cases h
  | ask query => rfl
  | _ => cases h

/-- A transfer of control leaves the script in flight its place only at the end of the program;
otherwise the script is superseded. -/
theorem superseded_of_executed {s : Stage σ} {p : ThreadState} {rest : List (Work σ)}
    {caller : Option Context} {program : Sequence} {entry : Option String} {a : Instance}
    (hprep : t.Prepares (.executed caller program entry) p) (hs : t.Sound)
    (hagree : p.run.2.Agrees t') (hafter : s.after.stack = Engine.advanceWork id p.run.1 ++ rest)
    (ha : t.inFlight = some a) :
    (t'.inFlight = some a ∧ p.run.1.aborted = none) ∨
      (t'.inFlight ≠ some a ∧ p.run.1.aborted = some a ∧ Retires id s t t' a .superseded) := by
  have hslot : p.inFlight = some a ∧ p.ticket = t.ticket := by
    cases hprep
    exact ⟨ha, rfl⟩
  have hticket := (hs.ticketed a ha).2
  have hran := hprep.ran hs
  revert hran hagree hafter
  generalize p.run = r
  intro hagree hafter hran
  cases hran with
  | exhausted =>
    -- nothing is left to dispatch, so the caller keeps its place until the thread is destroyed
    exact .inl ⟨hagree.inFlight.symm.trans hslot.1, rfl⟩
  | unknown =>
    have hfree : t'.inFlight = none := hagree.inFlight.symm
    refine .inr ⟨by simp [hfree], hslot.1, ?_⟩
    simp only [Engine.advanceWork, hslot.1] at hafter
    exact .superseded hafter (.inr ⟨_, rfl, hfree⟩)
  | @dispatched frames i more entry =>
    have htaken : t'.inFlight = some ⟨entry.script, ⟨p.id, p.ticket + 1, i⟩⟩ :=
      hagree.inFlight.symm
    refine .inr ⟨?_, hslot.1, ?_⟩
    · rw [htaken]
      rintro ⟨⟩
      simp only at hticket
      omega
    · simp only [Engine.advanceWork, hslot.1] at hafter
      exact .superseded hafter (.inl ⟨_, rfl, htaken, by simp only; omega⟩)

/-- A retirement in a step that leaves a thread where it is: there is none. -/
theorem retired?_none (ht : m.engine.thread? id = some t) (ht' : m'.engine.thread? id = some t')
    (hslot : t'.inFlight = t.inFlight) : Stage.retired? id ⟨m, event, m'⟩ = none := by
  rw [retired?_eq ht ht', if_pos hslot.symm]

theorem retired?_of_free (ht : m.engine.thread? id = some t)
    (ht' : m'.engine.thread? id = some t') (hfree : t.inFlight = none) :
    Stage.retired? id ⟨m, event, m'⟩ = none := by
  rw [retired?_eq ht ht', hfree]
  split <;> rfl

theorem retired?_some (ht : m.engine.thread? id = some t) (ht' : m'.engine.thread? id = some t')
    {a : Instance} (ha : t.inFlight = some a) (hslot : t'.inFlight ≠ some a) :
    Stage.retired? id ⟨m, event, m'⟩ = some (a, event.retirement) := by
  rw [retired?_eq ht ht', ha, if_neg (Ne.symm hslot)]
  rfl

theorem toTell?_advanceWork {advance : Advance} {rest : List (Work σ)}
    (h : m.stack = Engine.advanceWork id advance ++ rest) :
    m.toTell? id = advance.aborted.filter (·.context.thread == id) := by
  rw [← Engine.advanceWork_head_aborts (σ := σ) id advance, toTell?, h]
  unfold Engine.advanceWork
  split <;> rfl

/-- Who is to be told next, and how the script in flight was retired, as far as a step goes. -/
structure Settled (id : ThreadId) (s : Stage σ) : Prop where
  told : (s.after.toTell? id).toList = toldOf (s.retired? id).toList
  retires : ∀ a manner, s.retired? id = some (a, manner) →
    ∃ t t', s.before.engine.thread? id = some t ∧ s.after.engine.thread? id = some t' ∧
      Retires id s t t' a manner

theorem settled_of_none {s : Stage σ} (hretired : s.retired? id = none)
    (htold : s.after.toTell? id = none) : Settled id s where
  told := by simp [hretired, htold, toldOf]
  retires := by
    intro a manner h
    cases hretired.symm.trans h

theorem settled_of_some {s : Stage σ} {a : Instance} {manner : Retirement}
    (ht : s.before.engine.thread? id = some t) (ht' : s.after.engine.thread? id = some t')
    (hretired : s.retired? id = some (a, manner))
    (htold : s.after.toTell? id = if manner.tells then some a else none)
    (hretires : Retires id s t t' a manner) : Settled id s where
  told := by
    rw [hretired, htold]
    cases htells : manner.tells <;> simp [toldOf, htells]
  retires := by
    intro b manner' h
    cases hretired.symm.trans h
    exact ⟨t, t', ht, ht', hretires⟩

theorem Affects.settled (h : Affects id m event m' t (event.moveOf id t) t')
    (hstep : Step plugins m event m') (hm : Invariant m) (ht : m.engine.thread? id = some t)
    (ht' : m'.engine.thread? id = some t') : Settled id ⟨m, event, m'⟩ := by
  have hs := hm.sound ht
  have hid := hm.numbered _ _ ht
  have quiet : (event.moveOf id t).tells = false → m'.toTell? id = none := by
    intro htells
    refine hstep.toTell?_eq_none hm ?_
    intro r hr
    cases ht.symm.trans hr
    exact htells
  -- one case for each move: who leaves the slot, and who is told of it
  revert quiet
  generalize event.moveOf id t = move at h
  intro quiet
  cases h with
  | still hagree => exact settled_of_none (retired?_none ht ht' hagree.inFlight.symm) (quiet rfl)
  | assigned hagree =>
    exact settled_of_none (retired?_none ht ht' hagree.of_setVar.inFlight.symm) (quiet rfl)
  | resumed hprep hagree =>
    refine settled_of_none (retired?_of_free ht ht' ?_) (quiet rfl)
    cases hprep with
    | resumed hphase hstarted hfree => exact hfree
  | @executed query caller program entry p _ rest hprep hagree hasks hquery hafter =>
    have htold := toTell?_advanceWork hafter
    rcases ha : t.inFlight with _ | a
    · refine settled_of_none (retired?_of_free ht ht' ha) ?_
      rcases haborted : p.run.1.aborted with _ | b
      · simp [htold, haborted]
      · have hflight := ThreadState.aborted_run haborted
        cases hprep
        cases ha.symm.trans hflight
    · have hthread := (hs.ticketed a ha).1.trans hid
      rcases superseded_of_executed (s := ⟨m, event, m'⟩) hprep hs hagree hafter ha with
        ⟨hslot, haborted⟩ | ⟨hslot, haborted, hretires⟩
      · refine settled_of_none (retired?_none ht ht' (hslot.trans ha.symm)) ?_
        simp [htold, haborted]
      · have hretired : Stage.retired? id ⟨m, event, m'⟩ = some (a, event.retirement) :=
          retired?_some ht ht' ha hslot
        rw [retirement_of_asks hasks] at hretired
        refine settled_of_some ht ht' hretired ?_ hretires
        simp [htold, haborted, hthread, Retirement.tells]
  | @completed context p _ rest hthread hprep hagree hbefore hafter =>
    cases hstep.event_of_stack hbefore
    have hran := hprep.ran hs
    cases hprep with
    | completed hcurrent =>
      obtain ⟨-, a, ha, hticket⟩ := ThreadState.isCurrent_iff.1 hcurrent
      have hlast := (hs.ticketed a ha).2
      have hslot : t'.inFlight ≠ some a := by
        rw [← hagree.inFlight]
        intro hstays
        rcases hran.inFlight with ⟨hfree, -⟩ | hnext
        · cases hfree.symm.trans hstays
        · -- what the cursor machine puts into the slot has a later ticket
          have hlater : a.context.ticket = t.ticket + 1 := hnext a hstays
          omega
      refine settled_of_some ht ht' (retired?_some ht ht' ha hslot) (quiet rfl) ?_
      refine .completed rfl hthread hticket.symm rfl hagree hafter ?_
      -- the slot was emptied before the run, so the run takes it from nobody
      rcases haborted : (ThreadState.run _).1.aborted with _ | b
      · rfl
      · cases ThreadState.aborted_run haborted
  | failed hthread hcurrent hagree hbefore hafter =>
    cases hstep.event_of_stack hbefore
    obtain ⟨-, a, ha, hticket⟩ := ThreadState.isCurrent_iff.1 hcurrent
    have hslot : t'.inFlight ≠ some a := by simp [← hagree.inFlight]
    refine settled_of_some ht ht' (retired?_some ht ht' ha hslot) (quiet rfl) ?_
    exact .failed rfl hthread hticket.symm hafter
  | destroying hphase hagree =>
    exact settled_of_none (retired?_none ht ht' hagree.inFlight.symm) (quiet rfl)
  | cleared hagree hbefore hafter =>
    cases hstep.event_of_stack hbefore
    have hfree : t'.inFlight = none := hagree.inFlight.symm
    rcases ha : t.inFlight with _ | a
    · refine settled_of_none (retired?_of_free ht ht' ha) ?_
      rw [ha] at hafter
      simp [toTell?, hafter, Work.aborts?]
    · have hthread := (hs.ticketed a ha).1.trans hid
      rw [ha] at hafter
      refine settled_of_some ht ht' (retired?_some ht ht' ha (by simp [hfree])) ?_ ?_
      · simp [toTell?, hafter, Work.aborts?, hthread, Event.retirement, Retirement.tells]
      · exact .destroyed rfl hagree.phase.symm hafter

/-- What one step adds to the account of a thread. -/
structure Booked (id : ThreadId) (s : Stage σ) : Prop extends Settled id s where
  balance : (s.before.slot id).toList ++ (s.dispatched? id).toList =
    (s.retired? id).toList.map (·.1) ++ (s.after.slot id).toList
  ticket : s.before.lastTicket id ≤ s.after.lastTicket id
  fresh : ∀ a, s.dispatched? id = some a → a.context.thread = id ∧
    s.before.lastTicket id < a.context.ticket ∧ a.context.ticket ≤ s.after.lastTicket id ∧
    Shows id (.dispatch a) s.after

/-- A thread that is not there, or comes into being, has an empty slot. -/
theorem Step.slot_of_none (h : Step plugins m event m') (hm : Invariant m)
    (hnone : m.engine.thread? id = none) :
    m.slot id = none ∧ m.lastTicket id = 0 ∧ m'.slot id = none ∧ m'.lastTicket id = 0 := by
  refine ⟨by simp [slot, hnone], by simp [lastTicket, hnone], ?_⟩
  rcases ht' : m'.engine.thread? id with _ | t'
  · simp [slot, lastTicket, ht']
  · obtain ⟨overrides, program, services, hcreates⟩ := h.creates hm.numbered hnone ht'
    obtain ⟨start, -, -, hfresh⟩ := ThreadState.create_eq_ok hcreates.create
    simp [slot, lastTicket, ht', hfresh]

theorem Step.booked (h : Step plugins m event m') (hm : Invariant m) (id : ThreadId) :
    Booked id ⟨m, event, m'⟩ := by
  rcases ht : m.engine.thread? id with _ | t
  · obtain ⟨hslot, hticket, hslot', hticket'⟩ := h.slot_of_none hm ht
    have hretired : Stage.retired? id ⟨m, event, m'⟩ = none := by
      simp [Stage.retired?, hslot, hslot']
    have hdispatched : Stage.dispatched? id ⟨m, event, m'⟩ = none := by
      simp [Stage.dispatched?, hticket, hticket']
    have htold : m'.toTell? id = none := by
      refine h.toTell?_eq_none hm ?_
      intro t hsome
      cases ht.symm.trans hsome
    exact {
      toSettled := settled_of_none hretired htold
      balance := by simp [hretired, hdispatched, hslot, hslot']
      ticket := by simp [hticket, hticket']
      fresh := by simp [hdispatched] }
  · obtain ⟨t', ht', haffects⟩ := h.affects hm.numbered ht
    have hturn := haffects.turn (hm.sound ht)
    exact {
      toSettled := haffects.settled h hm ht ht'
      balance := balance_of_turn ht ht' (hm.sound ht).ticketed hturn
      ticket := by
        simp only [lastTicket_eq ht, lastTicket_eq ht']
        cases hturn with
        | same hslot hticket => omega
        | freed hslot hticket => omega
        | taken hslot hthread hnext hticket hshows => omega
      fresh := fun a => fresh_of_turn (hm.numbered _ _ ht) ht ht' hturn }

/-! ## Grants -/

theorem granted?_eq (ht : m.engine.thread? id = some t) {ticket : Nat}
    (h : Stage.granted? id ⟨m, event, m'⟩ = some ticket) :
    ∃ context program entry, event.moveOf id t = .executed (some context) program entry ∧
      context.ticket = ticket := by
  simp only [Stage.granted?, ht, Option.map_some] at h
  split at h
  next context program entry hmove =>
    exact ⟨context, program, entry, Option.some.inj hmove, Option.some.inj h⟩
  next => cases h

/-- A ticket that is current after a step was current before, or is new. -/
theorem isCurrent_of_turn (hturn : Turn id m' t t')
    (hphase : t'.phase = .running → t.phase = .running) {ticket : Nat} (hle : ticket ≤ t.ticket)
    (h : t'.isCurrent ticket = true) : t.isCurrent ticket = true := by
  obtain ⟨hrunning, a, ha, hticket⟩ := ThreadState.isCurrent_iff.1 h
  refine ThreadState.isCurrent_iff.2 ⟨hphase hrunning, a, ?_, hticket⟩
  cases hturn with
  | same hslot _ => exact hslot.symm.trans ha
  | freed hslot _ => cases hslot.symm.trans ha
  | taken hslot hthread hnext _ _ =>
    cases hslot.symm.trans ha
    omega

theorem Affects.running {move : Move} (h : Affects id m event m' t move t')
    (hphase : t'.phase = .running) : t.phase = .running := by
  cases h with
  | still hagree => exact hagree.phase.trans hphase
  | assigned hagree => exact hagree.of_setVar.phase.trans hphase
  | resumed hprep => exact hprep.phase.1
  | executed hprep => exact hprep.phase.1
  | completed hid hprep => exact hprep.phase.1
  | failed hid hcurrent => exact (ThreadState.isCurrent_iff.1 hcurrent).1
  | destroying hphase => exact hphase
  | cleared hagree => cases hagree.phase.trans hphase

/-- A script whose transfer is granted is the one in flight. It is current afterwards only if its
thread is at its end. -/
theorem Step.grant (h : Step plugins m event m') (hm : Invariant m) {ticket : Nat}
    (hgrant : Stage.granted? id ⟨m, event, m'⟩ = some ticket) :
    ∃ t t', m.engine.thread? id = some t ∧ m'.engine.thread? id = some t' ∧
      t.isCurrent ticket = true ∧ ¬ Ending id m ∧
      (t'.isCurrent ticket = true → Ending id m') := by
  rcases ht : m.engine.thread? id with _ | t
  · simp [Stage.granted?, ht] at hgrant
  obtain ⟨t', ht', haffects⟩ := h.affects hm.numbered ht
  obtain ⟨context, program, entry, hmove, rfl⟩ := granted?_eq ht hgrant
  rw [hmove] at haffects
  have hs := hm.sound ht
  cases haffects with
  | @executed query _ _ _ p _ rest hprep hagree hasks hquery hafter =>
    have hran := hprep.ran hs
    cases hprep with
    | executed hphase hcaller hentry =>
      have hcurrent := hcaller context rfl
      refine ⟨t, t', rfl, ht', hcurrent, ?_, ?_⟩
      · intro hending
        cases (h.asks_of_ending hending).symm.trans hasks
      · intro hstill
        obtain ⟨-, a, ha, hticket⟩ := ThreadState.isCurrent_iff.1 hcurrent
        obtain ⟨-, b, hb, hsame⟩ := ThreadState.isCurrent_iff.1 hstill
        have hlast := (hs.ticketed a ha).2
        rw [← hagree.inFlight] at hb
        revert hran hafter hb
        generalize ThreadState.run _ = r
        intro hafter hran hb
        cases hran with
        | exhausted => exact ⟨_, .inl hafter⟩
        | unknown => cases hb
        | dispatched =>
          -- the new script carries a ticket that nobody had
          cases hb
          simp only at hsame
          omega

/-! ## The account -/

/-- The account of a thread over a run. -/
structure Ledger (id : ThreadId) (stages : List (Stage σ)) (m : Machine σ) : Prop where
  /-- Every script that was dispatched was retired, in the same order, but for the one in flight. -/
  balance : dispatches id stages = (retirements id stages).map (·.1) ++ (m.slot id).toList
  /-- Tickets strictly increase. -/
  increasing : (dispatches id stages).Pairwise (·.context.ticket < ·.context.ticket)
  bounded : ∀ a ∈ dispatches id stages,
    a.context.thread = id ∧ a.context.ticket ≤ m.lastTicket id
  /-- What enters the account as a dispatch is what the thread then does. -/
  shown : ∀ s ∈ stages, ∀ a, s.dispatched? id = some a → Shows id (.dispatch a) s.after
  /-- Those that were superseded or lost their thread were told to stop, once each and in the same
  order; the last of them may be the next to be told. -/
  told : tellings id stages ++ (m.toTell? id).toList = toldOf (retirements id stages)
  /-- Every script was retired in one of the four ways. -/
  retires : ∀ s ∈ stages, ∀ a manner, s.retired? id = some (a, manner) →
    ∃ t t', s.before.engine.thread? id = some t ∧ s.after.engine.thread? id = some t' ∧
      Retires id s t t' a manner
  /-- No script was granted a second transfer. -/
  granted : (grants id stages).Pairwise (· < ·)
  /-- A script that was granted a transfer is not current again, unless its thread is at its end. -/
  passed : ∀ ticket ∈ grants id stages, ticket ≤ m.lastTicket id ∧
    ∀ t, m.engine.thread? id = some t → t.isCurrent ticket = true → Ending id m

theorem filterMap_snoc {α β : Type} (f : α → Option β) (xs : List α) (x : α) :
    (xs ++ [x]).filterMap f = xs.filterMap f ++ (f x).toList := by
  cases h : f x <;> simp [h]

theorem toldOf_append (xs ys : List (Instance × Retirement)) :
    toldOf (xs ++ ys) = toldOf xs ++ toldOf ys := by
  simp [toldOf]

theorem mem_of_filterMap_snoc {α β : Type} {f : α → Option β} {xs : List α} {x : α} {y : β}
    (h : y ∈ (xs ++ [x]).filterMap f) : y ∈ xs.filterMap f ∨ f x = some y := by
  rw [filterMap_snoc] at h
  simpa using h

theorem Ledger.step {stages : List (Stage σ)} (hl : Ledger id stages m) (hm : Invariant m)
    (h : Step plugins m event m') : Ledger id (stages ++ [⟨m, event, m'⟩]) m' := by
  have hbooked := h.booked hm id
  exact {
    balance := by
      have hstep : (m.slot id).toList ++ _ = _ := hbooked.balance
      rw [dispatches, retirements, filterMap_snoc, filterMap_snoc]
      calc dispatches id stages ++ (Stage.dispatched? id ⟨m, event, m'⟩).toList
          = (retirements id stages).map (·.1) ++
              ((m.slot id).toList ++ (Stage.dispatched? id ⟨m, event, m'⟩).toList) := by
            rw [hl.balance, List.append_assoc]
        _ = (retirements id stages).map (·.1) ++
              ((Stage.retired? id ⟨m, event, m'⟩).toList.map (·.1) ++ (m'.slot id).toList) := by
            rw [hstep]
        _ = _ := by simp [retirements]
    increasing := by
      rw [dispatches, filterMap_snoc, List.pairwise_append]
      refine ⟨hl.increasing, ?_, ?_⟩
      · cases Stage.dispatched? id ⟨m, event, m'⟩ <;> simp
      · intro a ha b hb
        have hold := (hl.bounded a ha).2
        have hnew := (hbooked.fresh b (Option.mem_toList.1 hb)).2.1
        exact Nat.lt_of_le_of_lt hold hnew
    bounded := by
      intro a ha
      rcases mem_of_filterMap_snoc ha with ha | ha
      · obtain ⟨hthread, hle⟩ := hl.bounded a ha
        exact ⟨hthread, Nat.le_trans hle hbooked.ticket⟩
      · obtain ⟨hthread, -, hle, -⟩ := hbooked.fresh a ha
        exact ⟨hthread, hle⟩
    shown := by
      intro s hs a ha
      rcases List.mem_append.1 hs with hs | hs
      · exact hl.shown s hs a ha
      · rw [List.mem_singleton.1 hs] at ha ⊢
        exact (hbooked.fresh a ha).2.2.2
    told := by
      have hafter : (m'.toTell? id).toList = _ := hbooked.told
      have hbefore : Stage.told? id ⟨m, event, m'⟩ = m.toTell? id := h.told_eq
      rw [tellings, retirements, filterMap_snoc, filterMap_snoc, toldOf_append, hafter, hbefore]
      exact congrArg (· ++ _) hl.told
    retires := by
      intro s hs a manner hretired
      rcases List.mem_append.1 hs with hs | hs
      · exact hl.retires s hs a manner hretired
      · rw [List.mem_singleton.1 hs] at hretired ⊢
        exact hbooked.retires a manner hretired
    granted := by
      rw [grants, filterMap_snoc, List.pairwise_append]
      refine ⟨hl.granted, ?_, ?_⟩
      · cases Stage.granted? id ⟨m, event, m'⟩ <;> simp
      · -- the new grant goes to the last ticket, and the earlier ones are not current any more
        intro old hold new hnew
        obtain ⟨t, t', ht, -, hcurrent, hnot, -⟩ := h.grant hm (Option.mem_toList.1 hnew)
        obtain ⟨hle, hpassed⟩ := hl.passed old hold
        obtain ⟨-, a, ha, hticket⟩ := ThreadState.isCurrent_iff.1 hcurrent
        have hlast := ((hm.sound ht).ticketed a ha).2
        rw [lastTicket_eq ht] at hle
        rcases Nat.lt_or_ge old new with hlt | hge
        · exact hlt
        · have hsame : old = new := by omega
          subst hsame
          exact absurd (hpassed t ht hcurrent) hnot
    passed := by
      intro ticket hticket
      rcases mem_of_filterMap_snoc hticket with hold | hnew
      · obtain ⟨hle, hpassed⟩ := hl.passed ticket hold
        refine ⟨Nat.le_trans hle hbooked.ticket, ?_⟩
        intro t' ht' hcurrent
        obtain ⟨t, ht, haffects⟩ | ⟨-, overrides, program, services, hcreates⟩ :=
          h.thread_cases hm.numbered ht'
        · rw [lastTicket_eq ht] at hle
          have hturn := haffects.turn (hm.sound ht)
          have hbefore := isCurrent_of_turn hturn haffects.running hle hcurrent
          have hphase := (ThreadState.isCurrent_iff.1 hbefore).1
          -- a thread at its end only goes on to its destruction
          rcases h.ending (hpassed t ht hbefore) ht hphase (hm.numbered _ _ ht) with hend | hgone
          · exact hend
          · cases hgone.symm.trans ht'
            cases (ThreadState.isCurrent_iff.1 hcurrent).1
        · -- a thread that comes into being has no script in flight
          obtain ⟨start, -, -, rfl⟩ := ThreadState.create_eq_ok hcreates.create
          obtain ⟨-, a, ha, -⟩ := ThreadState.isCurrent_iff.1 hcurrent
          cases ha
      · obtain ⟨t, t', ht, ht', hcurrent, -, hend⟩ := h.grant hm hnew
        obtain ⟨-, a, ha, hsame⟩ := ThreadState.isCurrent_iff.1 hcurrent
        have hlast := ((hm.sound ht).ticketed a ha).2
        have hmore : m.lastTicket id ≤ m'.lastTicket id := hbooked.ticket
        rw [lastTicket_eq ht] at hmore
        refine ⟨by omega, ?_⟩
        intro s hs hstill
        cases ht'.symm.trans hs
        exact hend hstill }

/-! ## Scripts that were retired -/

/-- A script has no say over its thread: its transfers are refused, and its end changes nothing. Its
good end is still told to the services as long as the thread runs. -/
structure Inert (plugins : Plugins σ) (e : Engine σ) (context : Context) : Prop where
  refused : ∀ program entry, e.answer (.transfer context program entry) =
    e.respond (.error
      (if e.look context.thread false (·.isRunning) then .superseded context.name
      else .notRunning))
  failure : ∀ failure, settle e context (.error failure) = ([], e)
  success : settle e context (.ok ()) =
    (if e.look context.thread false (·.isRunning) then
      [.notify (e.servicesOf context.thread) (.after context.thread context.instruction),
        .complete context]
    else [], e)
  completion : perform plugins e (.complete context) = ([], e)

theorem transfer_of_not_current {context : Context} (h : t.isCurrent context.ticket = false)
    (program : Sequence) (entry : Option String) :
    t.transfer (some context) program entry =
      .error (if t.isRunning then .superseded context.name else .notRunning) := by
  unfold ThreadState.transfer
  cases t.isRunning <;> simp [h, bind, Except.bind]

theorem inert_of_not_current {e : Engine σ} {context : Context}
    (h : ∀ t, e.thread? context.thread = some t → t.isCurrent context.ticket = false) :
    Inert plugins e context where
  refused := by
    intro program entry
    simp only [Engine.answer, Engine.transfer]
    rcases ht : e.thread? context.thread with _ | t
    · simp [Engine.look, ht]
    · simp [Engine.look_eq ht, transfer_of_not_current (h t ht)]
  failure := by
    intro failure
    rcases ht : e.thread? context.thread with _ | t
    · simp [settle, Engine.look, ht]
    · simp [settle, Engine.look_eq ht, h t ht]
  success := by
    simp only [settle]
    split <;> rfl
  completion := by
    rcases ht : e.thread? context.thread with _ | t
    · simp [perform, ht]
    · simp [perform, ht, h t ht]

theorem ledger_nil (m : Machine σ) (hnone : m.engine.thread? id = none) (hstack : m.stack = []) :
    Ledger id [] m where
  balance := by simp [dispatches, retirements, slot, hnone]
  increasing := by simp [dispatches]
  bounded := by simp [dispatches]
  shown := by simp
  told := by simp [tellings, retirements, toTell?, hstack, toldOf]
  retires := by simp
  granted := by simp [grants]
  passed := by simp [grants]

/-- A script that was retired is not current. -/
theorem Ledger.not_current {stages : List (Stage σ)} (hl : Ledger id stages m)
    {a : Instance} {manner : Retirement} (ha : (a, manner) ∈ retirements id stages)
    (ht : m.engine.thread? id = some t) : t.isCurrent a.context.ticket = false := by
  rcases hcurrent : t.isCurrent a.context.ticket with _ | _
  · rfl
  · -- the script in flight has the last ticket, and it was dispatched after all retired ones
    obtain ⟨-, b, hb, hticket⟩ := ThreadState.isCurrent_iff.1 hcurrent
    have hincreasing := hl.increasing
    rw [hl.balance, slot_eq ht, hb, List.pairwise_append] at hincreasing
    have hlt := hincreasing.2.2 a (List.mem_map.2 ⟨_, ha, rfl⟩) b (by simp)
    omega

/-- To tell a script to stop is to call its abort hook. -/
theorem Step.calls_abort (h : Step plugins m event m') {a : Instance}
    (ha : Stage.told? id ⟨m, event, m'⟩ = some a) :
    ∃ rest, m'.stack =
      .abortHook a.context ((plugins.script a.script).abort a.context) :: rest := by
  cases event with
  | work work =>
    obtain ⟨rest, hstack⟩ := h.stack_of_event
    obtain ⟨e, stack⟩ := m
    cases hstack
    cases work with
    | abort b =>
      simp only [Stage.told?, Work.aborts?, Option.filter_eq_some_iff] at ha
      cases ha.1
      cases h
      exact ⟨rest, rfl⟩
    | _ => cases ha
  | _ => cases ha

/-- Every script that a thread dispatches is retired at most once and in one way, and once it is
retired it has no say. -/
theorem Run.ledger {host : σ} {config : CoreConfig} {stages : List (Stage σ)}
    (h : Run plugins (opened host config) stages m) (id : ThreadId) :
    Ledger id stages m ∧
      (∀ s ∈ stages, ∀ a, s.told? id = some a → ∃ rest, s.after.stack =
        .abortHook a.context ((plugins.script a.script).abort a.context) :: rest) ∧
      ∀ a manner, (a, manner) ∈ retirements id stages → ∀ context : Context,
        context.thread = id → context.ticket = a.context.ticket → Inert plugins m.engine context := by
  have hledger : Ledger id stages m := by
    induction h with
    | start => exact ledger_nil _ (by simp [opened, Engine.new, Engine.thread?]) rfl
    | step hrun hstep ih => exact ih.step hrun.invariant hstep
  refine ⟨hledger, ?_, ?_⟩
  · intro s hs a ha
    obtain ⟨earlier, -, hstep⟩ := h.mem hs
    exact hstep.calls_abort ha
  · rintro a manner ha context rfl hticket
    refine inert_of_not_current ?_
    intro t ht
    rw [hticket]
    exact hledger.not_current ha ht

/-- A thread is handed over before its first run, again while the script of its own instruction is in
flight, and destroyed while the next script is. -/
def fates : List (Query × Nat) :=
  [(.core (.registerScript "a" ⟨"a", some [], "a"⟩), 0), (.core (.createThread none), 2),
    (.execute 0 [.instruction (.new "a")] none, 10), (.execute 0 [.instruction (.new "a")] none, 5),
    (.destroy 0, 10)]

/-- Of its three scripts one is completed, one is superseded and one loses its thread. The last two
are told to stop, and in the end none of the three has a say. -/
theorem Run.ledger_fates :
    let script (ticket : Nat) : Instance := ⟨"a", 0, ticket, .new "a"⟩
    ∃ stages m, Run idlePlugins (opened () sampleConfig) stages m ∧
      retirements 0 stages =
        [(script 1, .completed), (script 2, .superseded), (script 3, .destroyed)] ∧
      Ledger 0 stages m ∧ dispatches 0 stages = [script 1, script 2, script 3] ∧
      tellings 0 stages = [script 2, script 3] ∧
      (∃ s ∈ stages, ∃ rest, s.told? 0 = some (script 2) ∧
        s.after.stack = .abortHook (script 2).context (.pure ()) :: rest) ∧
      ∀ ticket ∈ [1, 2, 3], Inert idlePlugins m.engine (script ticket).context := by
  intro script
  let stages := ((opened () sampleConfig).play idlePlugins fates).1
  let m := ((opened () sampleConfig).play idlePlugins fates).2
  have hrun : Run idlePlugins (opened () sampleConfig) stages m := by
    simpa using (Run.start : Run idlePlugins (opened () sampleConfig) [] _).play fates
  have hretired : retirements 0 stages =
      [(script 1, .completed), (script 2, .superseded), (script 3, .destroyed)] := by decide +kernel
  obtain ⟨hledger, hcalled, hinert⟩ := Run.ledger hrun 0
  have htold : tellings 0 stages = [script 2, script 3] := by
    have htell : m.toTell? 0 = none := by decide +kernel
    have htold := hledger.told
    rw [hretired, htell, Option.toList_none, List.append_nil] at htold
    exact htold
  refine ⟨stages, m, hrun, hretired, hledger, ?_, htold, ?_, ?_⟩
  · have hslot : m.slot 0 = none := by decide +kernel
    rw [hledger.balance, hretired, hslot]
    rfl
  · have hmem : script 2 ∈ tellings 0 stages := by simp [htold]
    obtain ⟨s, hs, htells⟩ := List.mem_filterMap.1 hmem
    obtain ⟨rest, hstack⟩ := hcalled s hs _ htells
    exact ⟨s, hs, rest, htells, hstack⟩
  · intro ticket hticket
    obtain ⟨manner, hmem⟩ : ∃ manner, (script ticket, manner) ∈ retirements 0 stages := by
      rw [hretired]
      simp only [List.mem_cons, List.not_mem_nil, or_false] at hticket
      rcases hticket with rfl | rfl | rfl
      · exact ⟨.completed, by simp⟩
      · exact ⟨.superseded, by simp⟩
      · exact ⟨.destroyed, by simp⟩
    exact hinert _ manner hmem _ rfl rfl

end Machine
end SentenceEngine
