import Mathlib.Data.List.Forall2
import SentenceEngine.Proofs.Bystanders
import SentenceEngine.Proofs.Reentrance

/-!
# Services are an audience

Services are told what happens, but nothing that happens depends on them. Two runs of engines that
differ in their services are compared step by step: the steps of the rounds in which services are
told are passed over in either run, and all other steps are taken in pairs. Within a task a step is
determined by the stack; where it is not, a choice is made, and both runs have to make the same one.

* `Machine.Same`, `Machine.Stage.Same`: states and steps that are the same but for the services.
* `Machine.exists_lapses`: rounds come to their end, and change nothing else.
* `Machine.Step.same`, `Machine.Step.exists_same`: steps outside of rounds are taken in pairs.
* `Machine.Run.exists_same`, `Machine.Run.lockstep`: and so are those of whole runs.
* `Machine.Run.services_passive`: two lists of services, as all others see them.
-/

namespace SentenceEngine

variable {σ τ : Type}

/-- A request that registers no service, or a shared one. The reply to any other registration may
differ between two engines with different services, since it says whether the service is there
already: such replies are not compared. -/
def Query.Neutral (shared : ServiceId → Prop) (query : Query) : Prop :=
  ∀ service, query = .core (.registerService service) → shared service

namespace Machine

variable {own : σ → τ} {shared : ServiceId → Prop} {plugins : Plugins σ}
  {start start' m m' m'' n n' : Machine σ} {event event' : Event σ}
  {stages stages' earlier later : List (Stage σ)} {s s' : Stage σ}

/-! ## Machines that differ in their services -/

/-- Two machines that are the same but for the services and what services see to: scripts find the
same state, and the shared services are registered in both or in neither. -/
structure Same (own : σ → τ) (shared : ServiceId → Prop) (m m' : Machine σ) : Prop
    extends Level m m' where
  host : own m.engine.host = own m'.engine.host
  services : ∀ service, shared service →
    (service ∈ m.engine.services ↔ service ∈ m'.engine.services)

theorem Same.refl (m : Machine σ) : m.Same own shared m :=
  ⟨⟨.refl _, rfl⟩, rfl, fun _ _ => .rfl⟩

theorem Same.symm (h : m.Same own shared m') : m'.Same own shared m where
  engine := h.engine.symm
  stack := h.stack.symm
  host := h.host.symm
  services := fun service hshared => (h.services service hshared).symm

theorem Same.trans (h : m.Same own shared m') (h' : m'.Same own shared m'') :
    m.Same own shared m'' where
  engine := h.engine.trans h'.engine
  stack := h.stack.trans h'.stack
  host := h.host.trans h'.host
  services := fun service hshared =>
    (h.services service hshared).trans (h'.services service hshared)

namespace Event

/-- A step of a round of the services. -/
def isRound : Event σ → Bool
  | .work item => item.isRound
  | _ => false

/-- A step that the stack does not determine: a task is taken up, or somebody acts from outside. -/
def isChoice : Event σ → Bool
  | .work _ => false
  | _ => true

end Event

/-- The steps that are no part of a round of the services. -/
def unattended (stages : List (Stage σ)) : List (Stage σ) := stages.filter (!·.event.isRound)

/-- The steps that the stack does not determine. -/
def choices (stages : List (Stage σ)) : List (Stage σ) := stages.filter (·.event.isChoice)

/-- The same step, taken from the same state to the same state, with the same reply to what is asked
in it; only a service that is not shared may be registered in one of them already, and the replies
to its registration are not compared. -/
structure Stage.Same (own : σ → τ) (shared : ServiceId → Prop) (s s' : Stage σ) : Prop where
  event : s.event = s'.event
  before : s.before.Same own shared s'.before
  after : s.after.Same own shared s'.after
  reply : ∀ query, s.event.asks? = some query → query.Neutral shared →
    (s.before.engine.answer query).reply = (s'.before.engine.answer query).reply

/-- The same choice: of the same task in the same place, or of the same act from outside. -/
structure Stage.SameChoice (own : σ → τ) (s s' : Stage σ) : Prop where
  event : s.event = s'.event
  place : ∀ task, s.event = .task task → s.after.engine.queue = s'.after.engine.queue
  state : s.event = .outside → own s.after.engine.host = own s'.after.engine.host

/-! ## Rounds -/

/-- A step of a round changes nothing but what services see to. -/
theorem Step.same_of_round (h : Step plugins m event m') (hm : m.Separate own)
    (hround : event.isRound = true) : m.Same own shared m' := by
  cases h with
  | @work e work rest =>
    have stack : ∀ {todo : List (Work σ)}, Work.unattended todo = [] →
        Work.unattended (work :: rest) = Work.unattended (todo ++ rest) := by
      intro todo htodo
      rw [Work.unattended_cons_of_round hround, Work.unattended_append, htodo, List.nil_append]
    cases work with
    | hook notification code =>
      have hcode : code.Passive own := hm.todo _ List.mem_cons_self
      cases hcode with
      | pure outcome =>
        cases outcome with
        | ok done => exact ⟨⟨.refl e, stack rfl⟩, rfl, fun _ _ => .rfl⟩
        | error failure => exact ⟨⟨fun _ => rfl, stack rfl⟩, rfl, fun _ _ => .rfl⟩
      | @ask query next hlooks hnext =>
        -- a service that only looks leaves the engine as it is, and nothing to do
        have hengine : (e.answer query).engine = e := by
          rw [hlooks e]
          rfl
        have htodo : (e.answer query).todo = [] := by
          rw [hlooks e]
          rfl
        show Same own shared _ ⟨(e.answer query).engine, (e.answer query).todo ++ [_] ++ rest⟩
        rw [hengine, htodo]
        exact ⟨⟨.refl e, stack rfl⟩, rfl, fun _ _ => .rfl⟩
      | log hnext => exact ⟨⟨fun _ => rfl, stack rfl⟩, rfl, fun _ _ => .rfl⟩
      | update hkeeps hnext => exact ⟨⟨fun _ => rfl, stack rfl⟩, (hkeeps _).symm, fun _ _ => .rfl⟩
    | notify services notification =>
      cases services with
      | nil => exact ⟨⟨.refl e, stack rfl⟩, rfl, fun _ _ => .rfl⟩
      | cons first services => exact ⟨⟨.refl e, stack rfl⟩, rfl, fun _ _ => .rfl⟩
    | _ => cases hround
  | _ => cases hround

theorem Run.separate (h : Run plugins start stages m) (hplugins : plugins.Separate own)
    (hstart : start.Separate own) : m.Separate own := by
  induction h with
  | start => exact hstart
  | step hrun hstep ih => exact hstep.separate hplugins ih

theorem Run.append (h : Run plugins start stages m) {more : List (Stage σ)}
    (hmore : Run plugins m more m') : Run plugins start (stages ++ more) m' := by
  induction hmore with
  | start => simpa using h
  | step hrun hstep ih =>
    rw [← List.append_assoc]
    exact ih.step hstep

theorem unattended_append (first second : List (Stage σ)) :
    unattended (first ++ second) = unattended first ++ unattended second := List.filter_append ..

/-- Nothing is done between two states but to tell the services. -/
def Lapses (plugins : Plugins σ) (m m' : Machine σ) : Prop :=
  ∃ stages, Run plugins m stages m' ∧ unattended stages = []

theorem Lapses.refl (m : Machine σ) : Lapses plugins m m := ⟨[], .start, rfl⟩

theorem Lapses.trans (h : Lapses plugins m m') (h' : Lapses plugins m' m'') :
    Lapses plugins m m'' := by
  obtain ⟨stages, hrun, hstages⟩ := h
  obtain ⟨more, hmore, hnone⟩ := h'
  exact ⟨_, hrun.append hmore, by rw [unattended_append, hstages, hnone]; rfl⟩

theorem Step.lapses (h : Step plugins m event m') (hround : event.isRound = true) :
    Lapses plugins m m' :=
  ⟨_, Run.start.step h, by simp [unattended, hround]⟩

theorem Lapses.separate (h : Lapses plugins m m') (hplugins : plugins.Separate own)
    (hm : m.Separate own) : m'.Separate own := by
  obtain ⟨stages, hrun, -⟩ := h
  exact hrun.separate hplugins hm

/-- Rounds change nothing but what services see to. -/
theorem Lapses.same (h : Lapses plugins m m') (hplugins : plugins.Separate own)
    (hm : m.Separate own) : m.Same own shared m' := by
  obtain ⟨stages, hrun, hstages⟩ := h
  induction hrun with
  | start => exact .refl m
  | @step stages m₁ m₂ event hrun hstep ih =>
    rw [unattended_append, List.append_eq_nil_iff] at hstages
    obtain ⟨hbefore, hlast⟩ := hstages
    have hround : event.isRound = true := by simpa [unattended] using hlast
    exact (ih hbefore).trans (hstep.same_of_round (hrun.separate hplugins hm) hround)

/-- A service that was called comes to its end, and nothing else is done until then. -/
theorem exists_lapses_hook {notification : Notification} {code : Behaviour σ Empty Outcome}
    (hcode : code.Passive own) (e : Engine σ) (rest : List (Work σ)) :
    ∃ e', Lapses plugins ⟨e, .hook notification code :: rest⟩ ⟨e', rest⟩ := by
  have first : ∀ (e : Engine σ) (code : Behaviour σ Empty Outcome),
      Lapses plugins ⟨e, .hook notification code :: rest⟩
        ⟨(perform plugins e (.hook notification code)).2,
          (perform plugins e (.hook notification code)).1 ++ rest⟩ :=
    fun _ _ => Step.work.lapses rfl
  induction hcode generalizing e with
  | pure outcome => cases outcome <;> exact ⟨_, first e _⟩
  | @ask query next hlooks hnext ih =>
    obtain ⟨e', hlapses⟩ := ih (e.answer query).reply (e.answer query).engine
    refine ⟨e', (first e _).trans ?_⟩
    have htodo : (e.answer query).todo = [] := by
      rw [hlooks e]
      rfl
    show Lapses plugins ⟨_, (e.answer query).todo ++ [_] ++ rest⟩ _
    rw [htodo]
    exact hlapses
  | log hnext ih =>
    obtain ⟨e', hlapses⟩ := ih (e.write _)
    exact ⟨e', (first e _).trans hlapses⟩
  | @update change next hkeeps hnext ih =>
    obtain ⟨e', hlapses⟩ := ih e.host { e with host := change e.host }
    exact ⟨e', (first e _).trans hlapses⟩

/-- All services of a round are called, one after the other. -/
theorem exists_lapses_notify (hplugins : plugins.Separate own) (services : ServiceSet)
    (notification : Notification) (e : Engine σ) (rest : List (Work σ)) :
    ∃ e', Lapses plugins ⟨e, .notify services notification :: rest⟩ ⟨e', rest⟩ := by
  induction services generalizing e with
  | nil => exact ⟨e, Step.work.lapses rfl⟩
  | cons first services ih =>
    have hcalled : Lapses plugins ⟨e, .notify (first :: services) notification :: rest⟩
        ⟨e, .hook notification (plugins.service first notification) ::
          .notify services notification :: rest⟩ := Step.work.lapses rfl
    obtain ⟨e₁, hsaid⟩ : ∃ e₁, Lapses plugins ⟨e, .hook notification
        (plugins.service first notification) :: .notify services notification :: rest⟩
        ⟨e₁, .notify services notification :: rest⟩ :=
      exists_lapses_hook (hplugins.service first notification) e _
    obtain ⟨e', hothers⟩ := ih e₁
    exact ⟨e', (hcalled.trans hsaid).trans hothers⟩

/-- No service is being told anything. -/
def BetweenRounds (m : Machine σ) : Prop := ∀ work ∈ m.stack.head?, work.isRound = false

/-- The rounds that are going on come to their end. -/
theorem exists_lapses (hplugins : plugins.Separate own) (hm : m.Separate own) :
    ∃ m', Lapses plugins m m' ∧ m'.BetweenRounds := by
  obtain ⟨e, stack⟩ := m
  induction stack generalizing e with
  | nil => exact ⟨_, .refl _, by simp [BetweenRounds]⟩
  | cons work rest ih =>
    -- what is below has to come to its end in its turn
    have below : ∀ e', Lapses plugins ⟨e, work :: rest⟩ ⟨e', rest⟩ →
        ∃ m', Lapses plugins ⟨e, work :: rest⟩ m' ∧ m'.BetweenRounds := by
      intro e' hlapses
      obtain ⟨m', hrest, hbetween⟩ := ih e' (hlapses.separate hplugins hm)
      exact ⟨m', hlapses.trans hrest, hbetween⟩
    cases work with
    | hook notification code =>
      have hcode : code.Passive own := hm.todo _ List.mem_cons_self
      obtain ⟨e', hlapses⟩ := exists_lapses_hook hcode e rest
      exact below e' hlapses
    | notify services notification =>
      obtain ⟨e', hlapses⟩ := exists_lapses_notify hplugins services notification e rest
      exact below e' hlapses
    | _ => exact ⟨_, .refl _, by simp [BetweenRounds, Work.isRound]⟩

/-! ## Steps outside of rounds -/

theorem isRound_of_isChoice (h : event.isChoice = true) : event.isRound = false := by
  cases event with
  | work item => cases h
  | _ => rfl

/-- Where there is nothing to do but to tell the services, other steps are choices. -/
theorem Step.isChoice (h : Step plugins m event m') (hround : event.isRound = false)
    (hstack : Work.unattended m.stack = []) : event.isChoice = true := by
  cases h with
  | work =>
    rw [Work.unattended_cons hround] at hstack
    cases hstack
  | _ => rfl

/-- Scripts that find the same state make the same of it. -/
theorem own_change (hm : m.Separate own) (h : Step plugins m event m')
    (hround : event.isRound = false) {x y : σ} (hxy : own x = own y) :
    own (event.change x) = own (event.change y) := by
  cases h with
  | @work e work rest =>
    have hwork : work.Separate own := hm.todo work List.mem_cons_self
    cases work with
    | script context code =>
      cases hwork with
      | update hchange hsees hnext => exact hchange _ _ hxy
      | _ => exact hxy
    | abortHook context code =>
      cases hwork with
      | update hchange hsees hnext => exact hchange _ _ hxy
      | _ => exact hxy
    | hook notification code => cases hround
    | _ => exact hxy
  | _ => exact hxy

/-- What is registered after a step. -/
theorem Step.mem_services (h : Step plugins m event m') (service : ServiceId) :
    service ∈ m'.engine.services ↔ service ∈ m.engine.services ∨
      event.asks? = some (.core (.registerService service)) ∧ m.engine.alive = true := by
  rcases hasks : event.asks? with _ | query
  · simp [h.services hasks]
  · obtain ⟨hengine, -⟩ := h.answers hasks
    rw [hengine, Engine.mem_services_answer, Option.some.injEq]

theorem queue_take (e : Engine σ) (task : Task σ) :
    (take plugins e task).engine.queue = e.queue := by
  cases task with
  | start id =>
    simp only [take]
    split <;> rfl
  | _ => rfl

/-- Machines that are the same take the same step outside of rounds, if it is the same choice. -/
theorem Step.level (h : Step plugins m event n) (h' : Step plugins m' event' n')
    (hround : event.isRound = false) (hround' : event'.isRound = false)
    (hm : m.Separate own) (hsame : m.Same own shared m')
    (hchoice : event.isChoice = true → event'.isChoice = true →
      Stage.SameChoice own ⟨m, event, n⟩ ⟨m', event', n'⟩)
    (hcode : ∀ item query, event = .work item → item.asks? = some query → query.Neutral shared) :
    event = event' ∧ n.Level n' := by
  cases h with
  | @work e work rest =>
    -- the item on top is the same, as both have told the services all that there was to tell
    have htop := hsame.stack
    rw [Work.unattended_cons hround] at htop
    cases h' with
    | @work e' work' rest' =>
      rw [Work.unattended_cons hround'] at htop
      obtain ⟨rfl, hrest⟩ := List.cons.inj htop
      have hperform : Engine.LevelWork (perform plugins e work) (perform plugins e' work) :=
        hsame.engine.perform hround (hm.todo work List.mem_cons_self) hsame.host
          fun service hasks => hsame.services service (hcode work _ rfl hasks service rfl)
      obtain ⟨htodo, hengine⟩ := hperform
      refine ⟨rfl, hengine, ?_⟩
      rw [Work.unattended_append, Work.unattended_append, htodo, hrest]
    | _ => cases htop
  | @task e before after task hqueue =>
    have hsamechoice := hchoice rfl (h'.isChoice hround' hsame.stack.symm)
    cases hsamechoice.event
    cases h' with
    | @task e' before' after' _ hqueue' =>
      have hplace := hsamechoice.place task rfl
      simp only [queue_take] at hplace
      refine ⟨rfl, ?_⟩
      rw [hplace]
      exact level_take plugins
        (hsame.engine.map (fun e => { e with queue := before' ++ after' }) fun _ _ => rfl) task
  | ask query =>
    cases (hchoice rfl (h'.isChoice hround' hsame.stack.symm)).event
    cases h' with
    | ask query =>
      have hanswer := hsame.engine.answered query
      refine ⟨rfl, hanswer.engine, ?_⟩
      rw [Machine.ask, Machine.ask, List.append_nil, List.append_nil]
      exact hanswer.todo
  | permits tag count =>
    cases (hchoice rfl (h'.isChoice hround' hsame.stack.symm)).event
    cases h' with
    | permits => exact ⟨rfl, hsame.engine.givePermits tag count, rfl⟩
  | letGo =>
    cases (hchoice rfl (h'.isChoice hround' hsame.stack.symm)).event
    cases h' with
    | letGo =>
      exact ⟨rfl, hsame.engine.map (fun e => { e with alive := false }) fun _ _ => rfl, rfl⟩
  | outside host log =>
    cases (hchoice rfl (h'.isChoice hround' hsame.stack.symm)).event
    cases h' with
    | outside host' log' => exact ⟨rfl, hsame.engine, rfl⟩

/-- Machines that are the same take the same step outside of rounds, and are the same after it. -/
theorem Step.same (h : Step plugins m event n) (h' : Step plugins m' event' n')
    (hround : event.isRound = false) (hround' : event'.isRound = false)
    (hm : m.Separate own) (hsame : m.Same own shared m')
    (hchoice : event.isChoice = true → event'.isChoice = true →
      Stage.SameChoice own ⟨m, event, n⟩ ⟨m', event', n'⟩)
    (hcode : ∀ item query, event = .work item → item.asks? = some query → query.Neutral shared) :
    Stage.Same own shared ⟨m, event, n⟩ ⟨m', event', n'⟩ := by
  obtain ⟨rfl, hlevel⟩ := h.level h' hround hround' hm hsame hchoice hcode
  have halive : m.engine.alive = m'.engine.alive := hsame.engine.congr (·.alive) fun _ _ => rfl
  refine ⟨rfl, hsame, ⟨hlevel, ?_, ?_⟩, ?_⟩
  · show own n.engine.host = own n'.engine.host
    by_cases houtside : event = .outside
    · subst houtside
      exact (hchoice rfl rfl).state rfl
    · rw [h.host houtside, h'.host houtside]
      exact own_change hm h hround hsame.host
  · intro service hservice
    show service ∈ n.engine.services ↔ service ∈ n'.engine.services
    rw [h.mem_services, h'.mem_services, hsame.services service hservice, halive]
  · intro query hasks hneutral
    exact (hsame.engine.answer fun service hquery =>
      hsame.services service (hneutral service hquery)).reply

/-- A machine that has told the services all that there was to tell can take the same step. -/
theorem Step.exists_same (h : Step plugins m event n) (hround : event.isRound = false)
    (hsame : m.Same own shared m') (hbetween : m'.BetweenRounds) :
    ∃ n', Step plugins m' event n' ∧ Stage.SameChoice own ⟨m, event, n⟩ ⟨m', event, n'⟩ := by
  obtain ⟨e', stack'⟩ := m'
  -- the next item is no part of a round, so it is the first one that is none
  have next : ∀ {work : Work σ} {rest : List (Work σ)}, stack' = work :: rest →
      Work.unattended stack' = work :: Work.unattended rest := by
    rintro work rest rfl
    exact Work.unattended_cons (hbetween work rfl) rest
  have idle : Work.unattended m.stack = [] → stack' = [] := by
    intro hnone
    cases hstack' : stack' with
    | nil => rfl
    | cons work rest => cases hnone.symm.trans (hsame.stack.trans (next hstack'))
  cases h with
  | @work e work rest =>
    have hstack := hsame.stack
    rw [Work.unattended_cons hround] at hstack
    cases hstack' : stack' with
    | nil =>
      rw [hstack'] at hstack
      cases hstack
    | cons work' rest' =>
      obtain ⟨rfl, -⟩ := List.cons.inj (hstack.trans (next hstack'))
      exact ⟨_, .work, rfl, by simp, by simp⟩
  | @task e before after task hqueue =>
    cases idle rfl
    have hqueue' : e'.queue = before ++ task :: after :=
      (hsame.engine.congr (·.queue) fun _ _ => rfl).symm.trans hqueue
    exact ⟨_, .task hqueue', rfl, by simp [queue_take], by simp⟩
  | ask query =>
    cases idle rfl
    exact ⟨_, .ask query, rfl, by simp, by simp⟩
  | permits tag count =>
    cases idle rfl
    exact ⟨_, .permits tag count, rfl, by simp, by simp⟩
  | letGo =>
    cases idle rfl
    exact ⟨_, .letGo, rfl, by simp, by simp⟩
  | outside host log =>
    cases idle rfl
    exact ⟨_, .outside host log, rfl, by simp, by simp⟩

/-! ## Two runs -/

/-- Two lists agree as far as both of them go. -/
def Concur {α : Type} (R : α → α → Prop) (l l' : List α) : Prop :=
  ∀ (i : Nat) (x y : α), l[i]? = some x → l'[i]? = some y → R x y

theorem Concur.of_append {α : Type} {R : α → α → Prop} {a b a' b' : List α}
    (h : Concur R (a ++ b) (a' ++ b')) : Concur R a a' := by
  intro i x y hx hy
  apply h i x y
  · rw [List.getElem?_append_left (List.getElem?_eq_some_iff.1 hx).1, hx]
  · rw [List.getElem?_append_left (List.getElem?_eq_some_iff.1 hy).1, hy]

theorem Concur.middle {α : Type} {R : α → α → Prop} {a b a' b' : List α} {x y : α}
    (h : Concur R (a ++ x :: b) (a' ++ y :: b')) (hlength : a.length = a'.length) : R x y :=
  h a.length x y (by simp) (by simp [hlength])

theorem choices_append (first second : List (Stage σ)) :
    choices (first ++ second) = choices first ++ choices second := List.filter_append ..

theorem choices_cons (h : s.event.isChoice = true) (stages : List (Stage σ)) :
    choices (s :: stages) = s :: choices stages := List.filter_cons_of_pos h

/-- Choices are steps outside of rounds. -/
theorem choices_eq (stages : List (Stage σ)) :
    choices stages = (unattended stages).filter (·.event.isChoice) := by
  rw [unattended, List.filter_filter]
  refine List.filter_congr ?_
  intro s _
  rcases hchoice : s.event.isChoice with _ | _
  · rfl
  · simp [isRound_of_isChoice hchoice]

/-- Where the steps outside of rounds are the same, equally many of them are choices. -/
theorem length_choices
    (h : List.Forall₂ (Stage.Same own shared) (unattended stages) (unattended stages')) :
    (choices stages).length = (choices stages').length := by
  rw [choices_eq, choices_eq]
  refine (List.rel_filter ?_ h).length_eq
  intro s s' hsame
  exact iff_of_eq (congrArg (fun event => Event.isChoice event = true) hsame.event)

/-- A run up to one of its steps outside of rounds. -/
theorem Run.upTo (h : Run plugins start stages m) {i : Nat}
    (hs : (unattended stages)[i]? = some s) :
    ∃ earlier later, stages = earlier ++ s :: later ∧ Run plugins start earlier s.before ∧
      Step plugins s.before s.event s.after ∧ (unattended earlier).length = i ∧
      s.event.isRound = false := by
  obtain ⟨hi, hget⟩ := List.getElem?_eq_some_iff.1 hs
  have hsplit : unattended stages =
      (unattended stages).take i ++ s :: (unattended stages).drop (i + 1) := by
    rw [← hget, List.getElem_cons_drop, List.take_append_drop]
  obtain ⟨first, second, hstages, hfirst, hsecond⟩ := List.filter_eq_append_iff.1 hsplit
  obtain ⟨rounds, later, rfl, hrounds, hround, -⟩ := List.filter_eq_cons_iff.1 hsecond
  have hparts : stages = (first ++ rounds) ++ s :: later := by
    rw [hstages, List.append_assoc]
  obtain ⟨hrun, hstep⟩ := h.reached hparts
  refine ⟨first ++ rounds, later, hparts, hrun, hstep, ?_, by simpa using hround⟩
  have hnone : unattended rounds = [] := List.filter_eq_nil_iff.2 hrounds
  have hbefore : unattended first = (unattended stages).take i := hfirst
  rw [unattended_append, hnone, hbefore, List.append_nil, List.length_take]
  omega

/-- Runs from machines that are the same, with equally many steps outside of rounds and the same
choices as far as both go, take the same steps. The induction is on the first run; the steps of its
rounds are passed over, and each other step is the last one of the other run up to rounds. -/
theorem Run.lockstep (hplugins : plugins.Separate own) (hstart : start.Separate own)
    (hstart' : start'.Separate own) (hsame : start.Same own shared start')
    (h : Run plugins start stages m) (h' : Run plugins start' stages' m')
    (hcode : ∀ s ∈ stages, ∀ item query, s.event = .work item → item.asks? = some query →
      query.Neutral shared)
    (hlength : (unattended stages).length = (unattended stages').length)
    (hchoices : Concur (Stage.SameChoice own) (choices stages) (choices stages')) :
    List.Forall₂ (Stage.Same own shared) (unattended stages) (unattended stages') ∧
      m.Same own shared m' := by
  induction h generalizing stages' m' with
  | start =>
    have hnone : unattended stages' = [] := List.length_eq_zero_iff.1 hlength.symm
    have hlapses : Lapses plugins start' m' := ⟨stages', h', hnone⟩
    rw [hnone]
    exact ⟨.nil, hsame.trans (hlapses.same hplugins hstart')⟩
  | @step stages m n event hrun hstep ih =>
    have hm := hrun.separate hplugins hstart
    have hearlier : ∀ s ∈ stages, ∀ item query, s.event = .work item →
        item.asks? = some query → query.Neutral shared :=
      fun s hs => hcode s (List.mem_append_left _ hs)
    rcases hround : event.isRound with _ | _
    · have hlast : unattended (stages ++ [⟨m, event, n⟩]) =
          unattended stages ++ [⟨m, event, n⟩] := by
        simp [unattended, hround]
      rw [hlast] at hlength ⊢
      -- the other run has a last step outside of rounds, too, and only rounds after it
      have hi : (unattended stages).length < (unattended stages').length := by
        simp only [List.length_append, List.length_singleton] at hlength
        omega
      obtain ⟨s', hs'⟩ : ∃ s', (unattended stages')[(unattended stages).length]? = some s' :=
        ⟨_, List.getElem?_eq_getElem hi⟩
      obtain ⟨earlier, later, hparts, hrun', hstep', hcount, hround'⟩ := h'.upTo hs'
      have hlast' : unattended stages' = unattended earlier ++ s' :: unattended later := by
        rw [hparts, unattended_append]
        simp [unattended, hround']
      have hnone : unattended later = [] := by
        rw [hlast'] at hlength
        simp only [List.length_append, List.length_cons, List.length_nil, hcount] at hlength
        exact List.length_eq_zero_iff.1 (by omega)
      rw [hparts, choices_append, choices_append] at hchoices
      obtain ⟨hsteps, hbefore⟩ := ih hrun' hearlier hcount.symm hchoices.of_append
      have hchoice : event.isChoice = true → s'.event.isChoice = true →
          Stage.SameChoice own ⟨m, event, n⟩ s' := by
        intro hevent hevent'
        rw [choices_cons hevent, choices_cons hevent'] at hchoices
        exact hchoices.middle (length_choices hsteps)
      have hstage : Stage.Same own shared ⟨m, event, n⟩ s' :=
        hstep.same hstep' hround hround' hm hbefore hchoice
          (hcode _ (List.mem_append_right _ List.mem_cons_self))
      -- both are the same right after the step, and the rounds that follow change nothing
      have hlapses : Lapses plugins s'.after m' := ⟨later, h'.onward hparts, hnone⟩
      have hafter := hstep'.separate hplugins (hrun'.separate hplugins hstart')
      rw [hlast', hnone]
      exact ⟨List.rel_append hsteps (.cons hstage .nil),
        hstage.after.trans (hlapses.same hplugins hafter)⟩
    · -- a step of a round is no step of the others
      have hpassed : unattended (stages ++ [⟨m, event, n⟩]) = unattended stages := by
        simp [unattended, hround]
      have hnone : choices [⟨m, event, n⟩] = [] := by
        rw [choices_eq]
        simp [unattended, hround]
      rw [hpassed] at hlength ⊢
      rw [choices_append, hnone, List.append_nil] at hchoices
      obtain ⟨hsteps, hbefore⟩ := ih h' hearlier hlength hchoices
      exact ⟨hsteps, (hstep.same_of_round hm hround).symm.trans hbefore⟩

/-- Whatever a run does, there is one from a machine that is the same which makes the same choices
and takes the same steps. -/
theorem Run.exists_same (hplugins : plugins.Separate own) (hstart : start.Separate own)
    (hstart' : start'.Separate own) (hsame : start.Same own shared start')
    (h : Run plugins start stages m)
    (hcode : ∀ s ∈ stages, ∀ item query, s.event = .work item → item.asks? = some query →
      query.Neutral shared) :
    ∃ stages' m', Run plugins start' stages' m' ∧
      List.Forall₂ (Stage.SameChoice own) (choices stages) (choices stages') ∧
      List.Forall₂ (Stage.Same own shared) (unattended stages) (unattended stages') ∧
      m.Same own shared m' := by
  induction h with
  | start => exact ⟨[], start', .start, .nil, .nil, hsame⟩
  | @step stages m n event hrun hstep ih =>
    have hm := hrun.separate hplugins hstart
    obtain ⟨stages', m', hrun', hchoices, hsteps, hbefore⟩ :=
      ih fun s hs => hcode s (List.mem_append_left _ hs)
    rw [choices_append, unattended_append]
    rcases hround : event.isRound with _ | _
    · -- the other run tells its services all that there is to tell first
      have hm' := hrun'.separate hplugins hstart'
      obtain ⟨m'', hlapses, hbetween⟩ := exists_lapses hplugins hm'
      have hready := hbefore.trans (hlapses.same hplugins hm')
      obtain ⟨rounds, hrounds, hnone⟩ := hlapses
      obtain ⟨n', hstep', hchoice⟩ := hstep.exists_same hround hready hbetween
      have hstage := hstep.same hstep' hround hround hm hready (fun _ _ => hchoice)
        (hcode _ (List.mem_append_right _ List.mem_cons_self))
      refine ⟨_, n', (hrun'.append hrounds).step hstep', ?_, ?_, hstage.after⟩
      · have hidle : choices rounds = [] := by rw [choices_eq, hnone, List.filter_nil]
        rw [choices_append, choices_append, hidle, List.append_nil]
        refine List.rel_append hchoices ?_
        rcases hevent : event.isChoice with _ | _
        · simp [choices, hevent]
        · simpa [choices, hevent] using hchoice
      · rw [unattended_append, unattended_append, hnone, List.append_nil]
        refine List.rel_append hsteps ?_
        simpa [unattended, hround] using hstage
    · refine ⟨stages', m', hrun', ?_, ?_, (hstep.same_of_round hm hround).symm.trans hbefore⟩
      · have hnone : choices [⟨m, event, n⟩] = [] := by
          rw [choices_eq]
          simp [unattended, hround]
        rwa [hnone, List.append_nil]
      · simpa [unattended, hround] using hsteps

/-- How the runs from another machine compare with a run. -/
structure Accompanied (own : σ → τ) (shared : ServiceId → Prop) (plugins : Plugins σ)
    (start' : Machine σ) (stages : List (Stage σ)) (m : Machine σ) : Prop where
  /-- One of them makes the same choices and takes the same steps. -/
  found : ∃ stages' m', Run plugins start' stages' m' ∧
    List.Forall₂ (Stage.SameChoice own) (choices stages) (choices stages') ∧
    List.Forall₂ (Stage.Same own shared) (unattended stages) (unattended stages') ∧
    m.Same own shared m'
  /-- Those that make the same choices take the same steps, as far as both go. -/
  steps : ∀ {stages' m'}, Run plugins start' stages' m' →
    Concur (Stage.SameChoice own) (choices stages) (choices stages') →
    Concur (Stage.Same own shared) (unattended stages) (unattended stages')
  /-- Those that make the same choices and no more or less of them end in the same state, once
  nothing is left to do. -/
  ends : ∀ {stages' m'}, Run plugins start' stages' m' →
    Concur (Stage.SameChoice own) (choices stages) (choices stages') →
    (choices stages).length = (choices stages').length → m.stack = [] → m'.stack = [] →
    List.Forall₂ (Stage.Same own shared) (unattended stages) (unattended stages') ∧
      m.Same own shared m'

/-- Where nothing is left to do but to tell the services, the next step outside of rounds is one
more choice. -/
theorem length_choices_lt (hparts : stages = earlier ++ s :: later)
    (hstep : Step plugins s.before s.event s.after) (hround : s.event.isRound = false)
    (hstack : Work.unattended s.before.stack = []) :
    (choices earlier).length < (choices stages).length := by
  rw [hparts, choices_append, choices_cons (hstep.isChoice hround hstack), List.length_append,
    List.length_cons]
  omega

theorem Run.accompanied (hplugins : plugins.Separate own) (hstart : start.Separate own)
    (hstart' : start'.Separate own) (hsame : start.Same own shared start')
    (h : Run plugins start stages m)
    (hcode : ∀ s ∈ stages, ∀ item query, s.event = .work item → item.asks? = some query →
      query.Neutral shared) :
    Accompanied own shared plugins start' stages m where
  found := h.exists_same hplugins hstart hstart' hsame hcode
  steps := by
    intro stages' m' h' hchoices i s s' hs hs'
    -- up to the two steps, the runs have equally many steps outside of rounds
    obtain ⟨earlier, later, rfl, hrun, hstep, hcount, hround⟩ := h.upTo hs
    obtain ⟨earlier', later', rfl, hrun', hstep', hcount', hround'⟩ := h'.upTo hs'
    rw [choices_append, choices_append] at hchoices
    obtain ⟨hsteps, hbefore⟩ := hrun.lockstep hplugins hstart hstart' hsame hrun'
      (fun r hr => hcode r (List.mem_append_left _ hr)) (hcount.trans hcount'.symm)
      hchoices.of_append
    refine hstep.same hstep' hround hround' (hrun.separate hplugins hstart) hbefore ?_
      (hcode s (List.mem_append_right _ List.mem_cons_self))
    intro hchoice hchoice'
    rw [choices_cons hchoice, choices_cons hchoice'] at hchoices
    exact hchoices.middle (length_choices hsteps)
  ends := by
    intro stages' m' h' hchoices hcount hm hm'
    have settled : ∀ {m n : Machine σ}, m.Same own shared n → m.stack = [] →
        Work.unattended n.stack = [] := by
      intro m n hsame hstack
      rw [← hsame.stack, hstack]
      rfl
    rcases Nat.lt_trichotomy (unattended stages).length (unattended stages').length with
      hless | hequal | hmore
    · -- the other run would go on with a choice, of which it has no more
      obtain ⟨s', hs'⟩ : ∃ s', (unattended stages')[(unattended stages).length]? = some s' :=
        ⟨_, List.getElem?_eq_getElem hless⟩
      obtain ⟨earlier, later, hparts, hrun', hstep', hlength, hround⟩ := h'.upTo hs'
      rw [hparts, choices_append, ← List.append_nil (choices stages)] at hchoices
      obtain ⟨hsteps, hbefore⟩ := h.lockstep hplugins hstart hstart' hsame hrun' hcode
        hlength.symm hchoices.of_append
      have hlonger := length_choices_lt hparts hstep' hround (settled hbefore hm)
      have hsofar := length_choices hsteps
      omega
    · exact h.lockstep hplugins hstart hstart' hsame h' hcode hequal hchoices
    · obtain ⟨s, hs⟩ : ∃ s, (unattended stages)[(unattended stages').length]? = some s :=
        ⟨_, List.getElem?_eq_getElem hmore⟩
      obtain ⟨earlier, later, hparts, hrun, hstep, hlength, hround⟩ := h.upTo hs
      rw [hparts, choices_append, ← List.append_nil (choices stages')] at hchoices
      obtain ⟨hsteps, hbefore⟩ := hrun.lockstep hplugins hstart hstart' hsame h'
        (fun r hr => hcode r (by rw [hparts]; exact List.mem_append_left _ hr)) hlength
        hchoices.of_append
      have hlonger := length_choices_lt hparts hstep hround (settled hbefore.symm hm')
      have hsofar := length_choices hsteps
      omega

/-! ## Different services -/

/-- An engine that a list of services is registered with, and nothing to do. -/
def staffed (host : σ) (config : CoreConfig) (services : List ServiceId) : Machine σ :=
  services.foldl (fun m service => (m.ask (.core (.registerService service))).2)
    (opened host config)

/-- Registering services changes nothing but what is registered. -/
theorem foldl_register (host : σ) (config : CoreConfig) (services registered : List ServiceId) :
    ∃ registered', services.foldl (fun m service => (m.ask (.core (.registerService service))).2)
        (⟨{ Engine.new host config with services := registered }, []⟩ : Machine σ) =
      ⟨{ Engine.new host config with services := registered' }, []⟩ ∧
    ∀ service, service ∈ registered' ↔ service ∈ registered ∨ service ∈ services := by
  induction services generalizing registered with
  | nil => exact ⟨registered, rfl, by simp⟩
  | cons first services ih =>
    have hfirst : ((⟨{ Engine.new host config with services := registered }, []⟩ : Machine σ).ask
        (.core (.registerService first))).2 = ⟨{ Engine.new host config with
          services := if first ∈ registered then registered else registered ++ [first] }, []⟩ := by
      by_cases hmem : first ∈ registered
      · simp [Machine.ask, Engine.answer, Engine.answerCore, Engine.registerService,
          ServiceSet.register, Engine.respond, Engine.new, hmem]
      · simp [Machine.ask, Engine.answer, Engine.answerCore, Engine.registerService,
          ServiceSet.register, Engine.respond, Engine.new, hmem]
    obtain ⟨registered', heq, hmem⟩ :=
      ih (if first ∈ registered then registered else registered ++ [first])
    refine ⟨registered', by rw [List.foldl_cons, hfirst, heq], ?_⟩
    intro service
    rw [hmem, List.mem_cons]
    grind

theorem staffed_eq (host : σ) (config : CoreConfig) (services : List ServiceId) :
    ∃ registered, staffed host config services =
        ⟨{ Engine.new host config with services := registered }, []⟩ ∧
      ∀ service, service ∈ registered ↔ service ∈ services := by
  obtain ⟨registered, heq, hmem⟩ := foldl_register host config services []
  exact ⟨registered, heq, by simpa using hmem⟩

/-- A service is in both of two lists, or in neither. -/
def Shared (services services' : List ServiceId) (service : ServiceId) : Prop :=
  service ∈ services ↔ service ∈ services'

variable {host : σ} {config : CoreConfig} {services services' : List ServiceId}

theorem same_staffed : (staffed host config services).Same own (Shared services services')
    (staffed host config services') := by
  obtain ⟨registered, heq, hmem⟩ := staffed_eq host config services
  obtain ⟨registered', heq', hmem'⟩ := staffed_eq host config services'
  rw [heq, heq']
  refine ⟨⟨fun _ => rfl, rfl⟩, rfl, ?_⟩
  intro service hshared
  exact (hmem service).trans (hshared.trans (hmem' service).symm)

theorem separate_staffed : (staffed host config services).Separate own := by
  obtain ⟨registered, heq, -⟩ := staffed_eq host config services
  rw [heq]
  refine ⟨by simp, ?_⟩
  simp [Engine.shelved, Engine.new]

/-- Services are passive. Whatever is done with an engine, with other services registered from the
start the same is done, but for the rounds in which services are told: all scripts go the same way,
all that is asked gets the same reply, and at each step the threads are the same, but for the
services that they were created with. Who registers a service later on learns whether it is there
already; so scripts may only register services that both lists have, or neither, and the replies to
registrations from outside are compared for such services only. -/
theorem Run.services_passive (hplugins : plugins.Separate own)
    (h : Run plugins (staffed host config services) stages m)
    (hcode : ∀ s ∈ stages, ∀ item query, s.event = .work item → item.asks? = some query →
      query.Neutral (Shared services services')) :
    Accompanied own (Shared services services') plugins (staffed host config services') stages m :=
  h.accompanied hplugins separate_staffed separate_staffed same_staffed hcode

/-! ## A service that counts -/

/-- Scripts count how often they run. Services count how often they are told something, and fail
each time. -/
def tallyPlugins : Plugins (Nat × Nat) where
  script _ :=
    ⟨fun _ => .update (fun s => (s.1 + 1, s.2)) fun _ => .pure (.ok ()), fun _ => .pure ()⟩
  service _ _ := .update (fun s => (s.1, s.2 + 1)) fun _ => .pure (.error (.ofMessage "no"))

theorem separate_tallyPlugins : tallyPlugins.Separate Prod.fst where
  execute _ _ := .update (fun _ _ h => congrArg (· + 1) h) (fun _ _ _ => rfl) fun _ => .pure _
  abort _ _ := .pure _
  service _ _ := .update (fun _ => rfl) fun _ => .pure _

/-- The engine is made ready, and a thread is created and left to itself up to its end. -/
def tallied : List (Query × Nat) :=
  [(.core (.registerScript "a" ⟨"a", some [], "a"⟩), 0), (.core .initializeCore, 9),
    (.core (.createThread none), 99)]

/-- The thread dispatches its script, which runs and is completed, and then it is destroyed. The
service is told five things on the way and fails each time, of which the log keeps record. Without
it, nothing else is different. -/
theorem Run.services_passive_tally : ∃ stages m,
    Run tallyPlugins (staffed (0, 0) sampleConfig [0]) stages m ∧
      dispatches 0 stages = [⟨"a", 0, 1, .new "a"⟩] ∧
      retirements 0 stages = [(⟨"a", 0, 1, .new "a"⟩, .completed)] ∧
      m.engine.phase? 0 = some .destroyed ∧ m.engine.host = (1, 5) ∧ m.engine.log.length = 5 ∧
      Accompanied Prod.fst (Shared [0] []) tallyPlugins (staffed (0, 0) sampleConfig []) stages
        m := by
  let start := staffed (0, 0) sampleConfig [0]
  let stages := (start.play tallyPlugins tallied).1
  let m := (start.play tallyPlugins tallied).2
  have hrun : Run tallyPlugins start stages m := by
    simpa using (Run.start : Run tallyPlugins start [] _).play tallied
  have hsilent : stages.all (fun s => (s.event.item?.bind Work.asks?).isNone) = true := by
    decide +kernel
  refine ⟨stages, m, hrun, by decide +kernel, by decide +kernel, by decide +kernel,
    by decide +kernel, by decide +kernel, Run.services_passive separate_tallyPlugins hrun ?_⟩
  -- the code that runs asks for nothing
  intro s hs item query hevent hasks
  have hnone := List.all_eq_true.1 hsilent s hs
  simp [hevent, Event.item?, hasks] at hnone

end Machine
end SentenceEngine
