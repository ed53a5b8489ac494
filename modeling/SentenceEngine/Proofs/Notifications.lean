import SentenceEngine.Proofs.Custody

/-!
# What services are told about a thread

A step tells the services of at most one thread at most one thing, and to tell it is to begin a
round: one service after the other is called. As long as services ask the engine for nothing, a
round comes to its end before anything else is done, so that each service of the thread hears all
that the thread has to tell, in the same order, whatever the services say in the end.

* `News`, `Machine.Event.news?`: what there is to tell, and the steps that tell it.
* `Machine.Tells`, `Machine.Step.tells`: how a step tells it.
* `Machine.Rounds`: at most one round is going on, on top of the stack.
* `Machine.heard`, `Machine.Run.hearing`: what a service was called with, over a whole run.
-/

namespace SentenceEngine

variable {σ : Type}

/-- All services ask the engine for nothing. -/
def Plugins.ServeQuietly (plugins : Plugins σ) : Prop :=
  ∀ service notification, (plugins.service service notification).Quiet

/-- What the services of a thread are told. Scripts are known by their contexts here, of which the
services see the instruction. -/
inductive News where
  | created
  | before (context : Context)
  | after (context : Context)
  | error (problem : ThreadError)
  | willDestroy
deriving DecidableEq

namespace News

/-- What the services are called with. -/
def notification (id : ThreadId) : News → Notification
  | .created => .created id
  | .before context => .before id context.instruction
  | .after context => .after id context.instruction
  | .error problem => .error id problem
  | .willDestroy => .willDestroy id

theorem thread?_notification (id : ThreadId) (news : News) :
    (news.notification id).thread? = some id := by
  cases news <;> rfl

end News

namespace Work

/-- Whether an item of work is part of a round of the services. -/
def isRound : Work σ → Bool
  | .hook _ _ => true
  | .notify _ _ => true
  | _ => false

/-- What a service is still to be told about a thread. -/
def awaits? (service : ServiceId) (id : ThreadId) : Work σ → Option Notification
  | .notify services notification =>
    if service ∈ services ∧ notification.thread? = some id then some notification else none
  | _ => none

theorem awaits?_of_not_round {service : ServiceId} {id : ThreadId} {work : Work σ}
    (h : work.isRound = false) : work.awaits? service id = none := by
  cases work with
  | notify services notification => cases h
  | _ => rfl

end Work

namespace Engine

variable {e e' : Engine σ} {id : ThreadId} {t : ThreadState}

/-! ## The registered services -/

/-- No service is registered twice, neither now nor when a thread was created. -/
structure Registered (e : Engine σ) : Prop where
  now : e.services.Nodup
  captured : ∀ {id t}, e.thread? id = some t → t.services.Nodup

theorem servicesOf_eq (ht : e.thread? id = some t) : e.servicesOf id = t.services := by
  simp [servicesOf, ht]

theorem Registered.servicesOf (h : e.Registered) (id : ThreadId) : (e.servicesOf id).Nodup := by
  rcases ht : e.thread? id with _ | t
  · simp [Engine.servicesOf, ht]
  · rw [servicesOf_eq ht]
    exact h.captured ht

theorem servicesOf_modifyThread {f : ThreadState → ThreadState} (hn : e.Numbered)
    (hid : ∀ t : ThreadState, (f t).id = t.id)
    (hf : ∀ t : ThreadState, (f t).services = t.services) :
    (e.modifyThread id f).servicesOf id = e.servicesOf id := by
  rcases ht : e.thread? id with _ | t
  · rw [modifyThread_none ht]
  · have hset : (e.setThread (f t)).thread? id = some (f t) := by
      have hown : (f t).id = id := (hid t).trans (hn _ _ ht)
      rw [← hown]
      exact thread?_setThread_self (by rwa [hown])
    rw [modifyThread_eq ht, servicesOf_eq hset, servicesOf_eq ht, hf]

@[simp]
theorem services_modifyThread (f : ThreadState → ThreadState) :
    (e.modifyThread id f).services = e.services := by
  unfold modifyThread
  split <;> rfl

@[simp]
theorem services_dropStart : (e.dropStart id).services = e.services := by
  unfold dropStart
  split
  · exact services_modifyThread _
  · rfl

theorem services_handPermits (tag : String) (count : Nat) :
    (e.handPermits tag count).services = e.services := by
  induction count generalizing e with
  | zero => rfl
  | succ count ih =>
    unfold handPermits
    dsimp only
    split
    · rw [ih]
      rfl
    · rfl

theorem WorkedOff.services {plugins : Plugins σ} {work : Work σ} {todo : List (Work σ)}
    (h : e.WorkedOff plugins work todo e') (hasks : work.asks? = none) :
    e'.services = e.services := by
  cases h with
  | asked hquery => cases hquery.symm.trans hasks
  | failed hcurrent => exact services_modifyThread _
  | aborted => exact services_modifyThread _
  | destroying hrunning => exact services_modifyThread _
  | cleared => exact (services_modifyThread _).trans services_dropStart
  | released => exact services_modifyThread _
  | started => exact services_modifyThread _
  | _ => rfl

theorem services_transfer (caller : Option Context) (program : Sequence)
    (entry : Option String) :
    (e.transfer id caller program entry).engine.services = e.services := by
  rcases transfer_cases (e := e) id caller program entry with
    ⟨error, hrefused⟩ | ⟨t, p, -, -, hgranted⟩
  · rw [hrefused]
    rfl
  · rw [hgranted, services_dropStart]
    rfl

/-- A request registers a service that was not registered, or leaves the services as they are. -/
theorem services_answer (query : Query) :
    (∃ service, query = .core (.registerService service) ∧ e.alive = true ∧ service ∉ e.services ∧
      (e.answer query).engine.services = e.services ++ [service]) ∨
    ((∀ service, query = .core (.registerService service) → e.alive = true →
      service ∈ e.services) ∧ (e.answer query).engine.services = e.services) := by
  have same : (∀ service, query ≠ .core (.registerService service)) →
      (e.answer query).engine.services = e.services →
      (∀ service, query = .core (.registerService service) → e.alive = true →
        service ∈ e.services) ∧ (e.answer query).engine.services = e.services := by
    intro hother hservices
    exact ⟨fun service hquery => absurd hquery (hother service), hservices⟩
  cases query with
  | setVar id name value => exact .inr (same (by simp) (services_modifyThread _))
  | execute id program entry => exact .inr (same (by simp) (services_transfer _ _ _))
  | transfer context program entry => exact .inr (same (by simp) (services_transfer _ _ _))
  | destroy id =>
    refine .inr (same (by simp) ?_)
    simp only [answer, destroyThread]
    split <;> rfl
  | core query =>
    by_cases halive : e.alive = true
    · cases query with
      | createThread overrides =>
        refine .inr (same (by simp) ?_)
        simp only [answer, halive, if_true]
        rcases createThread_cases (e := e) overrides with
          ⟨error, -, -, -, hservices⟩ | ⟨-, -, -, hservices, -⟩
        · exact hservices
        · exact hservices
      | initializeCore =>
        refine .inr (same (by simp) ?_)
        simp only [answer, halive, if_true, answerCore]
        split <;> rfl
      | configure config =>
        obtain ⟨log, defaults, validated, hconfigure⟩ := configure_eq (e := e) config
        refine .inr (same (by simp) ?_)
        simp only [answer, halive, if_true, answerCore, respond, hconfigure]
      | validate program =>
        obtain ⟨log, hvalidate⟩ := validate_eq (e := e) program
        refine .inr (same (by simp) ?_)
        simp only [answer, halive, if_true, answerCore, respond, hvalidate]
      | registerScript name factory =>
        obtain ⟨log, scripts, hregister⟩ := registerScript_eq (e := e) name factory
        refine .inr (same (by simp) ?_)
        simp only [answer, halive, if_true, answerCore, respond, hregister]
      | registerService service =>
        by_cases hmem : service ∈ e.services
        · refine .inr ⟨?_, ?_⟩
          · rintro _ ⟨⟩ -
            exact hmem
          · simp [answer, halive, answerCore, respond, registerService, ServiceSet.register, hmem]
        · refine .inl ⟨service, rfl, halive, hmem, ?_⟩
          simp [answer, halive, answerCore, respond, registerService, ServiceSet.register, hmem]
      | _ => exact .inr (same (by simp) (by simp [answer, halive, answerCore, respond]))
    · exact .inr ⟨fun _ _ h => absurd h halive, by simp [answer, halive, respond]⟩
  | _ => exact .inr (same (by simp) rfl)

theorem nodup_answer (query : Query) (h : e.services.Nodup) :
    (e.answer query).engine.services.Nodup := by
  rcases services_answer (e := e) query with ⟨service, -, -, hnew, hservices⟩ | ⟨-, hservices⟩
  · -- the new service comes last, and it is none of the others
    rw [hservices, List.nodup_append]
    refine ⟨h, by simp, ?_⟩
    intro other hother new hnew'
    rw [List.mem_singleton.1 hnew']
    rintro rfl
    exact hnew hother
  · rwa [hservices]

theorem mem_services_answer (query : Query) (service : ServiceId) :
    service ∈ (e.answer query).engine.services ↔
      service ∈ e.services ∨ query = .core (.registerService service) ∧ e.alive = true := by
  rcases services_answer (e := e) query with
    ⟨new, rfl, halive, -, hservices⟩ | ⟨hold, hservices⟩
  · simp [hservices, halive, eq_comm]
  · rw [hservices]
    exact ⟨.inl, fun h => h.elim id fun ⟨hquery, halive⟩ => hold service hquery halive⟩

end Engine

namespace Query

/-- The thread that a request brings into being. -/
def creates? (e : Engine σ) : Query → Option ThreadId
  | .core (.createThread overrides) =>
    (e.answer (.core (.createThread overrides))).reply.bind Except.toOption
  | _ => none

theorem creates?_eq_some_iff {e : Engine σ} {query : Query} {id : ThreadId} :
    query.creates? e = some id ↔ ∃ overrides, query = .core (.createThread overrides) ∧
      (e.answer (.core (.createThread overrides))).reply = some (.ok id) := by
  constructor
  · intro h
    unfold creates? at h
    split at h
    next overrides =>
      refine ⟨overrides, rfl, ?_⟩
      obtain ⟨reply, hreply, hid⟩ := Option.bind_eq_some_iff.1 h
      rw [hreply]
      cases reply with
      | error error => cases hid
      | ok other =>
        cases hid
        rfl
    next => cases h
  · rintro ⟨overrides, rfl, hreply⟩
    simp [creates?, hreply, Except.toOption]

end Query

namespace Engine

variable {e : Engine σ} {id : ThreadId}

/-- A request is answered without a round of the services, or it brings a thread into being, of
which the services that the thread was created with are told. -/
theorem rounds_answer (query : Query) :
    ((∀ work ∈ (e.answer query).todo, work.isRound = false) ∧ query.creates? e = none) ∨
    ∃ id, query.creates? e = some id ∧ (e.answer query).todo =
      [.notify ((e.answer query).engine.servicesOf id) (.created id), .start id] := by
  have nothing : ∀ work ∈ ([] : List (Work σ)), work.isRound = false := by simp
  have moved : ∀ id caller program entry,
      ∀ work ∈ (e.transfer id caller program entry).todo, work.isRound = false := by
    intro id caller program entry
    rcases transfer_cases (e := e) id caller program entry with
      ⟨error, hrefused⟩ | ⟨t, p, -, -, hgranted⟩
    · rw [hrefused]
      exact nothing
    · rw [hgranted]
      rcases advanceWork_cases (σ := σ) id p.run.1 with ⟨aborted, htodo⟩ | htodo
      · simp [htodo, Work.isRound]
      · simp [htodo, Work.isRound]
  cases query with
  | execute id program entry => exact .inl ⟨moved _ _ _ _, rfl⟩
  | transfer context program entry => exact .inl ⟨moved _ _ _ _, rfl⟩
  | destroy id =>
    refine .inl ⟨?_, rfl⟩
    simp only [answer, destroyThread]
    split
    · simp [Work.isRound]
    · exact nothing
  | core query =>
    by_cases halive : e.alive = true
    · cases query with
      | createThread overrides =>
        have hanswer : e.answer (.core (.createThread overrides)) =
            ⟨some (e.createThread overrides).reply, (e.createThread overrides).todo,
              (e.createThread overrides).engine⟩ := by
          simp only [answer, halive, if_true]
          rfl
        rcases createThread_cases (e := e) overrides with
          ⟨error, hreply, htodo, -⟩ | ⟨hreply, htodo, -, -, t, ht, -, hservices⟩
        · left
          simp only [Query.creates?, hanswer, hreply, htodo]
          exact ⟨nothing, rfl⟩
        · right
          refine ⟨e.threads.length, ?_, ?_⟩
          · simp only [Query.creates?, hanswer, hreply]
            rfl
          · simp only [hanswer, htodo, servicesOf_eq ht, hservices]
      | destroyAll =>
        left
        simp [answer, halive, answerCore, Work.isRound, Query.creates?]
      | destroyCore =>
        left
        simp only [answer, halive, if_true, answerCore, Query.creates?, and_true]
        intro work hwork
        simp only [List.mem_append, List.mem_map, List.mem_cons, List.not_mem_nil, or_false]
          at hwork
        rcases hwork with ⟨id, -, rfl⟩ | rfl | rfl <;> rfl
      | initializeCore =>
        refine .inl ⟨?_, rfl⟩
        simp only [answer, halive, if_true, answerCore]
        split
        · exact nothing
        · simp [Work.isRound]
      | _ =>
        refine .inl ⟨?_, rfl⟩
        simp only [answer, halive, if_true]
        exact nothing
    · left
      simp only [answer, halive]
      refine ⟨nothing, ?_⟩
      cases query with
      | createThread overrides => simp [Query.creates?, answer, halive, respond]
      | _ => rfl
  | _ => exact .inl ⟨nothing, rfl⟩

end Engine

namespace Machine

variable {plugins : Plugins σ} {m m' : Machine σ} {event : Event σ} {id : ThreadId}
  {t t' : ThreadState} {e e' : Engine σ} {todo : List (Work σ)} {service : ServiceId}

/-! ## What there is to tell -/

namespace Event

/-- What a step has the services of a thread told. -/
def news? (e : Engine σ) : Event σ → Option (ThreadId × News)
  | .work (.arrive id (.dispatch dispatched)) => some (id, .before dispatched.context)
  | .work (.script context (.pure (.ok _))) =>
    if e.phase? context.thread = some .running then some (context.thread, .after context) else none
  | .work (.fail id error) => some (id, .error error)
  | .work (.destroy id) =>
    if e.phase? id = some .running then some (id, .willDestroy) else none
  | event => (event.asks?.bind (·.creates? e)).map fun id => (id, .created)

theorem news?_of_asks {query : Query} (h : event.asks? = some query) :
    event.news? e = (query.creates? e).map fun id => (id, .created) := by
  cases event with
  | work item =>
    cases item with
    | script context code =>
      cases code with
      | ask _ _ =>
        cases h
        rfl
      | _ => cases h
    | hook notification code =>
      cases code with
      | ask _ _ =>
        cases h
        rfl
      | _ => cases h
    | abortHook context code =>
      cases code with
      | ask _ _ =>
        cases h
        rfl
      | _ => cases h
    | _ => cases h
  | ask _ =>
    cases h
    rfl
  | _ => cases h

/-- What a service is called with about a thread. -/
def hears? (service : ServiceId) (id : ThreadId) : Event σ → Option Notification
  | .work (.notify (first :: _) notification) =>
    if first = service ∧ notification.thread? = some id then some notification else none
  | _ => none

/-- A step that is no part of a round. -/
def IsSilent (event : Event σ) : Prop := ∀ item ∈ event.item?, item.isRound = false

theorem IsSilent.hears? (h : event.IsSilent) : event.hears? service id = none := by
  cases event with
  | work item =>
    cases item with
    | notify services notification => cases h _ rfl
    | _ => rfl
  | _ => rfl

end Event

/-- What a step has the services of one thread told. -/
def Stage.news? (id : ThreadId) (s : Stage σ) : Option News :=
  ((s.event.news? s.before.engine).filter (·.1 == id)).map (·.2)

/-- All that there was to tell about a thread, in order. -/
def history (id : ThreadId) (stages : List (Stage σ)) : List News :=
  stages.filterMap (·.news? id)

/-- What a service was called with about a thread, in order. -/
def heard (service : ServiceId) (id : ThreadId) (stages : List (Stage σ)) : List Notification :=
  stages.filterMap (·.event.hears? service id)

/-- What a service is still to be told about a thread. -/
def awaiting (service : ServiceId) (id : ThreadId) (m : Machine σ) : List Notification :=
  m.stack.filterMap (·.awaits? service id)

theorem Stage.news?_eq_some_iff {news : News} :
    Stage.news? id ⟨m, event, m'⟩ = some news ↔ event.news? m.engine = some (id, news) := by
  simp only [Stage.news?, Option.map_eq_some_iff, Option.filter_eq_some_iff]
  constructor
  · rintro ⟨⟨other, told⟩, ⟨hnews, hid⟩, rfl⟩
    cases eq_of_beq hid
    exact hnews
  · intro hnews
    exact ⟨(id, news), ⟨hnews, by simp⟩, rfl⟩

/-- To be called is to have one's code run next. -/
theorem Step.calls (h : Step plugins m event m') {notification : Notification}
    (hhears : event.hears? service id = some notification) :
    ∃ rest, m'.stack = .hook notification (plugins.service service notification) :: rest := by
  cases event with
  | work item =>
    obtain ⟨rest, hstack⟩ := h.stack_of_event
    obtain ⟨e, stack⟩ := m
    cases hstack
    cases item with
    | notify services told =>
      cases services with
      | nil => cases hhears
      | cons first services =>
        simp only [Event.hears?, Option.ite_none_right_eq_some, Option.some.injEq] at hhears
        obtain ⟨⟨rfl, -⟩, rfl⟩ := hhears
        cases h
        exact ⟨_, rfl⟩
    | _ => cases hhears
  | _ => cases hhears

/-! ## How it is told -/

/-- All that a step can leave to tell the services. -/
inductive Tells (plugins : Plugins σ) (e : Engine σ) :
    Event σ → List (Work σ) → Engine σ → Prop
  | silent {event : Event σ} {todo : List (Work σ)} {e' : Engine σ} (hevent : event.IsSilent)
      (hnews : event.news? e = none) (htodo : ∀ work ∈ todo, work.isRound = false) :
      Tells plugins e event todo e'
  /-- The services that the thread was created with are told. -/
  | told {event : Event σ} {id : ThreadId} (news : News) {more : List (Work σ)} {e' : Engine σ}
      (hevent : event.IsSilent) (hnews : event.news? e = some (id, news))
      (hmore : ∀ work ∈ more, work.isRound = false) :
      Tells plugins e event (.notify (e'.servicesOf id) (news.notification id) :: more) e'
  /-- The services that are registered are told something about the engine. -/
  | announced {event : Event σ} {notification : Notification} {e' : Engine σ}
      (hevent : event.IsSilent) (hnews : event.news? e = none)
      (hthread : notification.thread? = none) :
      Tells plugins e event [.notify e.services notification] e'
  /-- The next service of a round is called. -/
  | called {first : ServiceId} {services : ServiceSet} {notification : Notification}
      {e' : Engine σ} :
      Tells plugins e (.work (.notify (first :: services) notification))
        [.hook notification (plugins.service first notification), .notify services notification] e'
  | finished {notification : Notification} {e' : Engine σ} :
      Tells plugins e (.work (.notify [] notification)) [] e'
  /-- The service that was called goes on, or is done. -/
  | spoken {notification : Notification} {code : Behaviour σ Empty Outcome}
      (next : Option (Behaviour σ Empty Outcome)) {e' : Engine σ}
      (hnews : (Event.work (.hook notification code)).news? e = none)
      (hquiet : ∀ rest ∈ next, rest.Quiet) :
      Tells plugins e (.work (.hook notification code))
        (next.map (Work.hook notification)).toList e'

/-- A request is served in one round at most. -/
theorem tells_answer {query : Query} {last : List (Work σ)} (hevent : event.IsSilent)
    (hasks : event.asks? = some query) (hlast : ∀ work ∈ last, work.isRound = false) :
    Tells plugins e event ((e.answer query).todo ++ last) (e.answer query).engine := by
  have hnews := Event.news?_of_asks (e := e) hasks
  rcases Engine.rounds_answer (e := e) query with ⟨htodo, hnone⟩ | ⟨id, hcreates, htodo⟩
  · rw [hnone] at hnews
    apply Tells.silent hevent hnews
    intro work hwork
    rcases List.mem_append.1 hwork with hwork | hwork
    · exact htodo work hwork
    · exact hlast work hwork
  · rw [hcreates] at hnews
    rw [htodo]
    refine .told .created hevent hnews ?_
    intro work hwork
    rcases List.mem_cons.1 hwork with rfl | hwork
    · rfl
    · exact hlast work hwork

/-- Work off a round tells the services of one thing at most; the rounds go on as such. -/
theorem tells_of_workedOff {work : Work σ} {todo : List (Work σ)}
    (h : e.WorkedOff plugins work todo e') (hn : e.Numbered) (hready : Ready e work)
    (hquiet : ∀ notification code, work = .hook notification code → code.Quiet) :
    Tells plugins e (.work work) todo e' := by
  have silent : ∀ {work : Work σ}, work.isRound = false → (Event.work work).IsSilent := by
    rintro work hwork item ⟨⟩
    exact hwork
  have goes_on : ∀ {work next : Work σ} {e' : Engine σ}, work.isRound = false →
      next.isRound = false → (Event.work work).news? e = none →
      Tells plugins e (.work work) [next] e' := by
    intro work next e' hwork hnext hnews
    refine .silent (silent hwork) hnews ?_
    intro other hother
    rwa [List.mem_singleton.1 hother]
  have done : ∀ {work : Work σ} {e' : Engine σ}, work.isRound = false →
      (Event.work work).news? e = none → Tells plugins e (.work work) [] e' := by
    intro work e' hwork hnews
    exact .silent (silent hwork) hnews (by simp)
  have still : ∀ {id : ThreadId}, e.look id false (·.isRunning) = false →
      e.phase? id ≠ some .running := by
    intro id hgone hrunning
    cases (Engine.look_isRunning_iff.2 hrunning).symm.trans hgone
  cases h with
  | asked hasks hnext =>
    cases hnext with
    | script hcode => exact tells_answer (silent rfl) hasks (by simp [Work.isRound])
    | hook hcode => cases (Work.asks?_hook (hquiet _ _ rfl)).symm.trans hasks
    | abortHook hcode => exact tells_answer (silent rfl) hasks (by simp [Work.isRound])
  | continued hasks hnext =>
    cases hnext with
    | script hcode =>
      cases hcode with
      | ask => cases hasks
      | _ => exact goes_on rfl rfl rfl
    | @hook notification code next hcode =>
      -- a service that asks for nothing goes on like that
      refine .spoken (some next) ?_ ?_
      · cases hcode with
        | ask => cases hasks
        | _ => rfl
      · rintro rest ⟨⟩
        exact (hquiet _ _ rfl).next hcode
    | abortHook hcode =>
      cases hcode with
      | ask => cases hasks
      | _ => exact goes_on rfl rfl rfl
  | suspended => exact done rfl rfl
  | @ended context outcome hrunning =>
    refine .told (.after context) (silent rfl) ?_ (by simp [Work.isRound])
    simp [Event.news?, Engine.look_isRunning_iff.1 hrunning]
  | endedLate hgone => exact done rfl (by simp [Event.news?, still hgone])
  | failed hcurrent => exact goes_on rfl rfl rfl
  | spoken => exact .spoken none rfl (by simp)
  | told => exact .finished
  | called => exact .called
  | announced => exact .announced (silent rfl) rfl (ready_announce_iff.1 hready)
  | aborted => exact goes_on rfl rfl rfl
  | exhausted => exact goes_on rfl rfl rfl
  | fatal => exact goes_on rfl rfl rfl
  | @dispatched id script =>
    exact .told (.before script.context) (silent rfl) rfl (by simp [Work.isRound])
  | @completed context t p ht hprep =>
    refine .silent (silent rfl) rfl ?_
    rcases Engine.advanceWork_cases (σ := σ) context.thread p.run.1 with ⟨aborted, htodo⟩ | htodo
    · simp [htodo, Work.isRound]
    · simp [htodo, Work.isRound]
  | @reported id error => exact .told (.error error) (silent rfl) rfl (by simp [Work.isRound])
  | @destroying id hrunning =>
    have hnews : (Event.work (.destroy id) : Event σ).news? e = some (id, .willDestroy) := by
      simp [Event.news?, Engine.look_isRunning_iff.1 hrunning]
    have hservices : (e.modifyThread id fun t => { t with phase := .destroying }).servicesOf id =
        e.servicesOf id := by
      apply Engine.servicesOf_modifyThread hn
      · intro t
        rfl
      · intro t
        rfl
    rw [← hservices]
    exact .told .willDestroy (silent rfl) hnews (by simp [Work.isRound])
  | destroyedLate hgone => exact done rfl (by simp [Event.news?, still hgone])
  | @cleared id =>
    refine .silent (silent rfl) rfl ?_
    cases e.look id none (·.inFlight) <;> simp [Work.isRound]
  | _ => exact done rfl rfl

/-- How a step tells what there is to tell. -/
theorem Step.tells (h : Step plugins m event m') (hn : m.engine.Numbered)
    (hready : ∀ work ∈ m.stack.head?, Ready m.engine work)
    (hquiet : ∀ notification code, m.stack.head? = some (.hook notification code) → code.Quiet) :
    ∃ todo, m'.stack = todo ++ m.stack.tail ∧ Tells plugins m.engine event todo m'.engine := by
  have silent : ∀ {todo : List (Work σ)} {event : Event σ} {e e' : Engine σ}, event.item? = none →
      event.asks? = none → (∀ work ∈ todo, work.isRound = false) →
      Tells plugins e event todo e' := by
    intro todo event e e' hitem hasks htodo
    refine .silent ?_ ?_ htodo
    · intro item hmem
      cases hitem.symm.trans hmem
    · cases event with
      | work item => cases hitem
      | ask query => cases hasks
      | _ => rfl
  cases h with
  | @work e work rest =>
    have hworked := Engine.workedOff_perform plugins e work
    refine ⟨_, rfl, tells_of_workedOff hworked hn (hready _ rfl) ?_⟩
    rintro notification code rfl
    exact hquiet _ _ rfl
  | @task e before after task hqueue =>
    refine ⟨_, (List.append_nil _).symm, silent rfl rfl ?_⟩
    cases task with
    | start other =>
      simp only [take]
      split
      · simp
      next t _ =>
        rcases Engine.advanceWork_cases (σ := σ) other t.resume.1 with ⟨aborted, htodo⟩ | htodo
        · simp [htodo, Work.isRound]
        · simp [htodo, Work.isRound]
    | begin script => simp [take, Work.isRound]
    | resume context rest => simp [take, Work.isRound]
  | @ask e query =>
    refine ⟨(e.answer query).todo, rfl, ?_⟩
    have hevent : (Event.ask query : Event σ).IsSilent := by
      rintro item ⟨⟩
    have htells : Tells plugins e (.ask query) ((e.answer query).todo ++ []) _ :=
      tells_answer hevent rfl (by simp)
    rwa [List.append_nil] at htells
  | permits tag count => exact ⟨[], rfl, silent rfl rfl (by simp)⟩
  | letGo => exact ⟨[], rfl, silent rfl rfl (by simp)⟩
  | outside host log => exact ⟨[], rfl, silent rfl rfl (by simp)⟩

/-- Only a request changes the registered services. -/
theorem Step.services (h : Step plugins m event m') (hasks : event.asks? = none) :
    m'.engine.services = m.engine.services := by
  cases h with
  | @work e work rest => exact (Engine.workedOff_perform plugins e work).services hasks
  | @task e before after task hqueue =>
    cases task with
    | start id =>
      simp only [take]
      split <;> rfl
    | _ => rfl
  | ask query => cases hasks
  | permits tag count => exact Engine.services_handPermits _ _
  | _ => rfl

/-- A new thread is created with the services that are registered. -/
theorem Step.captures (h : Step plugins m event m') (hn : m.engine.Numbered)
    (hnone : m.engine.thread? id = none) (ht' : m'.engine.thread? id = some t') :
    t'.services = m.engine.services := by
  obtain ⟨overrides, program, services, hcreates⟩ := h.creates hn hnone ht'
  obtain ⟨hengine, -⟩ := h.answers hcreates.asks
  rw [hengine] at ht'
  have hle := thread?_eq_none_iff.1 hnone
  have hlt := Engine.lt_of_thread? ht'
  by_cases halive : m.engine.alive = true
  · simp only [Engine.answer, halive, if_true] at ht' hlt
    rcases Engine.createThread_cases (e := m.engine) overrides with
      ⟨error, -, -, hroll, -⟩ | ⟨-, -, hroll, -, t, ht, -, hservices⟩
    · have hcount : (m.engine.createThread overrides).engine.threads.length =
          m.engine.threads.length := congrArg Prod.snd hroll
      simp only [Engine.answerCore] at hlt
      omega
    · have hcount : (m.engine.createThread overrides).engine.threads.length =
          m.engine.threads.length + 1 := congrArg Prod.snd hroll
      simp only [Engine.answerCore] at hlt ht'
      have hid : m.engine.threads.length = id := by
        show @Eq Nat _ id
        omega
      rw [hid, ht'] at ht
      cases ht
      exact hservices
  · simp only [Engine.answer, halive] at ht'
    cases hnone.symm.trans ht'

theorem Step.registered (h : Step plugins m event m') (hn : m.engine.Numbered)
    (hr : m.engine.Registered) : m'.engine.Registered := by
  constructor
  · rcases hasks : event.asks? with _ | query
    · rw [h.services hasks]
      exact hr.now
    · obtain ⟨hengine, -⟩ := h.answers hasks
      rw [hengine]
      exact Engine.nodup_answer query hr.now
  · intro id t' ht'
    rcases ht : m.engine.thread? id with _ | t
    · rw [h.captures hn ht ht']
      exact hr.now
    · obtain ⟨s, hs, haffects⟩ := h.affects hn ht
      cases hs.symm.trans ht'
      rw [← haffects.origin.services]
      exact hr.captured ht

theorem Run.registered {host : σ} {config : CoreConfig} {stages : List (Stage σ)}
    (h : Run plugins (opened host config) stages m) : m.engine.Registered := by
  induction h with
  | start =>
    constructor
    · exact List.nodup_nil
    · intro id t ht
      simp [opened, Engine.new, Engine.thread?] at ht
  | step hrun hstep ih => exact hstep.registered hrun.invariant.numbered ih

/-! ## Rounds -/

/-- At most one round is going on, on top of the stack, perhaps with a service that was called. -/
inductive Rounds : List (Work σ) → Prop
  | none {stack : List (Work σ)} (hnone : ∀ work ∈ stack, work.isRound = false) : Rounds stack
  | begun {services : ServiceSet} {notification : Notification} {rest : List (Work σ)}
      (hnodup : services.Nodup) (hrest : ∀ work ∈ rest, work.isRound = false) :
      Rounds (.notify services notification :: rest)
  | called {services : ServiceSet} {notification : Notification}
      {code : Behaviour σ Empty Outcome} {rest : List (Work σ)} (hquiet : code.Quiet)
      (hnodup : services.Nodup) (hrest : ∀ work ∈ rest, work.isRound = false) :
      Rounds (.hook notification code :: .notify services notification :: rest)

/-- Outside of rounds nothing on the stack is part of one. -/
theorem Rounds.silent {stack : List (Work σ)} (h : Rounds stack)
    (hhead : ∀ work ∈ stack.head?, work.isRound = false) :
    ∀ work ∈ stack, work.isRound = false := by
  cases h with
  | none hnone => exact hnone
  | begun => cases hhead _ rfl
  | called => cases hhead _ rfl

theorem Rounds.quiet {stack : List (Work σ)} (h : Rounds stack) {notification : Notification}
    {code : Behaviour σ Empty Outcome} (hhead : stack.head? = some (.hook notification code)) :
    code.Quiet := by
  cases h with
  | none hnone => cases hnone _ (List.mem_of_head? hhead)
  | begun => cases hhead
  | called hquiet =>
    cases hhead
    exact hquiet

theorem Step.silent (h : Step plugins m event m') (hrounds : Rounds m.stack)
    (hevent : event.IsSilent) : ∀ work ∈ m.stack, work.isRound = false := by
  apply hrounds.silent
  rw [h.head?_eq]
  exact hevent

theorem Step.rounds (h : Step plugins m event m') (hserve : plugins.ServeQuietly)
    (hrounds : Rounds m.stack) (hr : m.engine.Registered) (hr' : m'.engine.Registered)
    (hstack : m'.stack = todo ++ m.stack.tail)
    (htells : Tells plugins m.engine event todo m'.engine) : Rounds m'.stack := by
  have silent_tail : event.IsSilent → ∀ work ∈ m.stack.tail, work.isRound = false := by
    intro hevent work hwork
    exact h.silent hrounds hevent work (List.mem_of_mem_tail hwork)
  have hmstack := h.stack_eq
  rw [hstack]
  cases htells with
  | silent hevent hnews htodo =>
    apply Rounds.none
    intro work hwork
    rcases List.mem_append.1 hwork with hwork | hwork
    · exact htodo work hwork
    · exact silent_tail hevent work hwork
  | told news hevent hnews hmore =>
    refine .begun (hr'.servicesOf _) ?_
    intro work hwork
    rcases List.mem_append.1 hwork with hwork | hwork
    · exact hmore work hwork
    · exact silent_tail hevent work hwork
  | announced hevent hnews hthread => exact .begun hr.now (silent_tail hevent)
  | called =>
    rw [hmstack] at hrounds
    cases hrounds with
    | none hnone => cases hnone _ List.mem_cons_self
    | begun hnodup hrest => exact .called (hserve _ _) (List.nodup_cons.1 hnodup).2 hrest
  | finished =>
    rw [hmstack] at hrounds
    cases hrounds with
    | none hnone => cases hnone _ List.mem_cons_self
    | begun hnodup hrest => exact .none hrest
  | @spoken notification code next e' hnews hquiet =>
    rw [hmstack] at hrounds
    revert hrounds
    generalize m.stack.tail = rest
    intro hrounds
    cases hrounds with
    | none hnone => cases hnone _ List.mem_cons_self
    | called hcode hnodup hrest =>
      cases next with
      | none => exact .begun hnodup hrest
      | some next => exact .called (hquiet next rfl) hnodup hrest

theorem Run.rounds {host : σ} {config : CoreConfig} {stages : List (Stage σ)}
    (h : Run plugins (opened host config) stages m) (habort : plugins.AbortQuietly)
    (hserve : plugins.ServeQuietly) : Rounds m.stack := by
  induction h with
  | start => exact .none (by simp [opened])
  | step hrun hstep ih =>
    have hn := hrun.invariant.numbered
    obtain ⟨todo, hstack, htells⟩ := hstep.tells hn (hrun.orderly habort).stacked.ready
      fun notification code hhead => ih.quiet hhead
    have hr := hrun.registered
    exact hstep.rounds hserve ih hr (hstep.registered hn hr) hstack htells

/-! ## What services hear -/

/-- What there is to tell of a thread comes while it runs, or brings it into being. -/
theorem Orderly.news (ho : Orderly m) (h : Step plugins m event m') {news : News}
    (hnews : event.news? m.engine = some (id, news)) :
    (news = .created ∧ m.engine.phase? id = none ∧ m'.engine.phase? id = some .running) ∨
      (news ≠ .created ∧ m.engine.phase? id = some .running) := by
  have due : ∀ work ∈ m.stack.head?, Ready m.engine work := ho.stacked.ready
  rw [h.head?_eq] at due
  unfold Event.news? at hnews
  split at hnews
  next other dispatched =>
    cases hnews
    have hready := due _ rfl
    refine .inr ⟨by simp, ?_⟩
    simpa using ready_arrive_iff.1 hready
  next context done =>
    split at hnews
    next hrunning =>
      cases hnews
      exact .inr ⟨by simp, hrunning⟩
    next => cases hnews
  next other problem =>
    cases hnews
    exact .inr ⟨by simp, ready_fail_iff.1 (due _ rfl)⟩
  next other =>
    split at hnews
    next hrunning =>
      cases hnews
      exact .inr ⟨by simp, hrunning⟩
    next => cases hnews
  next =>
    obtain ⟨other, hcreates, heq⟩ := Option.map_eq_some_iff.1 hnews
    cases heq
    obtain ⟨query, hasks, hcreates⟩ := Option.bind_eq_some_iff.1 hcreates
    obtain ⟨overrides, rfl, hreply⟩ := Query.creates?_eq_some_iff.1 hcreates
    exact .inl ⟨rfl, h.granted hasks hreply⟩

/-- A thread that is there is never forgotten. -/
theorem Step.phase?_ne_none (h : Step plugins m event m') (hn : m.engine.Numbered)
    (hbefore : m.engine.phase? id ≠ none) : m'.engine.phase? id ≠ none := by
  cases h.ages hn id with
  | same hends hclears hphase => rwa [hphase]
  | born hnone hafter => exact absurd hnone hbefore
  | ending hends hafter => simp [hafter]
  | cleared hclears hafter => simp [hafter]

theorem history_snoc (id : ThreadId) (stages : List (Stage σ)) (s : Stage σ) :
    history id (stages ++ [s]) = history id stages ++ (s.news? id).toList := filterMap_snoc _ _ _

/-- There is nothing to tell of a thread before it is there. -/
theorem Run.history_eq_nil {host : σ} {config : CoreConfig} {stages : List (Stage σ)}
    (h : Run plugins (opened host config) stages m) (habort : plugins.AbortQuietly)
    (hnone : m.engine.phase? id = none) : history id stages = [] := by
  induction h with
  | start => rfl
  | @step stages m m' event hrun hstep ih =>
    have hn := hrun.invariant.numbered
    have hbefore : m.engine.phase? id = none := by
      rcases hphase : m.engine.phase? id with _ | phase
      · rfl
      · have hthere : m.engine.phase? id ≠ none := by simp [hphase]
        exact absurd hnone (hstep.phase?_ne_none hn hthere)
    rw [history_snoc, ih hbefore]
    rcases hnews : Stage.news? id ⟨m, event, m'⟩ with _ | news
    · rfl
    · rcases (hrun.orderly habort).news hstep (Stage.news?_eq_some_iff.1 hnews) with
        ⟨-, -, hafter⟩ | ⟨-, hrunning⟩
      · cases hnone.symm.trans hafter
      · cases hbefore.symm.trans hrunning

/-- What a step has to tell, as far as a service has to be told. -/
def Stage.share (service : ServiceId) (id : ThreadId) (s : Stage σ) : List Notification :=
  if service ∈ s.after.engine.servicesOf id then
    (s.news? id).toList.map (·.notification id)
  else []

theorem Stage.share_of_silent (hnews : event.news? m.engine = none) :
    Stage.share service id ⟨m, event, m'⟩ = [] := by
  simp [Stage.share, Stage.news?, hnews]

/-- A service hears what it was still to be told, and is still to be told what there is to tell. -/
theorem Step.hearing (h : Step plugins m event m') (hrounds : Rounds m.stack)
    (hstack : m'.stack = todo ++ m.stack.tail)
    (htells : Tells plugins m.engine event todo m'.engine) :
    (event.hears? service id).toList ++ awaiting service id m' =
      awaiting service id m ++ Stage.share service id ⟨m, event, m'⟩ := by
  have silent : ∀ {stack : List (Work σ)}, (∀ work ∈ stack, work.isRound = false) →
      stack.filterMap (·.awaits? service id) = [] := by
    intro stack hnone
    rw [List.filterMap_eq_nil_iff]
    intro work hwork
    exact Work.awaits?_of_not_round (hnone work hwork)
  have silent_tail : event.IsSilent →
      awaiting service id m = [] ∧ m.stack.tail.filterMap (·.awaits? service id) = [] := by
    intro hevent
    have hnone := h.silent hrounds hevent
    refine ⟨silent hnone, silent ?_⟩
    intro work hwork
    exact hnone work (List.mem_of_mem_tail hwork)
  have hmstack := h.stack_eq
  have hafter : awaiting service id m' =
      todo.filterMap (·.awaits? service id) ++ m.stack.tail.filterMap (·.awaits? service id) := by
    rw [awaiting, hstack, List.filterMap_append]
  have hbefore : awaiting service id m = (event.item?.bind (·.awaits? service id)).toList ++
      m.stack.tail.filterMap (·.awaits? service id) := by
    have hsplit : awaiting service id m =
        (event.item?.toList ++ m.stack.tail).filterMap (·.awaits? service id) :=
      congrArg (List.filterMap _) hmstack
    rw [hsplit, List.filterMap_append, filterMap_item]
  cases htells with
  | silent hevent hnews htodo =>
    obtain ⟨hnothing, htail⟩ := silent_tail hevent
    rw [hevent.hears?, hafter, silent htodo, htail, hnothing, Stage.share_of_silent hnews]
    rfl
  | @told event other news more e' hevent hnews hmore =>
    obtain ⟨hnothing, htail⟩ := silent_tail hevent
    rw [hevent.hears?, hafter, hnothing, htail, filterMap_cons_eq, silent hmore]
    simp only [Stage.share, Stage.news?, hnews, Work.awaits?, News.thread?_notification]
    by_cases hid : other = id
    · subst hid
      by_cases hmem : service ∈ m'.engine.servicesOf other <;> simp [hmem, Option.filter]
    · simp [hid, Option.filter]
  | announced hevent hnews hthread =>
    obtain ⟨hnothing, htail⟩ := silent_tail hevent
    rw [hevent.hears?, hafter, hnothing, htail, Stage.share_of_silent hnews]
    simp [Work.awaits?, hthread]
  | @called first services notification =>
    rw [hmstack] at hrounds
    cases hrounds with
    | none hnone => cases hnone _ List.mem_cons_self
    | begun hnodup hrest =>
      have hfirst := (List.nodup_cons.1 hnodup).1
      have hshare : Stage.share service id
          ⟨m, .work (.notify (first :: services) notification), m'⟩ = [] :=
        Stage.share_of_silent rfl
      rw [hbefore, hafter, hshare]
      by_cases hthread : notification.thread? = some id
      · by_cases heq : first = service
        · -- the service that is called is not called again in this round
          subst heq
          simp [Event.hears?, Event.item?, Work.awaits?, hthread, hfirst]
        · have hne : ¬ service = first := fun h => heq h.symm
          by_cases hmem : service ∈ services <;>
            simp [Event.hears?, Event.item?, Work.awaits?, hthread, heq, hne, hmem]
      · simp [Event.hears?, Event.item?, Work.awaits?, hthread]
  | finished =>
    rw [hbefore, hafter, Stage.share_of_silent rfl]
    simp [Event.hears?, Event.item?, Work.awaits?]
  | @spoken notification code next e' hnews hquiet =>
    rw [hbefore, hafter, Stage.share_of_silent hnews]
    cases next <;> simp [Event.hears?, Event.item?, Work.awaits?]

theorem heard_snoc (service : ServiceId) (id : ThreadId) (stages : List (Stage σ)) (s : Stage σ) :
    heard service id (stages ++ [s]) =
      heard service id stages ++ (s.event.hears? service id).toList := filterMap_snoc _ _ _

/-- Every service of a thread hears all that there is to tell, in order; the others hear nothing. -/
theorem Run.hearing {host : σ} {config : CoreConfig} {stages : List (Stage σ)}
    (h : Run plugins (opened host config) stages m) (habort : plugins.AbortQuietly)
    (hserve : plugins.ServeQuietly) (service : ServiceId) (id : ThreadId) :
    heard service id stages ++ awaiting service id m =
      if service ∈ m.engine.servicesOf id then (history id stages).map (·.notification id)
      else [] := by
  induction h with
  | start => simp [heard, awaiting, history, opened]
  | @step stages m m' event hrun hstep ih =>
    have hn := hrun.invariant.numbered
    have hrounds := hrun.rounds habort hserve
    obtain ⟨todo, hstack, htells⟩ := hstep.tells hn (hrun.orderly habort).stacked.ready
      fun notification code hhead => hrounds.quiet hhead
    have hstep' : (event.hears? service id).toList ++ awaiting service id m' =
        awaiting service id m ++ Stage.share service id ⟨m, event, m'⟩ :=
      hstep.hearing hrounds hstack htells
    rw [heard_snoc, history_snoc, List.append_assoc, hstep', ← List.append_assoc, ih]
    rcases ht : m.engine.thread? id with _ | t
    · -- the thread comes into being now, if at all
      rw [hrun.history_eq_nil habort (Engine.phase?_eq_none_iff.2 ht)]
      by_cases hmem : service ∈ m'.engine.servicesOf id <;> simp [Stage.share, hmem]
    · obtain ⟨t', ht', haffects⟩ := hstep.affects hn ht
      have hservices : m'.engine.servicesOf id = m.engine.servicesOf id := by
        rw [Engine.servicesOf_eq ht, Engine.servicesOf_eq ht', haffects.origin.services]
      by_cases hmem : service ∈ m.engine.servicesOf id <;> simp [Stage.share, hservices, hmem]

end Machine
end SentenceEngine
