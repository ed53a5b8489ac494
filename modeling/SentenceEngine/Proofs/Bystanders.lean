import SentenceEngine.Proofs.Separation

/-!
# Engines that differ in their services

Two engines are level when they are the same but for the services, those of the engine and those of
its threads, for the log, and for the state of the scripts and services. No part of the engine looks
at any of these: what level engines reply to a request is the same, and so is what they leave to do,
up to the rounds in which the services are told.

* `Engine.unattended`: an engine without services.
* `Engine.Level`: engines that are the same without services.
* `Engine.Level.answer`: level engines reply the same.
* `Engine.Level.perform`, `Engine.Level.take`: they do the same, and stay level.
-/

namespace SentenceEngine

variable {σ τ : Type}

/-! ## Threads -/

namespace ThreadState

variable {t t' : ThreadState}

/-- A thread without its services. -/
def unattended (t : ThreadState) : ThreadState := { t with services := [] }

theorem unattended_run : t.unattended.run = (t.run.1, t.run.2.unattended) := by
  have hrunning : t.unattended.isRunning = t.isRunning := rfl
  have hframes : t.unattended.frames = t.frames := rfl
  have hscripts : t.unattended.scripts = t.scripts := rfl
  unfold run
  -- the cursor machine looks at the phase, the frames and the scripts, which are the same
  rw [hrunning, hframes, hscripts]
  split
  · rfl
  · split
    · rfl
    · rfl
    · split <;> rfl

theorem unattended_resume : t.unattended.resume = (t.resume.1, t.resume.2.unattended) := by
  have hstarted : t.unattended.started = t.started := rfl
  have hinFlight : t.unattended.inFlight = t.inFlight := rfl
  unfold resume
  dsimp only
  rw [hstarted, hinFlight]
  split
  · rfl
  · exact unattended_run (t := { t with startPending := false, started := true })

theorem unattended_complete : t.unattended.complete = (t.complete.1, t.complete.2.unattended) := by
  rw [complete_eq, complete_eq]
  exact unattended_run (t := { t with inFlight := none, frames := advanceTop t.frames })

theorem unattended_transfer (caller : Option Context) (program : Sequence)
    (entry : Option String) :
    t.unattended.transfer caller program entry =
      (t.transfer caller program entry).map fun r => (r.1, r.2.unattended) := by
  have hrunning : t.unattended.isRunning = t.isRunning := rfl
  have hcurrent : ∀ ticket, t.unattended.isCurrent ticket = t.isCurrent ticket := fun _ => rfl
  have hstarted : ∀ start, run { t.unattended with
        started := true
        frames := Frame.new program start t.unattended.inFlight.isSome :: t.unattended.frames } =
      _ := fun start => unattended_run (t := { t with
        started := true
        frames := Frame.new program start t.inFlight.isSome :: t.frames })
  unfold transfer
  rw [hrunning]
  cases t.isRunning with
  | false => rfl
  | true =>
    -- past the first guard, it is up to the caller and to the label
    cases caller with
    | none =>
      cases program.entry entry with
      | error error => rfl
      | ok start => exact congrArg Except.ok (hstarted start)
    | some context =>
      simp only [hcurrent]
      cases t.isCurrent context.ticket with
      | false => rfl
      | true =>
        cases program.entry entry with
        | error error => rfl
        | ok start => exact congrArg Except.ok (hstarted start)

theorem unattended_setVar (name : String) (value : Json) :
    (t.setVar name value).unattended = t.unattended.setVar name value := by
  have hphase : t.unattended.phase = t.phase := rfl
  unfold setVar
  rw [hphase]
  split
  · rfl
  · split <;> rfl

/-- What a thread is created with depends on the services for nothing else. -/
theorem map_unattended_create (id : ThreadId) (scripts : Registry) (services services' : ServiceSet)
    (program : Sequence) (vars : Members) (entry : Option String) :
    (create id scripts services program vars entry).map unattended =
      (create id scripts services' program vars entry).map unattended := by
  unfold create
  split
  · rfl
  · cases program.entry entry <;> rfl

end ThreadState

namespace Work

/-- What there is to do apart from the rounds of the services. -/
def unattended (todo : List (Work σ)) : List (Work σ) := todo.filter (!·.isRound)

theorem unattended_append (first second : List (Work σ)) :
    unattended (first ++ second) = unattended first ++ unattended second := List.filter_append ..

theorem unattended_cons_of_round {work : Work σ} (h : work.isRound = true) (todo : List (Work σ)) :
    unattended (work :: todo) = unattended todo := List.filter_cons_of_neg (by simpa using h)

theorem unattended_cons {work : Work σ} (h : work.isRound = false) (todo : List (Work σ)) :
    unattended (work :: todo) = work :: unattended todo :=
  List.filter_cons_of_pos (by simpa using h)

end Work

namespace Engine

variable {e e' e'' : Engine σ} {id : ThreadId} {host : σ} {t t' : ThreadState}

/-! ## Engines -/

/-- An engine without services and without a log, over some state of the scripts. -/
def unattended (host : σ) (e : Engine σ) : Engine σ :=
  { e with host, services := [], threads := e.threads.map (·.unattended), log := [] }

theorem thread?_unattended :
    (e.unattended host).thread? id = (e.thread? id).map (·.unattended) := by
  simp [thread?, unattended]

theorem look_unattended {α : Type} (absent : α) {f : ThreadState → α}
    (hf : ∀ t : ThreadState, f t.unattended = f t) :
    (e.unattended host).look id absent f = e.look id absent f := by
  unfold look
  rw [thread?_unattended]
  cases e.thread? id with
  | none => rfl
  | some t => exact hf t

theorem unattended_setThread (t : ThreadState) :
    (e.setThread t).unattended host = (e.unattended host).setThread t.unattended := by
  simp [setThread, unattended, List.map_set, ThreadState.unattended]

theorem unattended_modifyThread {f : ThreadState → ThreadState}
    (hf : ∀ t : ThreadState, (f t).unattended = f t.unattended) :
    (e.modifyThread id f).unattended host = (e.unattended host).modifyThread id f := by
  unfold modifyThread
  rw [thread?_unattended]
  cases e.thread? id with
  | none => rfl
  | some t =>
    show (e.setThread (f t)).unattended host = (e.unattended host).setThread (f t.unattended)
    rw [unattended_setThread, hf]

theorem unattended_dropStart :
    (e.dropStart id).unattended host = (e.unattended host).dropStart id := by
  unfold dropStart
  rw [look_unattended false fun _ => rfl]
  split
  · exact unattended_modifyThread fun _ => rfl
  · rfl

theorem unattended_cancel (context : Context) :
    (e.cancel context).unattended host = (e.unattended host).cancel context := by
  let note (t : ThreadState) : ThreadState := { t with cancelled := context.ticket :: t.cancelled }
  have hnoted : (e.modifyThread context.thread note).unattended host =
    (e.unattended host).modifyThread context.thread note := unattended_modifyThread fun _ => rfl
  unfold cancel
  rw [← hnoted]
  rfl

theorem unattended_release : (e.release id).unattended host = (e.unattended host).release id := by
  let finish (t : ThreadState) : ThreadState := { t with ended := true }
  have hended : (e.modifyThread id finish).unattended host =
    (e.unattended host).modifyThread id finish := unattended_modifyThread fun _ => rfl
  unfold release
  rw [← hended]
  rfl

theorem unattended_handPermits (tag : String) (count : Nat) :
    (e.handPermits tag count).unattended host = (e.unattended host).handPermits tag count := by
  induction count generalizing e with
  | zero => rfl
  | succ count ih =>
    have hsuspended : (e.unattended host).suspended = e.suspended := rfl
    unfold handPermits
    dsimp only
    rw [hsuspended]
    split
    · exact ih
    · rfl

theorem unattended_givePermits (tag : String) (count : Nat) :
    (e.givePermits tag count).unattended host = (e.unattended host).givePermits tag count := by
  have hsuspended : (e.unattended host).suspended = e.suspended := rfl
  unfold givePermits
  dsimp only
  rw [hsuspended, ← unattended_handPermits]
  rfl

/-! ## Level engines -/

/-- Two engines are the same without services. -/
def Level (e e' : Engine σ) : Prop := ∀ host, e.unattended host = e'.unattended host

namespace Level

theorem refl (e : Engine σ) : e.Level e := fun _ => rfl

theorem symm (h : e.Level e') : e'.Level e := fun host => (h host).symm

theorem trans (h : e.Level e') (h' : e'.Level e'') : e.Level e'' :=
  fun host => (h host).trans (h' host)

/-- What is the same for an engine without services is the same for level engines. -/
theorem congr (h : e.Level e') {α : Type} (f : Engine σ → α)
    (hf : ∀ (host : σ) (e : Engine σ), f (e.unattended host) = f e) : f e = f e' := by
  rw [← hf e.host e, h, hf]

/-- What treats services as nothing keeps engines level. -/
theorem map (h : e.Level e') (f : Engine σ → Engine σ)
    (hf : ∀ (host : σ) (e : Engine σ), (f e).unattended host = f (e.unattended host)) :
    (f e).Level (f e') := by
  intro host
  rw [hf, hf, h]

theorem thread?_cases (h : e.Level e') (id : ThreadId) :
    (e.thread? id = none ∧ e'.thread? id = none) ∨
    ∃ t t', e.thread? id = some t ∧ e'.thread? id = some t' ∧ t.unattended = t'.unattended := by
  have hthread : (e.thread? id).map (·.unattended) = (e'.thread? id).map (·.unattended) := by
    rw [← thread?_unattended, h e.host, thread?_unattended]
  cases ht : e.thread? id with
  | none =>
    rw [ht] at hthread
    exact .inl ⟨rfl, Option.map_eq_none_iff.1 hthread.symm⟩
  | some t =>
    rw [ht] at hthread
    obtain ⟨t', ht', hsame⟩ := Option.map_eq_some_iff.1 hthread.symm
    exact .inr ⟨t, t', rfl, ht', hsame.symm⟩

theorem look (h : e.Level e') (id : ThreadId) {α : Type} (absent : α) {f : ThreadState → α}
    (hf : ∀ t : ThreadState, f t.unattended = f t) :
    e.look id absent f = e'.look id absent f :=
  h.congr (·.look id absent f) fun _ _ => look_unattended absent hf

theorem modifyThread (h : e.Level e') (id : ThreadId) {f : ThreadState → ThreadState}
    (hf : ∀ t : ThreadState, (f t).unattended = f t.unattended) :
    (e.modifyThread id f).Level (e'.modifyThread id f) :=
  h.map (·.modifyThread id f) fun _ _ => unattended_modifyThread hf

theorem setThread (h : e.Level e') (ht : t.unattended = t'.unattended) :
    (e.setThread t).Level (e'.setThread t') := by
  intro host
  rw [unattended_setThread, unattended_setThread, h, ht]

theorem addThread (h : e.Level e') (ht : t.unattended = t'.unattended) :
    (e.addThread t).Level (e'.addThread t') := by
  have hadd : ∀ (host : σ) (e : Engine σ) (t : ThreadState),
      (e.addThread t).unattended host = (e.unattended host).addThread t.unattended := by
    intro host e t
    simp [Engine.addThread, unattended, ThreadState.unattended]
  intro host
  rw [hadd, hadd, h, ht]

theorem dropStart (h : e.Level e') (id : ThreadId) : (e.dropStart id).Level (e'.dropStart id) :=
  h.map (·.dropStart id) fun _ _ => unattended_dropStart

theorem enqueue (h : e.Level e') (task : Task σ) : (e.enqueue task).Level (e'.enqueue task) :=
  h.map (·.enqueue task) fun _ _ => rfl

end Level

/-! ## Requests -/

/-- The same reply, the same left to do but for the rounds of the services, and level engines. -/
structure LevelReply {ρ : Type} (r r' : Response σ ρ) : Prop where
  reply : r.reply = r'.reply
  todo : Work.unattended r.todo = Work.unattended r'.todo
  engine : r.engine.Level r'.engine

/-- The same result, and level engines. -/
inductive LevelResult {ρ : Type} : ρ × Engine σ → ρ × Engine σ → Prop
  | same (result : ρ) {e e' : Engine σ} (h : e.Level e') : LevelResult (result, e) (result, e')

theorem LevelResult.reply {ρ : Type} {r r' : ρ × Engine σ} (h : LevelResult r r') :
    LevelReply (r.2.respond r.1) (r'.2.respond r'.1) := by
  cases h with
  | same result h => exact ⟨rfl, rfl, h⟩

namespace Level

theorem respond (h : e.Level e') {ρ : Type} {reply reply' : ρ} (hreply : reply = reply') :
    LevelReply (e.respond reply) (e'.respond reply') := ⟨hreply, rfl, h⟩

theorem transfer (h : e.Level e') (id : ThreadId) (caller : Option Context) (program : Sequence)
    (entry : Option String) :
    LevelReply (e.transfer id caller program entry) (e'.transfer id caller program entry) := by
  unfold Engine.transfer
  rcases h.thread?_cases id with ⟨hnone, hnone'⟩ | ⟨t, t', ht, ht', hsame⟩
  · rw [hnone, hnone']
    exact h.respond rfl
  · -- what the two threads make of it is the same, up to their services
    have htransfer := congrArg (·.transfer caller program entry) hsame
    simp only [ThreadState.unattended_transfer] at htransfer
    rw [ht, ht']
    dsimp only
    rcases hresult : t.transfer caller program entry with error | ⟨advance, s⟩
    · rcases hresult' : t'.transfer caller program entry with error' | ⟨advance', s'⟩
      · rw [hresult, hresult'] at htransfer
        cases htransfer
        exact h.respond rfl
      · rw [hresult, hresult'] at htransfer
        cases htransfer
    · rcases hresult' : t'.transfer caller program entry with error' | ⟨advance', s'⟩
      · rw [hresult, hresult'] at htransfer
        cases htransfer
      · rw [hresult, hresult'] at htransfer
        obtain ⟨rfl, hs⟩ := Prod.mk.inj (Except.ok.inj htransfer)
        exact ⟨rfl, rfl, (h.setThread hs).dropStart id⟩

/-- What comes of a validation depends on the registered scripts only. -/
theorem validate (h : e.Level e') (program : Sentence) :
    LevelResult (e.validate program) (e'.validate program) := by
  have hscripts : e.scripts = e'.scripts := h.congr (·.scripts) fun _ _ => rfl
  obtain ⟨log, hlog⟩ := validate_eq (e := e) program
  obtain ⟨log', hlog'⟩ := validate_eq (e := e') program
  have hresult : (e.validate program).1 = (e'.validate program).1 := by
    simp only [Engine.validate, hscripts]
  rw [← Prod.eta (e.validate program), ← Prod.eta (e'.validate program), hlog, hlog', hresult]
  exact .same _ h

theorem configure (h : e.Level e') (config : ThreadConfig) :
    LevelResult (e.configure config) (e'.configure config) := by
  unfold Engine.configure
  split
  · exact .same _ (h.map (fun e => { e with defaults := e.defaults.merge config }) fun _ _ => rfl)
  next program _ =>
    have hresult := h.validate program
    revert hresult
    generalize e.validate program = r, e'.validate program = r'
    rintro ⟨result, hlevel⟩
    cases result with
    | error error => exact .same _ hlevel
    | ok report =>
      exact .same _ (hlevel.map
        (fun e => { e with defaults := e.defaults.merge config, validated := true }) fun _ _ => rfl)

theorem validateFor (h : e.Level e') (program : Sentence) (replaced : Bool) :
    LevelResult (e.validateFor program replaced) (e'.validateFor program replaced) := by
  have hvalidated : e.validated = e'.validated := h.congr (·.validated) fun _ _ => rfl
  unfold Engine.validateFor
  rw [hvalidated]
  split
  · have hresult := h.validate program
    revert hresult
    generalize e.validate program = r, e'.validate program = r'
    rintro ⟨result, hlevel⟩
    cases result with
    | error error => exact .same _ hlevel
    | ok report =>
      cases replaced with
      | true => exact .same _ hlevel
      | false =>
        exact .same _ (hlevel.map (fun e => { e with validated := true }) fun _ _ => rfl)
  · exact .same _ h

/-- A thread that is created is the same but for its services, which are told of it. -/
theorem createThread (h : e.Level e') (overrides : Option ThreadConfig) :
    LevelReply (e.createThread overrides) (e'.createThread overrides) := by
  have hdefaults : e.defaults = e'.defaults := h.congr (·.defaults) fun _ _ => rfl
  unfold Engine.createThread
  dsimp only
  rw [hdefaults]
  split
  · exact h.respond rfl
  next program _ =>
    have hresult := h.validateFor program (overrides.getD .empty).sentences.isSome
    revert hresult
    generalize e.validateFor program (overrides.getD .empty).sentences.isSome = r,
      e'.validateFor program (overrides.getD .empty).sentences.isSome = r'
    rintro ⟨result, hlevel⟩
    rename_i e₁ e₁'
    cases result with
    | error error => exact hlevel.respond rfl
    | ok done =>
      have hscripts : e₁.scripts = e₁'.scripts := hlevel.congr (·.scripts) fun _ _ => rfl
      have hcount : e₁.threads.length = e₁'.threads.length :=
        hlevel.congr (·.threads.length) fun _ _ => by simp [unattended]
      have hcreate := ThreadState.map_unattended_create e₁.threads.length e₁.scripts
        e₁.services e₁'.services program.asSequence
        ((e'.defaults.merge (overrides.getD .empty)).vars.getD [])
        (e'.defaults.merge (overrides.getD .empty)).entryLabel
      revert hcreate
      dsimp only
      rw [← hscripts, ← hcount]
      -- both threads are refused for the same reason, or they are the same but for their services
      generalize ThreadState.create _ _ e₁.services _ _ _ = created,
        ThreadState.create _ _ e₁'.services _ _ _ = created'
      intro hcreate
      cases created with
      | error error =>
        cases created' with
        | error error' =>
          cases hcreate
          exact hlevel.respond rfl
        | ok t' => cases hcreate
      | ok t =>
        cases created' with
        | error error' => cases hcreate
        | ok t' => exact ⟨rfl, rfl, hlevel.addThread (Except.ok.inj hcreate)⟩

theorem registerScript (h : e.Level e') (name : String) (factory : Factory) :
    LevelResult (e.registerScript name factory) (e'.registerScript name factory) := by
  have hscripts : e.scripts = e'.scripts := h.congr (·.scripts) fun _ _ => rfl
  unfold Engine.registerScript
  rw [hscripts]
  split
  · exact .same _ h
  next scripts _ =>
    refine .same _ ?_
    split
    · exact h.map (fun e => { e with scripts }) fun _ _ => rfl
    · exact h.map (fun e => { e with scripts }) fun _ _ => rfl

/-- The engines may tell different services of what they do, but the service that is registered has
to be new to both or to none of them. -/
theorem registerService (h : e.Level e') {service : ServiceId}
    (hservice : service ∈ e.services ↔ service ∈ e'.services) :
    LevelResult (e.registerService service) (e'.registerService service) := by
  unfold Engine.registerService ServiceSet.register
  by_cases hmem : service ∈ e.services
  · rw [if_pos hmem, if_pos (hservice.1 hmem)]
    exact .same _ h
  · rw [if_neg hmem, if_neg fun hmem' => hmem (hservice.2 hmem')]
    exact .same _ h

theorem answerCore (h : e.Level e') {query : CoreQuery}
    (hservice : ∀ service, query = .registerService service →
      (service ∈ e.services ↔ service ∈ e'.services)) :
    LevelReply (e.answerCore query) (e'.answerCore query) := by
  have hactive : e.active = e'.active := h.congr (·.active) fun _ _ => rfl
  have hscripts : e.scripts = e'.scripts := h.congr (·.scripts) fun _ _ => rfl
  cases query with
  | threads => exact h.respond hactive
  | createThread overrides => exact h.createThread overrides
  | destroyAll =>
    simp only [Engine.answerCore, hactive]
    exact ⟨rfl, rfl, h⟩
  | destroyCore =>
    simp only [Engine.answerCore, hactive]
    exact ⟨rfl, rfl, h⟩
  | initializeCore =>
    have hinitialized : e.initialized = e'.initialized := h.congr (·.initialized) fun _ _ => rfl
    simp only [Engine.answerCore, hinitialized]
    split
    · exact h.respond rfl
    · exact ⟨rfl, rfl, h.map (fun e => { e with initialized := true }) fun _ _ => rfl⟩
  | configure config => exact (h.configure config).reply
  | validate program =>
    have hresult := h.validate program
    simp only [Engine.answerCore]
    revert hresult
    generalize e.validate program = r, e'.validate program = r'
    rintro ⟨result, hlevel⟩
    exact hlevel.respond rfl
  | registerScript name factory => exact (h.registerScript name factory).reply
  | registerService service => exact (h.registerService (hservice service rfl)).reply
  | scriptNames => exact h.respond (congrArg _ hscripts)
  | aliases name => exact h.respond (congrArg (·.aliases name) hscripts)

/-- Level engines reply the same to a request. -/
theorem answer (h : e.Level e') {query : Query}
    (hservice : ∀ service, query = .core (.registerService service) →
      (service ∈ e.services ↔ service ∈ e'.services)) :
    LevelReply (e.answer query) (e'.answer query) := by
  cases query with
  | setVar id name value =>
    exact ⟨rfl, rfl, h.modifyThread id fun t => t.unattended_setVar name value⟩
  | execute id program entry => exact h.transfer _ _ _ _
  | transfer context program entry => exact h.transfer _ _ _ _
  | destroy id =>
    simp only [Engine.answer, destroyThread, h.look id false (f := (·.isRunning)) fun _ => rfl]
    split
    · exact ⟨rfl, rfl, h⟩
    · exact h.respond rfl
  | hasCore => exact h.respond (h.congr (·.alive) fun _ _ => rfl)
  | core query =>
    have halive : e.alive = e'.alive := h.congr (·.alive) fun _ _ => rfl
    simp only [Engine.answer, halive]
    split
    · have hcore := h.answerCore fun service hquery => hservice service (congrArg _ hquery)
      exact ⟨congrArg some hcore.reply, hcore.todo, hcore.engine⟩
    · exact h.respond rfl
  | _ => exact h.respond (h.look _ _ fun _ => rfl)

end Level

/-! ## Work -/

/-- The same left to do but for the rounds of the services, and level engines. -/
structure LevelWork (p p' : List (Work σ) × Engine σ) : Prop where
  todo : Work.unattended p.1 = Work.unattended p'.1
  engine : p.2.Level p'.2

namespace Level

theorem settle (h : e.Level e') (context : Context) (outcome : Outcome) :
    LevelWork (Machine.settle e context outcome) (Machine.settle e' context outcome) := by
  cases outcome with
  | ok done =>
    simp only [Machine.settle, h.look context.thread false (f := (·.isRunning)) fun _ => rfl]
    split
    · exact ⟨rfl, h⟩
    · exact ⟨rfl, h⟩
  | error failure =>
    simp only [Machine.settle,
      h.look context.thread false (f := (·.isCurrent context.ticket)) fun _ => rfl]
    split
    · exact ⟨rfl, h.modifyThread context.thread fun _ => rfl⟩
    · exact ⟨rfl, h⟩

theorem takePermit (h : e.Level e') (tag : String) :
    (e.takePermit? tag = none ∧ e'.takePermit? tag = none) ∨
    ∃ e₁ e₁', e.takePermit? tag = some e₁ ∧ e'.takePermit? tag = some e₁' ∧ e₁.Level e₁' := by
  have hpermits : e.permits = e'.permits := h.congr (·.permits) fun _ _ => rfl
  unfold takePermit?
  rw [hpermits]
  split
  next n _ =>
    refine .inr ⟨_, _, rfl, rfl, ?_⟩
    exact h.map (fun e => { e with permits := e'.permits.insert tag n }) fun _ _ => rfl
  next => exact .inl ⟨rfl, rfl⟩

theorem suspend (h : e.Level e') (context : Context) (rest : Behaviour σ Wait Outcome)
    (reason : Wait) :
    LevelWork (Machine.suspend e context rest reason) (Machine.suspend e' context rest reason) := by
  have waits : ∀ s : Suspended σ, Level { e with suspended := e.suspended ++ [s] }
      { e' with suspended := e'.suspended ++ [s] } :=
    fun s => h.map (fun e => { e with suspended := e.suspended ++ [s] }) fun _ _ => rfl
  cases reason with
  | permit tag =>
    simp only [Machine.suspend]
    rcases h.takePermit tag with ⟨hnone, hnone'⟩ | ⟨e₁, e₁', htake, htake', hlevel⟩
    · rw [hnone, hnone']
      exact ⟨rfl, waits _⟩
    · rw [htake, htake']
      exact ⟨rfl, hlevel⟩
  | cancellation =>
    simp only [Machine.suspend,
      h.look context.thread true (f := (·.isCancelled context.ticket)) fun _ => rfl]
    split
    · exact ⟨rfl, h⟩
    · exact ⟨rfl, waits _⟩

/-- Whatever services there are, a request leaves the same to do, and the engines stay level. -/
theorem answered (h : e.Level e') (query : Query) :
    LevelWork ((e.answer query).todo, (e.answer query).engine)
      ((e'.answer query).todo, (e'.answer query).engine) := by
  by_cases hregister : ∃ service, query = .core (.registerService service)
  · obtain ⟨service, rfl⟩ := hregister
    have halive : e.alive = e'.alive := h.congr (·.alive) fun _ _ => rfl
    obtain ⟨services, hengine⟩ := registerService_eq (e := e) service
    obtain ⟨services', hengine'⟩ := registerService_eq (e := e') service
    simp only [Engine.answer, halive]
    split
    · simp only [Engine.answerCore, Engine.respond, hengine, hengine']
      exact ⟨rfl, h⟩
    · exact ⟨rfl, h⟩
  · have hanswer := h.answer fun service hquery => absurd ⟨service, hquery⟩ hregister
    exact ⟨hanswer.todo, hanswer.engine⟩

/-- Code goes on with the same reply in level engines. -/
theorem asked (h : e.Level e') {query : Query}
    (hservice : ∀ service, query = .core (.registerService service) →
      (service ∈ e.services ↔ service ∈ e'.services)) (next : query.Reply → Work σ) :
    LevelWork ((e.answer query).todo ++ [next (e.answer query).reply], (e.answer query).engine)
      ((e'.answer query).todo ++ [next (e'.answer query).reply], (e'.answer query).engine) := by
  obtain ⟨hreply, htodo, hengine⟩ := h.answer hservice
  refine ⟨?_, hengine⟩
  rw [Work.unattended_append, Work.unattended_append, htodo, hreply]

variable {own : σ → τ} {plugins : Plugins σ} {work : Work σ}

/-- Work that is not part of a round does the same in level engines, where the states are the same
to scripts. -/
theorem perform (h : e.Level e') (hround : work.isRound = false) (hwork : work.Separate own)
    (hown : own e.host = own e'.host)
    (hservice : ∀ service, work.asks? = some (.core (.registerService service)) →
      (service ∈ e.services ↔ service ∈ e'.services)) :
    LevelWork (Machine.perform plugins e work) (Machine.perform plugins e' work) := by
  cases work with
  | script context code =>
    cases hwork with
    | pure outcome => exact h.settle context outcome
    | @ask query next hnext =>
      exact h.asked (fun service hquery => hservice service (congrArg some hquery))
        fun reply => .script context (next reply)
    | log hnext => exact ⟨rfl, h⟩
    | update hchange hsees hnext =>
      -- the states may be different, but not to the script
      simp only [Machine.perform, stepCode, hsees _ _ hown]
      exact ⟨rfl, h⟩
    | wait hnext => exact h.suspend context _ _
  | hook notification code => cases hround
  | abortHook context code =>
    cases hwork with
    | pure done => exact ⟨rfl, h⟩
    | @ask query next hnext =>
      exact h.asked (fun service hquery => hservice service (congrArg some hquery))
        fun reply => .abortHook context (next reply)
    | log hnext => exact ⟨rfl, h⟩
    | update hchange hsees hnext =>
      simp only [Machine.perform, stepCode, hsees _ _ hown]
      exact ⟨rfl, h⟩
    | @wait reason _ hnext => cases reason
  | notify services notification => cases hround
  | announce notification => exact ⟨rfl, h⟩
  | abort aborted => exact ⟨rfl, h.map (·.cancel aborted.context) fun _ _ => unattended_cancel _⟩
  | arrive thread arrival =>
    -- different services are told of a dispatch, and then the same script is made a task of
    cases arrival <;> exact ⟨rfl, h⟩
  | spawn spawned => exact ⟨rfl, h.enqueue _⟩
  | complete context =>
    simp only [Machine.perform]
    rcases h.thread?_cases context.thread with ⟨hnone, hnone'⟩ | ⟨t, t', ht, ht', hsame⟩
    · rw [hnone, hnone']
      exact ⟨rfl, h⟩
    · have hcurrent : t.isCurrent context.ticket = t'.isCurrent context.ticket :=
        congrArg (·.isCurrent context.ticket) hsame
      have hcomplete := congrArg ThreadState.complete hsame
      rw [ThreadState.unattended_complete, ThreadState.unattended_complete] at hcomplete
      obtain ⟨hadvance, hthread⟩ := Prod.mk.inj hcomplete
      simp only [ht, ht', hcurrent, hadvance]
      split
      · exact ⟨rfl, h.setThread hthread⟩
      · exact ⟨rfl, h⟩
  | fail thread error => exact ⟨rfl, h⟩
  | destroy thread =>
    simp only [Machine.perform, h.look thread false (f := (·.isRunning)) fun _ => rfl]
    split
    · exact ⟨rfl, h.modifyThread thread fun _ => rfl⟩
    · exact ⟨rfl, h⟩
  | clear thread =>
    simp only [Machine.perform, h.look thread none (f := (·.inFlight)) fun _ => rfl]
    exact ⟨rfl, (h.dropStart thread).modifyThread thread fun _ => rfl⟩
  | release thread => exact ⟨rfl, h.map (·.release thread) fun _ _ => unattended_release⟩
  | start thread =>
    refine ⟨rfl, (h.enqueue (.start thread)).modifyThread thread ?_⟩
    intro t
    have hrunning : t.unattended.isRunning = t.isRunning := rfl
    have hstarted : t.unattended.started = t.started := rfl
    rw [hrunning, hstarted]
    split <;> rfl
  | reopen => exact ⟨rfl, h.map (fun e => { e with initialized := false }) fun _ _ => rfl⟩

theorem givePermits (h : e.Level e') (tag : String) (count : Nat) :
    (e.givePermits tag count).Level (e'.givePermits tag count) :=
  h.map (·.givePermits tag count) fun _ _ => unattended_givePermits tag count

end Level
end Engine

namespace Machine

variable {m m' : Machine σ}

/-- Two machines with level engines, with the same to do but for the rounds of the services. -/
structure Level (m m' : Machine σ) : Prop where
  engine : m.engine.Level m'.engine
  stack : Work.unattended m.stack = Work.unattended m'.stack

/-- The same comes of a task in level engines. -/
theorem level_take (plugins : Plugins σ) {e e' : Engine σ} (h : e.Level e') (task : Task σ) :
    (take plugins e task).Level (take plugins e' task) := by
  cases task with
  | start id =>
    rcases h.thread?_cases id with ⟨hnone, hnone'⟩ | ⟨t, t', ht, ht', hsame⟩
    · rw [take_start_none hnone, take_start_none hnone']
      exact ⟨h, rfl⟩
    · have hresume := congrArg ThreadState.resume hsame
      rw [ThreadState.unattended_resume, ThreadState.unattended_resume] at hresume
      obtain ⟨hadvance, hthread⟩ := Prod.mk.inj hresume
      rw [take_start_some ht, take_start_some ht', hadvance]
      exact ⟨h.setThread hthread, rfl⟩
  | begin script => exact ⟨h, rfl⟩
  | resume context rest => exact ⟨h, rfl⟩

end Machine
end SentenceEngine
