import SentenceEngine.Engine.Step
import SentenceEngine.Proofs.Moves

/-!
# Effects on the engine

What serving a request can bring about, said once: either every thread keeps its program and its
variables, or one thread makes one move, or the registry, the defaults or the list of threads change
in a way that is spelled out.

* `Work.moveOf`: the move that an item of work makes a thread take.
* `Engine.Keeps`: the same engine up to its tasks, its log and the marks of its threads.
* `Engine.Answered`: all that a request can do.
-/

namespace SentenceEngine

/-! ## Requests and work -/

/-- The transfer of control that a request asks for: the thread, the caller and the program. -/
def Query.executes? : Query → Option (ThreadId × Option Context × Sequence × Option String)
  | .execute id program entry => some (id, none, program, entry)
  | .transfer context program entry => some (context.thread, some context, program, entry)
  | _ => none

/-- The move that a request makes a thread take. -/
def Query.moveOf (id : ThreadId) (t : ThreadState) : Query → Move
  | .setVar other name value => if other = id then .assigned name value else .still
  | .execute other program entry =>
    if other = id ∧ t.grants none program entry then .executed none program entry else .still
  | .transfer context program entry =>
    if context.thread = id ∧ t.grants (some context) program entry then
      .executed (some context) program entry
    else .still
  | _ => .still

theorem Query.moveOf_of_executes {query : Query} {other : ThreadId} {caller : Option Context}
    {program : Sequence} {entry : Option String}
    (h : query.executes? = some (other, caller, program, entry)) (id : ThreadId)
    (t : ThreadState) :
    query.moveOf id t =
      if other = id ∧ t.grants caller program entry then .executed caller program entry
      else .still := by
  cases query with
  | execute _ _ _ =>
    cases h
    rfl
  | transfer _ _ _ =>
    cases h
    rfl
  | _ => cases h

namespace Work

variable {σ : Type}

/-- The request that an item of work makes when it is done. -/
def asks? : Work σ → Option Query
  | .script _ (.ask query _) => some query
  | .hook _ (.ask query _) => some query
  | .abortHook _ (.ask query _) => some query
  | _ => none

/-- The script that an item of work tells to stop. -/
def aborts? : Work σ → Option Instance
  | .abort aborted => some aborted
  | _ => none

/-- The error of a thread that an item of work is about. -/
def reports? : Work σ → Option (ThreadId × ThreadError)
  | .arrive id (.fatal error) => some (id, error)
  | .fail id error => some (id, error)
  | .notify _ (.error id error) => some (id, error)
  | .announce (.error id error) => some (id, error)
  | _ => none

/-- The move that an item of work makes a thread take. -/
def moveOf (id : ThreadId) (t : ThreadState) : Work σ → Move
  | .script _ (.ask query _) => query.moveOf id t
  | .hook _ (.ask query _) => query.moveOf id t
  | .abortHook _ (.ask query _) => query.moveOf id t
  | .script context (.pure (.error failure)) =>
    if context.thread = id ∧ t.isCurrent context.ticket then .failed context failure else .still
  | .complete context =>
    if context.thread = id ∧ t.isCurrent context.ticket then .completed context else .still
  | .destroy other => if other = id ∧ t.isRunning then .destroying else .still
  | .clear other => if other = id then .cleared else .still
  | _ => .still

theorem moveOf_of_asks {work : Work σ} {query : Query} (h : work.asks? = some query)
    (id : ThreadId) (t : ThreadState) : work.moveOf id t = query.moveOf id t := by
  cases work with
  | script context code =>
    cases code with
    | ask _ _ =>
      cases h
      rfl
    | _ => cases h
  | hook notification code =>
    cases code with
    | ask _ _ =>
      cases h
      rfl
    | _ => cases h
  | abortHook context code =>
    cases code with
    | ask _ _ =>
      cases h
      rfl
    | _ => cases h
  | _ => cases h

/-- Whether an item of work is code. -/
def isCode : Work σ → Bool
  | .script _ _ => true
  | .hook _ _ => true
  | .abortHook _ _ => true
  | _ => false

/-- Work that neither tells a script to stop nor is about an error. -/
def Plain (work : Work σ) : Prop := work.aborts? = none ∧ work.reports? = none

theorem aborts?_of_isCode {work : Work σ} (h : work.isCode = true) : work.aborts? = none := by
  cases work <;> simp_all [isCode, aborts?]

theorem reports?_of_isCode {work : Work σ} (h : work.isCode = true) : work.reports? = none := by
  cases work <;> simp_all [isCode, reports?]

end Work

namespace Engine

variable {σ : Type} {e e' e'' : Engine σ} {id : ThreadId} {t t' : ThreadState}

/-! ## Threads by number -/

/-- Every thread stands under its own number. -/
def Numbered (e : Engine σ) : Prop := ∀ id t, e.thread? id = some t → t.id = id

theorem lt_of_thread? {id : Nat} (h : e.thread? id = some t) : id < e.threads.length :=
  (List.getElem?_eq_some_iff.1 h).1

theorem thread?_setThread_self (h : e.thread? t'.id = some t) :
    (e.setThread t').thread? t'.id = some t' := by
  simp [thread?, setThread, lt_of_thread? h]

theorem thread?_setThread_ne (h : id ≠ t'.id) : (e.setThread t').thread? id = e.thread? id := by
  simp [thread?, setThread, List.getElem?_set_ne (Ne.symm h)]

theorem modifyThread_eq {f : ThreadState → ThreadState} (h : e.thread? id = some t) :
    e.modifyThread id f = e.setThread (f t) := by
  simp [modifyThread, h]

theorem modifyThread_none {f : ThreadState → ThreadState} (h : e.thread? id = none) :
    e.modifyThread id f = e := by
  simp [modifyThread, h]

theorem look_eq {α : Type} {absent : α} {f : ThreadState → α} (h : e.thread? id = some t) :
    e.look id absent f = f t := by
  simp [look, h]

theorem exists_of_look {f : ThreadState → Bool} (h : e.look id false f = true) :
    ∃ t, e.thread? id = some t ∧ f t = true := by
  rcases ht : e.thread? id with _ | t
  · simp [look, ht] at h
  · exact ⟨t, rfl, by simpa [look, ht] using h⟩

/-! ## What stays -/

/-- The registered scripts and the defaults are the same, and so are the threads up to marks. -/
structure Keeps (e e' : Engine σ) : Prop where
  scripts : e.scripts = e'.scripts
  defaults : e.defaults = e'.defaults
  validated : e.validated = e'.validated
  count : e.threads.length = e'.threads.length
  agrees : ∀ {id t}, e.thread? id = some t → ∃ t', e'.thread? id = some t' ∧ t.Agrees t'

/-- A change that leaves the list of threads alone. -/
theorem Keeps.of_eq (hscripts : e.scripts = e'.scripts) (hdefaults : e.defaults = e'.defaults)
    (hvalidated : e.validated = e'.validated) (hthreads : e.threads = e'.threads) : e.Keeps e' where
  scripts := hscripts
  defaults := hdefaults
  validated := hvalidated
  count := congrArg List.length hthreads
  agrees := by
    intro id t ht
    refine ⟨t, ?_, .refl t⟩
    rwa [thread?, ← hthreads]

theorem Keeps.refl (e : Engine σ) : e.Keeps e := .of_eq rfl rfl rfl rfl

theorem Keeps.trans (h : e.Keeps e') (h' : e'.Keeps e'') : e.Keeps e'' where
  scripts := h.scripts.trans h'.scripts
  defaults := h.defaults.trans h'.defaults
  validated := h.validated.trans h'.validated
  count := h.count.trans h'.count
  agrees := by
    intro id t ht
    obtain ⟨t', ht', hagree⟩ := h.agrees ht
    obtain ⟨t'', ht'', hagree'⟩ := h'.agrees ht'
    exact ⟨t'', ht'', hagree.trans hagree'⟩

/-- The registered scripts and the defaults are the same, and there are as many threads. -/
structure Steady (e e' : Engine σ) : Prop where
  scripts : e.scripts = e'.scripts
  defaults : e.defaults = e'.defaults
  validated : e.validated = e'.validated
  count : e.threads.length = e'.threads.length

theorem Keeps.steady (h : e.Keeps e') : e.Steady e' :=
  ⟨h.scripts, h.defaults, h.validated, h.count⟩

theorem Keeps.steady_of_setThread (h : (e.setThread t).Keeps e') : e.Steady e' where
  scripts := h.scripts
  defaults := h.defaults
  validated := h.validated
  count := by rw [← h.count, Engine.setThread, List.length_set]

/-- Every thread of the later state was there before. -/
theorem Keeps.exists_before (h : e.Keeps e') (ht' : e'.thread? id = some t') :
    ∃ t, e.thread? id = some t ∧ t.Agrees t' := by
  have hlt : id < e.threads.length := by
    rw [h.count]
    exact lt_of_thread? ht'
  obtain ⟨s, hs, hagree⟩ := h.agrees (List.getElem?_eq_getElem hlt)
  rw [ht'] at hs
  cases hs
  exact ⟨_, List.getElem?_eq_getElem hlt, hagree⟩

theorem Keeps.numbered (h : e.Keeps e') (hn : e.Numbered) : e'.Numbered := by
  intro id t' ht'
  obtain ⟨t, ht, hagree⟩ := h.exists_before ht'
  rw [← hagree.id]
  exact hn _ _ ht

theorem numbered_setThread (hn : e.Numbered) : (e.setThread t').Numbered := by
  intro id t ht
  by_cases hid : t'.id = id
  · -- the thread at this place is the one that was put in
    subst hid
    simp only [thread?, setThread] at ht
    obtain ⟨hlt, hget⟩ := List.getElem?_eq_some_iff.1 ht
    simp at hget
    rw [← hget]
  · rw [thread?_setThread_ne (Ne.symm hid)] at ht
    exact hn _ _ ht

theorem keeps_setThread (ht : e.thread? t.id = some t) (h : t.Agrees t') :
    e.Keeps (e.setThread t') where
  scripts := rfl
  defaults := rfl
  validated := rfl
  count := by simp [setThread]
  agrees := by
    intro id s hs
    by_cases hid : id = t'.id
    · subst hid
      rw [← h.id, ht] at hs
      cases hs
      exact ⟨t', thread?_setThread_self (h.id ▸ ht), h⟩
    · exact ⟨s, by rw [thread?_setThread_ne hid, hs], .refl s⟩

/-- The same thread may be put into both of two states that are the same up to marks. -/
theorem Keeps.setThread {s s' : ThreadState} (h : e.Keeps e') (hs : e.thread? s.id = some t)
    (hagree : s.Agrees s') : (e.setThread s).Keeps (e'.setThread s') where
  scripts := h.scripts
  defaults := h.defaults
  validated := h.validated
  count := by simpa [Engine.setThread] using h.count
  agrees := by
    intro id r hr
    by_cases hid : id = s.id
    · -- the thread that is put in
      subst hid
      rw [thread?_setThread_self hs] at hr
      cases hr
      obtain ⟨t', ht', -⟩ := h.agrees hs
      rw [hagree.id] at ht' ⊢
      exact ⟨s', thread?_setThread_self ht', hagree⟩
    · -- any other thread
      rw [thread?_setThread_ne hid] at hr
      obtain ⟨r', hr', hagree'⟩ := h.agrees hr
      exact ⟨r', by rw [thread?_setThread_ne (hagree.id ▸ hid), hr'], hagree'⟩

/-- A change of the marks of one thread. -/
theorem keeps_modifyThread {f : ThreadState → ThreadState} (hn : e.Numbered)
    (hf : ∀ t : ThreadState, t.Agrees (f t)) : e.Keeps (e.modifyThread id f) := by
  rcases ht : e.thread? id with _ | t
  · rw [modifyThread_none ht]
    exact .refl e
  · rw [modifyThread_eq ht]
    have hid := hn _ _ ht
    subst hid
    exact keeps_setThread ht (hf t)

theorem keeps_enqueue (task : Task σ) : e.Keeps (e.enqueue task) := .of_eq rfl rfl rfl rfl

theorem keeps_dropStart (hn : e.Numbered) (id : ThreadId) : e.Keeps (e.dropStart id) := by
  unfold dropStart
  split
  · let dropped : Engine σ := { e with queue := e.queue.filter fun task => !task.isStartOf id }
    have hdropped : e.Keeps dropped := .of_eq rfl rfl rfl rfl
    refine hdropped.trans (keeps_modifyThread (hdropped.numbered hn) ?_)
    intro t
    exact t.agrees_marks _ _ _ _
  · exact .refl e

theorem keeps_cancel (hn : e.Numbered) (context : Context) : e.Keeps (e.cancel context) := by
  have hmarked : e.Keeps (e.modifyThread context.thread fun t =>
      { t with cancelled := context.ticket :: t.cancelled }) := by
    apply keeps_modifyThread hn
    intro t
    exact t.agrees_marks _ _ _ _
  exact hmarked.trans (.of_eq rfl rfl rfl rfl)

theorem keeps_release (hn : e.Numbered) (id : ThreadId) : e.Keeps (e.release id) := by
  have hended : e.Keeps (e.modifyThread id fun t => { t with ended := true }) := by
    apply keeps_modifyThread hn
    intro t
    exact t.agrees_marks _ _ _ _
  exact hended.trans (.of_eq rfl rfl rfl rfl)

theorem keeps_handPermits (tag : String) (count : Nat) : e.Keeps (e.handPermits tag count) := by
  induction count generalizing e with
  | zero => exact .refl e
  | succ count ih =>
    unfold handPermits
    dsimp only
    split
    · refine Keeps.trans ?_ ih
      exact .of_eq rfl rfl rfl rfl
    · exact .refl e

theorem keeps_givePermits (tag : String) (count : Nat) : e.Keeps (e.givePermits tag count) :=
  (keeps_handPermits tag _).trans (.of_eq rfl rfl rfl rfl)

/-! ## Requests to the engine itself -/

/-- A validation leaves nothing but warnings. -/
theorem validate_eq (program : Sentence) : ∃ log, (e.validate program).2 = { e with log } := by
  unfold validate
  dsimp only
  -- one warning for each label that occurs twice
  generalize (examine e.scripts.fields? program).duplicates = duplicates
  induction duplicates generalizing e with
  | nil => exact ⟨e.log, rfl⟩
  | cons duplicate rest ih =>
    obtain ⟨log, hlog⟩ := ih (e := e.warnDuplicate duplicate)
    exact ⟨log, hlog⟩

theorem validateFor_eq (program : Sentence) (replaced : Bool) :
    ∃ log validated, (e.validateFor program replaced).2 = { e with log, validated } := by
  obtain ⟨log, hlog⟩ := validate_eq (e := e) program
  unfold validateFor
  split
  · rcases hresult : e.validate program with ⟨error | report, e₁⟩
    · rw [hresult] at hlog
      exact ⟨log, e.validated, hlog⟩
    · rw [hresult] at hlog
      cases hlog
      dsimp only
      split
      · exact ⟨log, e.validated, rfl⟩
      · exact ⟨log, true, rfl⟩
  · exact ⟨e.log, e.validated, rfl⟩

theorem configure_eq (config : ThreadConfig) :
    ∃ log defaults validated, (e.configure config).2 = { e with log, defaults, validated } := by
  unfold configure
  split
  · exact ⟨e.log, _, e.validated, rfl⟩
  next program _ =>
    obtain ⟨log, hlog⟩ := validate_eq (e := e) program
    rcases hresult : e.validate program with ⟨error | report, e₁⟩
    · rw [hresult] at hlog
      exact ⟨log, e.defaults, e.validated, hlog⟩
    · rw [hresult] at hlog
      cases hlog
      exact ⟨log, _, true, rfl⟩

theorem registerScript_eq (name : String) (factory : Factory) :
    ∃ log scripts, (e.registerScript name factory).2 = { e with log, scripts } := by
  unfold registerScript
  split
  · exact ⟨e.log, e.scripts, rfl⟩
  · dsimp only
    split <;> exact ⟨_, _, rfl⟩

theorem registerService_eq (service : ServiceId) :
    ∃ services, (e.registerService service).2 = { e with services } := by
  unfold registerService
  split <;> exact ⟨_, rfl⟩

theorem keeps_validate (program : Sentence) : e.Keeps (e.validate program).2 := by
  obtain ⟨log, hlog⟩ := validate_eq (e := e) program
  rw [hlog]
  exact .of_eq rfl rfl rfl rfl

theorem keeps_registerService (service : ServiceId) : e.Keeps (e.registerService service).2 := by
  obtain ⟨services, hservices⟩ := registerService_eq (e := e) service
  rw [hservices]
  exact .of_eq rfl rfl rfl rfl

/-! ## Requests -/

/-- A program passes a validation against the registered scripts. -/
def Passes (e : Engine σ) (program : Sentence) : Prop :=
  ∃ report, (examine e.scripts.fields? program).result = .ok report

/-- All that serving a request can bring about. -/
inductive Answered (e : Engine σ) : Query → List (Work σ) → Engine σ → Prop
  | kept {query : Query} {todo : List (Work σ)} {e' : Engine σ} (hkeeps : e.Keeps e')
      (hstill : ∀ id t, e.thread? id = some t → query.moveOf id t = .still)
      (hplain : ∀ work ∈ todo, work.Plain) : Answered e query todo e'
  | assigned {id : ThreadId} {name : String} {value : Json} {t : ThreadState}
      (ht : e.thread? id = some t) :
      Answered e (.setVar id name value) [] (e.setThread (t.setVar name value))
  | executed {query : Query} {id : ThreadId} {caller : Option Context} {program : Sequence}
      {entry : Option String} {t p : ThreadState} {e' : Engine σ}
      (hquery : query.executes? = some (id, caller, program, entry))
      (ht : e.thread? id = some t) (hprep : t.Prepares (.executed caller program entry) p)
      (hkeeps : (e.setThread p.run.2).Keeps e') :
      Answered e query (advanceWork id p.run.1) e'
  | created {overrides : ThreadConfig} {asked : Option ThreadConfig} {program : Sentence}
      {t : ThreadState} {e₁ : Engine σ}
      (hasked : asked.getD .empty = overrides)
      (hprogram : (e.defaults.merge overrides).sentences = some program)
      (hvalid : overrides.sentences.isSome = true ∨ e.validated = false → e.Passes program)
      (hkeeps : Keeps { e with validated := e.validated || overrides.sentences.isNone } e₁)
      (hcreate : ThreadState.create e₁.threads.length e₁.scripts e₁.services program.asSequence
        ((e.defaults.merge overrides).vars.getD []) (e.defaults.merge overrides).entryLabel =
          .ok t) :
      Answered e (.core (.createThread asked))
        [.notify e₁.services (.created e₁.threads.length), .start e₁.threads.length]
        (e₁.addThread t)
  | vetted {asked : Option ThreadConfig} {program : Sentence} {e' : Engine σ}
      (hprogram : e.defaults.sentences = some program) (hvalid : e.Passes program)
      (hkeeps : Keeps { e with validated := true } e') :
      Answered e (.core (.createThread asked)) [] e'
  | registered {name : String} {factory : Factory} {scripts : Registry} {e' : Engine σ}
      (hregister : e.scripts.register name factory = .ok scripts)
      (hkeeps : Keeps { e with scripts } e') :
      Answered e (.core (.registerScript name factory)) [] e'
  | configured {config : ThreadConfig} {e' : Engine σ}
      (hvalid : ∀ program, config.sentences = some program → e.Passes program)
      (hkeeps : Keeps
        { e with
          defaults := e.defaults.merge config
          validated := e.validated || config.sentences.isSome } e') :
      Answered e (.core (.configure config)) [] e'

theorem Answered.respond {query : Query} {α : Type} {reply : α}
    (hstill : ∀ id t, e.thread? id = some t → query.moveOf id t = .still) :
    e.Answered query (e.respond reply).todo (e.respond reply).engine :=
  .kept (.refl e) hstill (by simp [Engine.respond])

theorem answered_transfer (hn : e.Numbered) {query : Query} {caller : Option Context}
    {program : Sequence} {entry : Option String}
    (hquery : query.executes? = some (id, caller, program, entry)) :
    e.Answered query (e.transfer id caller program entry).todo
      (e.transfer id caller program entry).engine := by
  unfold transfer
  rcases ht : e.thread? id with _ | t
  · -- there is no such thread
    refine .respond ?_
    intro id' t' ht'
    rw [Query.moveOf_of_executes hquery, if_neg]
    rintro ⟨rfl, -⟩
    cases ht.symm.trans ht'
  rcases htransfer : t.transfer caller program entry with error | ⟨advance, s⟩
  · -- a refusal is no move: what is granted would have succeeded
    simp only [htransfer]
    refine .respond ?_
    intro id' t' ht'
    rw [Query.moveOf_of_executes hquery, if_neg]
    rintro ⟨rfl, hgrants⟩
    cases ht.symm.trans ht'
    obtain ⟨p, hprep⟩ := ThreadState.exists_prepares_of_grants hgrants
    cases hprep.transfer_eq.symm.trans htransfer
  · -- a start that is still pending is dropped, which is only a mark
    obtain ⟨p, hprep, hrun⟩ := ThreadState.transfer_eq_ok htransfer
    simp only [htransfer]
    have hadvance : advance = p.run.1 := by rw [hrun]
    have hs : s = p.run.2 := by rw [hrun]
    subst hadvance hs
    exact .executed hquery ht hprep (keeps_dropStart (numbered_setThread hn) id)

theorem answered_configure (config : ThreadConfig) :
    e.Answered (.core (.configure config)) [] (e.configure config).2 := by
  unfold configure
  rcases hprogram : config.sentences with _ | program
  · refine .configured ?_ (.of_eq rfl rfl ?_ rfl)
    · intro program h
      rw [hprogram] at h
      cases h
    · simp [hprogram]
  have hkeeps := keeps_validate (e := e) program
  rcases hresult : e.validate program with ⟨error | report, e₁⟩
  · rw [hresult] at hkeeps
    simp only [hresult]
    exact .kept hkeeps (fun _ _ _ => rfl) (by simp)
  · have hpass : e.Passes program := ⟨report, congrArg Prod.fst hresult⟩
    rw [hresult] at hkeeps
    simp only [hresult]
    refine .configured ?_ ?_
    · intro program' h
      rw [hprogram] at h
      cases h
      exact hpass
    · exact {
        scripts := hkeeps.scripts
        defaults := congrArg (·.merge config) hkeeps.defaults
        validated := by simp [hprogram]
        count := hkeeps.count
        agrees := hkeeps.agrees }

/-- The outcome of the validation that comes before a new thread. -/
theorem validateFor_cases (program : Sentence) (replaced : Bool) :
    (∃ error e', e.validateFor program replaced = (.error error, e') ∧ e.Keeps e') ∨
    (∃ e', e.validateFor program replaced = (.ok (), e') ∧
      (replaced = true ∨ e.validated = false → e.Passes program) ∧
      Keeps { e with validated := e.validated || !replaced } e') := by
  unfold validateFor
  by_cases hneeded : (replaced || !e.validated) = true
  · simp only [hneeded, if_true]
    have hkeeps := keeps_validate (e := e) program
    rcases hresult : e.validate program with ⟨error | report, e₁⟩
    · rw [hresult] at hkeeps
      exact .inl ⟨_, _, rfl, hkeeps⟩
    · rw [hresult] at hkeeps
      refine .inr ⟨_, rfl, fun _ => ⟨report, congrArg Prod.fst hresult⟩, ?_⟩
      cases replaced with
      | true =>
        simpa using ⟨hkeeps.scripts, hkeeps.defaults, hkeeps.validated, hkeeps.count,
          hkeeps.agrees⟩
      | false =>
        exact {
          scripts := hkeeps.scripts
          defaults := hkeeps.defaults
          validated := by simp
          count := hkeeps.count
          agrees := hkeeps.agrees }
  · -- the default program again, which was validated before
    simp only [Bool.not_eq_true, Bool.or_eq_false_iff, Bool.not_eq_false'] at hneeded
    simp only [hneeded.1, hneeded.2, Bool.not_true, Bool.or_self, Bool.false_eq_true, if_false]
    refine .inr ⟨e, rfl, ?_, .of_eq rfl rfl ?_ rfl⟩
    · simp
    · simp [hneeded.2]

theorem sentences_merge_of_none {base overrides : ThreadConfig}
    (h : overrides.sentences.isSome = false) :
    (base.merge overrides).sentences = base.sentences := by
  simp only [Option.isSome_eq_false_iff, Option.isNone_iff_eq_none] at h
  simp [ThreadConfig.merge, h]

theorem answered_createThread (overrides : Option ThreadConfig) :
    e.Answered (.core (.createThread overrides)) (e.createThread overrides).todo
      (e.createThread overrides).engine := by
  unfold createThread
  dsimp only
  rcases hprogram : (e.defaults.merge (overrides.getD .empty)).sentences with _ | program
  · exact .respond fun _ _ _ => rfl
  dsimp only
  obtain ⟨error, e₁, hresult, hkeeps⟩ | ⟨e₁, hresult, hvalid, hkeeps⟩ :=
    validateFor_cases (e := e) program (overrides.getD .empty).sentences.isSome
  · simp only [hresult]
    exact .kept hkeeps (fun _ _ _ => rfl) (by simp [respond])
  simp only [hresult]
  have hnone : (!(overrides.getD .empty).sentences.isSome) =
      (overrides.getD .empty).sentences.isNone := by simp
  rw [hnone] at hkeeps
  rcases hcreate : ThreadState.create e₁.threads.length e₁.scripts e₁.services program.asSequence
      ((e.defaults.merge (overrides.getD .empty)).vars.getD [])
      (e.defaults.merge (overrides.getD .empty)).entryLabel with error | t
  · -- the program is valid and marked so, but the thread cannot start
    simp only [respond]
    by_cases hflag : (e.validated || (overrides.getD .empty).sentences.isNone) = e.validated
    · rw [hflag] at hkeeps
      exact .kept hkeeps (fun _ _ _ => rfl) (by simp)
    · simp only [Bool.or_eq_left_iff_imp, Classical.not_imp, Bool.not_eq_true] at hflag
      rw [sentences_merge_of_none (by simpa using hflag.1)] at hprogram
      rw [hflag.1, Bool.or_true] at hkeeps
      exact .vetted hprogram (hvalid (.inr hflag.2)) hkeeps
  · exact .created rfl hprogram hvalid hkeeps hcreate

theorem answered_registerScript (name : String) (factory : Factory) :
    e.Answered (.core (.registerScript name factory)) [] (e.registerScript name factory).2 := by
  unfold registerScript
  rcases hregister : e.scripts.register name factory with error | scripts
  · exact .kept (.refl e) (fun _ _ _ => rfl) (by simp)
  · refine .registered hregister ?_
    dsimp only
    split <;> exact .of_eq rfl rfl rfl rfl

theorem answered_answerCore (query : CoreQuery) :
    e.Answered (.core query) (e.answerCore query).todo (e.answerCore query).engine := by
  cases query with
  | threads => exact .respond fun _ _ _ => rfl
  | createThread overrides => exact answered_createThread overrides
  | destroyAll =>
    refine .kept (.refl e) (fun _ _ _ => rfl) ?_
    simp [answerCore, Work.Plain, Work.aborts?, Work.reports?]
  | destroyCore =>
    -- the threads one by one, then the services are told and the engine may be opened again
    refine .kept (.refl e) (fun _ _ _ => rfl) ?_
    simp only [answerCore, List.mem_append, List.mem_map, List.mem_cons, List.not_mem_nil,
      or_false]
    rintro work (⟨id, -, rfl⟩ | rfl | rfl) <;> exact ⟨rfl, rfl⟩
  | initializeCore =>
    simp only [answerCore]
    split
    · exact .respond fun _ _ _ => rfl
    · refine .kept (.of_eq rfl rfl rfl rfl) (fun _ _ _ => rfl) ?_
      simp [Work.Plain, Work.aborts?, Work.reports?]
  | configure config => exact answered_configure config
  | validate program =>
    exact .kept (keeps_validate program) (fun _ _ _ => rfl) (by simp [answerCore, respond])
  | registerScript name factory => exact answered_registerScript name factory
  | registerService service =>
    exact .kept (keeps_registerService service) (fun _ _ _ => rfl) (by simp [answerCore, respond])
  | scriptNames => exact .respond fun _ _ _ => rfl
  | aliases name => exact .respond fun _ _ _ => rfl

/-- Serving a request brings about nothing else. -/
theorem answered_answer (hn : e.Numbered) (query : Query) :
    e.Answered query (e.answer query).todo (e.answer query).engine := by
  cases query with
  | isRunning id => exact .respond fun _ _ _ => rfl
  | hasEnded id => exact .respond fun _ _ _ => rfl
  | getVar id name => exact .respond fun _ _ _ => rfl
  | vars id => exact .respond fun _ _ _ => rfl
  | position id => exact .respond fun _ _ _ => rfl
  | isCancelled context => exact .respond fun _ _ _ => rfl
  | setVar id name value =>
    simp only [answer, respond]
    rcases ht : e.thread? id with _ | t
    · rw [modifyThread_none ht]
      refine .kept (.refl e) ?_ (by simp)
      intro id' t' ht'
      refine if_neg ?_
      rintro rfl
      cases ht.symm.trans ht'
    · rw [modifyThread_eq ht]
      exact .assigned ht
  | execute id program entry => exact answered_transfer hn rfl
  | transfer context program entry => exact answered_transfer hn rfl
  | destroy id =>
    simp only [answer, destroyThread]
    split
    · refine .kept (.refl e) (fun _ _ _ => rfl) ?_
      simp [Work.Plain, Work.aborts?, Work.reports?]
    · exact .respond fun _ _ _ => rfl
  | hasCore => exact .respond fun _ _ _ => rfl
  | core query =>
    simp only [answer]
    split
    · exact answered_answerCore query
    · exact .respond fun _ _ _ => rfl

/-! ## Scripts to be told to stop, and errors -/

/-- At most the first item of the work that follows tells a script to stop. -/
theorem advanceWork_tail_aborts (id : ThreadId) (advance : Advance) :
    ∀ work ∈ (advanceWork id advance : List (Work σ)).tail, work.aborts? = none := by
  unfold advanceWork
  split <;> simp [Work.aborts?]

theorem Answered.tail_aborts {query : Query} {todo : List (Work σ)} (h : e.Answered query todo e') :
    ∀ work ∈ todo.tail, work.aborts? = none := by
  cases h with
  | kept hkeeps hstill hplain =>
    intro work hwork
    exact (hplain work (List.mem_of_mem_tail hwork)).1
  | assigned => simp
  | executed => exact advanceWork_tail_aborts _ _
  | created => simp [Work.aborts?]
  | vetted => simp
  | registered => simp
  | configured => simp

theorem advanceWork_reports {id other : ThreadId} {advance : Advance} {error : ThreadError}
    {work : Work σ} (hwork : work ∈ advanceWork id advance)
    (hreports : work.reports? = some (other, error)) :
    other = id ∧ advance.arrival = .fatal error := by
  have harrive : work = .arrive id advance.arrival := by
    unfold advanceWork at hwork
    split at hwork
    · simp only [List.mem_cons, List.not_mem_nil, or_false] at hwork
      rcases hwork with rfl | rfl
      · cases hreports
      · rfl
    · simpa using hwork
  subst harrive
  cases harrival : advance.arrival with
  | fatal error' =>
    rw [harrival] at hreports
    cases hreports
    exact ⟨rfl, rfl⟩
  | _ =>
    rw [harrival] at hreports
    cases hreports

/-- Where an error of a thread comes from: the cursor machine, set going by a move. -/
def FailsBy (e : Engine σ) (id : ThreadId) (error : ThreadError)
    (moveOf : ThreadId → ThreadState → Move) : Prop :=
  ∃ t p, e.thread? id = some t ∧ t.Prepares (moveOf id t) p ∧ p.run.1.arrival = .fatal error

theorem Answered.reports {query : Query} {todo : List (Work σ)} (h : e.Answered query todo e')
    {work : Work σ} {error : ThreadError} (hwork : work ∈ todo)
    (hreports : work.reports? = some (id, error)) :
    e.FailsBy id error fun id t => query.moveOf id t := by
  cases h with
  | kept hkeeps hstill hplain => cases (hplain work hwork).2.symm.trans hreports
  | @executed _ other caller program entry t p _ hquery ht hprep hkeeps =>
    obtain ⟨rfl, harrival⟩ := advanceWork_reports hwork hreports
    refine ⟨t, p, ht, ?_, harrival⟩
    show t.Prepares (query.moveOf _ t) p
    rw [Query.moveOf_of_executes hquery, if_pos ⟨rfl, hprep.grants⟩]
    exact hprep
  | created =>
    simp only [List.mem_cons, List.not_mem_nil, or_false] at hwork
    rcases hwork with rfl | rfl <;> cases hreports
  | _ => cases hwork

/-- The script that is to be told to stop next, according to the work that follows. -/
theorem advanceWork_head_aborts (id : ThreadId) (advance : Advance) :
    (advanceWork id advance : List (Work σ)).head?.bind Work.aborts? = advance.aborted := by
  unfold advanceWork
  rcases hab : advance.aborted with _ | a <;> simp [Work.aborts?]

/-- A script is told to stop only when its thread takes a move that tells it. -/
theorem Answered.head_aborts {query : Query} {todo : List (Work σ)} (h : e.Answered query todo e')
    {a : Instance} (ha : todo.head?.bind Work.aborts? = some a) :
    ∃ id t, e.thread? id = some t ∧ t.inFlight = some a ∧ (query.moveOf id t).tells = true := by
  cases h with
  | kept hkeeps hstill hplain =>
    obtain ⟨work, hwork, hab⟩ := Option.bind_eq_some_iff.1 ha
    cases (hplain work (List.mem_of_head? hwork)).1.symm.trans hab
  | assigned => cases ha
  | @executed _ id caller program entry t p _ hquery ht hprep hkeeps =>
    rw [advanceWork_head_aborts] at ha
    refine ⟨id, t, ht, ?_, ?_⟩
    · have hflight := ThreadState.aborted_run ha
      cases hprep
      exact hflight
    · rw [Query.moveOf_of_executes hquery]
      simp [hprep.grants, Move.tells]
  | created => cases ha
  | vetted => cases ha
  | registered => cases ha
  | configured => cases ha

end Engine
end SentenceEngine
