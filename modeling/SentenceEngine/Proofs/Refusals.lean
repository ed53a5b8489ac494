import SentenceEngine.Proofs.Succession

/-!
# Requests that fail

A request fails for one reason, the first that applies of those that it is checked for, and one that
fails has changed nothing: every check comes before the first change. What is left of it are the
warnings of a validation, and the mark that the default program is valid, if it is.

* `Engine.Refuses`: the reasons for which requests fail.
* `Engine.Residue`: what a request that fails may leave.
* `Machine.Step.refusal_spares`: a request fails for these reasons, and leaves nothing else.
-/

namespace SentenceEngine

variable {σ : Type}

/-- The error of a result that is one. -/
def errorOf {ε α : Type} : Except ε α → Option ε
  | .error error => some error
  | .ok _ => none

/-- The error that a reply of the engine tells of. -/
def CoreQuery.failure? : (query : CoreQuery) → query.Reply → Option EngineError
  | .createThread _ => errorOf
  | .initializeCore => errorOf
  | .configure _ => errorOf
  | .validate _ => errorOf
  | .registerScript _ _ => errorOf
  | .registerService _ => errorOf
  | _ => fun _ => none

/-- The error that a reply tells of. -/
def Query.failure? : (query : Query) → query.Reply → Option EngineError
  | .execute _ _ _ => fun reply => (errorOf reply).map .thread
  | .transfer _ _ _ => fun reply => (errorOf reply).map .thread
  | .destroy _ => fun reply => (errorOf reply).map .thread
  | .core query => fun reply => reply.bind query.failure?
  | _ => fun _ => none

/-- Code goes on with what is replied to its request. -/
def Work.goOn (work : Work σ) (reply : (query : Query) → query.Reply) : Work σ :=
  match work with
  | .script context (.ask query next) => .script context (next (reply query))
  | .hook notification (.ask query next) => .hook notification (next (reply query))
  | .abortHook context (.ask query next) => .abortHook context (next (reply query))
  | work => work

namespace Engine

variable {e e' : Engine σ} {id : ThreadId} {caller : Option Context} {program : Sequence}
  {entry : Option String} {t : ThreadState} {query : Query} {error : EngineError}

/-! ## Reasons -/

/-- Why control is not handed to a program. -/
inductive RefusesTransfer (e : Engine σ) (id : ThreadId) (caller : Option Context)
    (program : Sequence) (entry : Option String) : ThreadError → Prop
  /-- The thread does not run. -/
  | notRunning (hphase : e.phase? id ≠ some .running) :
      RefusesTransfer e id caller program entry .notRunning
  /-- It runs, but the script that asks is not the one in flight. -/
  | superseded {t : ThreadState} {context : Context} (ht : e.thread? id = some t)
      (hphase : t.phase = .running) (hcaller : caller = some context)
      (hcurrent : t.isCurrent context.ticket = false) :
      RefusesTransfer e id caller program entry (.superseded context.name)
  /-- It runs, and whoever asks may do so, but the program has no such label. -/
  | unknownEntry {t : ThreadState} {label : String} (ht : e.thread? id = some t)
      (hphase : t.phase = .running)
      (hcaller : ∀ context, caller = some context → t.isCurrent context.ticket = true)
      (hentry : entry = some label) (hlabel : program.findLabel? label = none) :
      RefusesTransfer e id caller program entry (.unknownEntryLabel label)

/-- Whether a program has to be validated before a thread is created from it. -/
def NeedsValidation (e : Engine σ) (overrides : ThreadConfig) : Prop :=
  overrides.sentences.isSome = true ∨ e.validated = false

/-- Why a thread is not created. -/
inductive RefusesThread (e : Engine σ) (overrides : ThreadConfig) : EngineError → Prop
  /-- There is no program, -/
  | noProgram (hprogram : (e.defaults.merge overrides).sentences = none) :
      RefusesThread e overrides (.thread .emptyProgram)
  /-- or it is not known to be valid and is not, -/
  | invalid {program : Sentence} {error : ValidationError}
      (hprogram : (e.defaults.merge overrides).sentences = some program)
      (hneeded : e.NeedsValidation overrides)
      (hinvalid : (examine e.scripts.fields? program).result = .error error) :
      RefusesThread e overrides (.validation error)
  /-- or it is valid, but empty, -/
  | emptyProgram {program : Sentence}
      (hprogram : (e.defaults.merge overrides).sentences = some program)
      (hvalid : e.NeedsValidation overrides → e.Passes program)
      (hempty : program.asSequence = []) :
      RefusesThread e overrides (.thread .emptyProgram)
  /-- or it is valid, but has no such label. -/
  | unknownEntry {program : Sentence} {label : String}
      (hprogram : (e.defaults.merge overrides).sentences = some program)
      (hvalid : e.NeedsValidation overrides → e.Passes program)
      (hcontent : program.asSequence ≠ [])
      (hentry : (e.defaults.merge overrides).entryLabel = some label)
      (hlabel : Sequence.findLabel? program.asSequence label = none) :
      RefusesThread e overrides (.thread (.unknownEntryLabel label))

/-- Why a request to the engine fails. -/
inductive RefusesCore (e : Engine σ) : CoreQuery → EngineError → Prop
  | createThread {overrides : Option ThreadConfig} {error : EngineError}
      (hrefuses : e.RefusesThread (overrides.getD .empty) error) :
      RefusesCore e (.createThread overrides) error
  | initialized (hinitialized : e.initialized = true) :
      RefusesCore e .initializeCore (.configuration "core is already initialized")
  | configure {config : ThreadConfig} {program : Sentence} {error : ValidationError}
      (hprogram : config.sentences = some program)
      (hinvalid : (examine e.scripts.fields? program).result = .error error) :
      RefusesCore e (.configure config) (.validation error)
  | validate {program : Sentence} {error : ValidationError}
      (hinvalid : (examine e.scripts.fields? program).result = .error error) :
      RefusesCore e (.validate program) (.validation error)
  /-- The name of a script has to be free, -/
  | duplicateScript {name : String} {factory : Factory} (htaken : e.scripts.hasKey name = true) :
      RefusesCore e (.registerScript name factory) (.registry (.duplicateScript name))
  /-- and then its payload has to be described. -/
  | missingSchema {name : String} {factory : Factory} (hfree : e.scripts.hasKey name = false)
      (hfields : factory.fields = none) :
      RefusesCore e (.registerScript name factory) (.registry (.missingSchema name))
  | duplicateService {service : ServiceId} (hmem : service ∈ e.services) :
      RefusesCore e (.registerService service) (.registry .duplicateService)

/-- Why a request fails. -/
inductive Refuses (e : Engine σ) : Query → EngineError → Prop
  | transfer {query : Query} {id : ThreadId} {caller : Option Context} {program : Sequence}
      {entry : Option String} {error : ThreadError}
      (hquery : query.executes? = some (id, caller, program, entry))
      (hrefuses : e.RefusesTransfer id caller program entry error) :
      Refuses e query (.thread error)
  | destroy {id : ThreadId} (hphase : e.phase? id ≠ some .running) :
      Refuses e (.destroy id) (.thread .notRunning)
  | core {query : CoreQuery} {error : EngineError} (halive : e.alive = true)
      (hrefuses : e.RefusesCore query error) : Refuses e (.core query) error

/-! ## What may be left -/

/-- The program that a request may have validated. -/
def vets? (e : Engine σ) : Query → Option Sentence
  | .core (.createThread overrides) => (e.defaults.merge (overrides.getD .empty)).sentences
  | .core (.configure config) => config.sentences
  | .core (.validate program) => some program
  | _ => none

/-- What a request may leave that fails. -/
structure Residue (e : Engine σ) (query : Query) (e' : Engine σ) : Prop where
  /-- Threads and their tasks, defaults and registries are as before, and so is all else but the log
  and the mark of the default program. -/
  engine : e' = { e with log := e'.log, validated := e'.validated }
  /-- What was added to the log are the warnings about the labels of the program that was
  validated. -/
  logged : e'.log = e.log ∨ ∃ program, e.vets? query = some program ∧
    e'.log = (e.validate program).2.log
  /-- The mark was set only by a request for a thread of the default program, which is valid. -/
  marked : e'.validated = e.validated ∨ e'.validated = true ∧ ∃ overrides program,
    query = .core (.createThread overrides) ∧ (overrides.getD .empty).sentences = none ∧
    e.defaults.sentences = some program ∧ e.Passes program

theorem Residue.refl (e : Engine σ) (query : Query) : e.Residue query e := ⟨rfl, .inl rfl, .inl rfl⟩

/-- The warnings of a validation. -/
theorem Residue.validate {program : Sentence} (hvets : e.vets? query = some program) :
    e.Residue query (e.validate program).2 := by
  obtain ⟨log, hlog⟩ := validate_eq (e := e) program
  refine ⟨?_, .inr ⟨program, hvets, rfl⟩, .inl ?_⟩
  · rw [hlog]
  · rw [hlog]

/-- A request that validates nothing and fails leaves nothing at all. -/
theorem Residue.eq (h : e.Residue query e') (hvets : e.vets? query = none) : e' = e := by
  have hlog : e'.log = e.log := by
    rcases h.logged with hsame | ⟨program, hprogram, -⟩
    · exact hsame
    · cases hvets.symm.trans hprogram
  have hmark : e'.validated = e.validated := by
    rcases h.marked with hsame | ⟨-, overrides, program, rfl, hopen, hdefault, -⟩
    · exact hsame
    · rw [vets?, ThreadConfig.merge, hopen] at hvets
      cases hdefault.symm.trans hvets
  rw [h.engine, hlog, hmark]

/-! ## One request after the other -/

theorem RefusesTransfer.respond {error : ThreadError}
    (h : e.RefusesTransfer id caller program entry error) :
    e.transfer id caller program entry = e.respond (.error error) := by
  unfold transfer
  cases h with
  | notRunning hphase =>
    rcases ht : e.thread? id with _ | t
    · rfl
    · have hnot : t.isRunning = false := by
        rw [Bool.eq_false_iff]
        intro hrunning
        exact hphase (by rw [phase?_eq ht, ThreadState.isRunning_iff.1 hrunning])
      simp [ThreadState.transfer, hnot, bind, Except.bind]
  | superseded ht hphase hcaller hcurrent =>
    have hrunning := ThreadState.isRunning_iff.2 hphase
    simp [ht, ThreadState.transfer, hrunning, hcaller, hcurrent, bind, Except.bind]
  | unknownEntry ht hphase hcaller hentry hlabel =>
    have hrunning := ThreadState.isRunning_iff.2 hphase
    cases caller with
    | none =>
      simp [ht, ThreadState.transfer, hrunning, hentry, Sequence.entry, hlabel, bind, Except.bind]
    | some context =>
      simp [ht, ThreadState.transfer, hrunning, hcaller context rfl, hentry, Sequence.entry, hlabel,
        bind, Except.bind]

/-- Past all checks a transfer is granted. -/
theorem refusesTransfer_or_ok (e : Engine σ) (id : ThreadId) (caller : Option Context)
    (program : Sequence) (entry : Option String) :
    (∃ error, e.RefusesTransfer id caller program entry error) ∨
      (e.transfer id caller program entry).reply = .ok () := by
  by_cases hphase : e.phase? id = some .running
  · obtain ⟨t, ht, hphase⟩ := phase?_eq_some_iff.1 hphase
    by_cases hcaller : ∀ context, caller = some context → t.isCurrent context.ticket = true
    · rcases hstart : program.entry entry with error | start
      · -- only a label can be missing
        cases entry with
        | none => cases hstart
        | some label =>
          rcases hlabel : program.findLabel? label with _ | index
          · exact .inl ⟨_, .unknownEntry ht hphase hcaller rfl hlabel⟩
          · simp [Sequence.entry, hlabel] at hstart
      · have hprep := ThreadState.Prepares.executed hphase hcaller hstart
        right
        simp only [transfer, ht, hprep.transfer_eq]
    · simp only [Classical.not_forall, Bool.not_eq_true] at hcaller
      obtain ⟨context, hcaller, hcurrent⟩ := hcaller
      exact .inl ⟨_, .superseded ht hphase hcaller hcurrent⟩
  · exact .inl ⟨_, .notRunning hphase⟩

theorem needsValidation_iff {overrides : ThreadConfig} :
    e.NeedsValidation overrides ↔ (overrides.sentences.isSome || !e.validated) = true := by
  simp [NeedsValidation]

/-- A program that need not be validated, or is valid, is let through, and the mark is set if it is
the default one. -/
theorem validateFor_of_passes {overrides : ThreadConfig} {program : Sentence}
    (hvalid : e.NeedsValidation overrides → e.Passes program) :
    ∃ e', e.validateFor program overrides.sentences.isSome = (.ok (), e') ∧
      e' = { e with log := e'.log, validated := e'.validated } ∧
      (e'.log = e.log ∨ e'.log = (e.validate program).2.log) ∧
      (e'.validated = e.validated ∨
        e'.validated = true ∧ overrides.sentences = none ∧ e.Passes program) := by
  unfold validateFor
  by_cases hneeded : (overrides.sentences.isSome || !e.validated) = true
  · rw [if_pos hneeded]
    have hpasses := hvalid (needsValidation_iff.2 hneeded)
    obtain ⟨report, hreport⟩ := hpasses
    obtain ⟨log, hlog⟩ := validate_eq (e := e) program
    have hvalidate : e.validate program = (.ok report, { e with log }) := Prod.ext hreport hlog
    rw [hvalidate]
    rcases hsome : overrides.sentences with _ | replacement
    · exact ⟨_, rfl, rfl, .inr rfl, .inr ⟨rfl, rfl, report, hreport⟩⟩
    · exact ⟨_, rfl, rfl, .inr rfl, .inl rfl⟩
  · rw [if_neg hneeded]
    exact ⟨e, rfl, rfl, .inl rfl, .inl rfl⟩

/-- A thread that cannot be created for want of a place to start leaves what its validation left. -/
theorem residue_create {overrides : Option ThreadConfig} {program : Sentence} {error : ThreadError}
    (hprogram : (e.defaults.merge (overrides.getD .empty)).sentences = some program)
    (hvalid : e.NeedsValidation (overrides.getD .empty) → e.Passes program)
    (hcreate : ∀ id scripts services, ThreadState.create id scripts services program.asSequence
      ((e.defaults.merge (overrides.getD .empty)).vars.getD [])
      (e.defaults.merge (overrides.getD .empty)).entryLabel = .error error) :
    ∃ e', e.createThread overrides = ⟨.error (.thread error), [], e'⟩ ∧
      e.Residue (.core (.createThread overrides)) e' := by
  obtain ⟨e', hvalidate, hengine, hlog, hmark⟩ := validateFor_of_passes hvalid
  refine ⟨e', ?_, hengine, ?_, ?_⟩
  · simp only [createThread, hprogram, hvalidate, hcreate]
    rfl
  · rcases hlog with hsame | hwarned
    · exact .inl hsame
    · exact .inr ⟨program, hprogram, hwarned⟩
  · rcases hmark with hsame | ⟨hset, hopen, hpasses⟩
    · exact .inl hsame
    · refine .inr ⟨hset, overrides, program, rfl, hopen, ?_, hpasses⟩
      rwa [sentences_merge_of_none (by rw [hopen]; rfl)] at hprogram

theorem RefusesThread.residue {overrides : Option ThreadConfig}
    (h : e.RefusesThread (overrides.getD .empty) error) :
    ∃ e', e.createThread overrides = ⟨.error error, [], e'⟩ ∧
      e.Residue (.core (.createThread overrides)) e' := by
  cases h with
  | noProgram hprogram =>
    refine ⟨e, ?_, .refl e _⟩
    simp only [createThread, hprogram]
    rfl
  | @invalid program error hprogram hneeded hinvalid =>
    refine ⟨(e.validate program).2, ?_, .validate hprogram⟩
    have hvalidate : e.validate program = (.error error, (e.validate program).2) :=
      Prod.ext hinvalid rfl
    rw [needsValidation_iff] at hneeded
    simp only [createThread, hprogram, validateFor, hneeded, if_true]
    rw [hvalidate]
    rfl
  | emptyProgram hprogram hvalid hempty =>
    apply residue_create hprogram hvalid
    intro id scripts services
    simp [ThreadState.create, hempty]
  | @unknownEntry program label hprogram hvalid hcontent hentry hlabel =>
    apply residue_create hprogram hvalid
    intro id scripts services
    have hnot : List.isEmpty program.asSequence = false := by simpa using hcontent
    simp [ThreadState.create, hnot, hentry, Sequence.entry, hlabel, bind, Except.bind]

/-- Past all checks a thread is created. -/
theorem refusesThread_or_ok (e : Engine σ) (overrides : Option ThreadConfig) :
    (∃ error, e.RefusesThread (overrides.getD .empty) error) ∨
      ∃ id, (e.createThread overrides).reply = .ok id := by
  rcases hprogram : (e.defaults.merge (overrides.getD .empty)).sentences with _ | program
  · exact .inl ⟨_, .noProgram hprogram⟩
  by_cases hvalid : e.NeedsValidation (overrides.getD .empty) → e.Passes program
  · by_cases hempty : program.asSequence = []
    · exact .inl ⟨_, .emptyProgram hprogram hvalid hempty⟩
    · rcases hstart : Sequence.entry program.asSequence
          (e.defaults.merge (overrides.getD .empty)).entryLabel with error | start
      · rcases hentry : (e.defaults.merge (overrides.getD .empty)).entryLabel with _ | label
        · rw [hentry] at hstart
          cases hstart
        · rw [hentry] at hstart
          rcases hlabel : Sequence.findLabel? program.asSequence label with _ | index
          · exact .inl ⟨_, .unknownEntry hprogram hvalid hempty hentry hlabel⟩
          · simp [Sequence.entry, hlabel] at hstart
      · obtain ⟨e', hvalidate, -⟩ := validateFor_of_passes hvalid
        have hnot : List.isEmpty program.asSequence = false := by simpa using hempty
        right
        simp only [createThread, hprogram, hvalidate, ThreadState.create, hnot, hstart, bind,
          Except.bind]
        exact ⟨_, rfl⟩
  · simp only [Classical.not_imp] at hvalid
    obtain ⟨hneeded, hfails⟩ := hvalid
    rcases hresult : (examine e.scripts.fields? program).result with error | report
    · exact .inl ⟨_, .invalid hprogram hneeded hresult⟩
    · exact absurd ⟨report, hresult⟩ hfails

theorem RefusesCore.residue {query : CoreQuery} (h : e.RefusesCore query error) :
    query.failure? (e.answerCore query).reply = some error ∧ (e.answerCore query).todo = [] ∧
      e.Residue (.core query) (e.answerCore query).engine := by
  cases h with
  | createThread hrefuses =>
    obtain ⟨e', hcreate, hresidue⟩ := hrefuses.residue
    simp only [answerCore, hcreate]
    exact ⟨rfl, trivial, hresidue⟩
  | initialized hinitialized =>
    simp only [answerCore, hinitialized, if_true]
    exact ⟨rfl, rfl, .refl e _⟩
  | @configure config program error hprogram hinvalid =>
    have hvalidate : e.validate program = (.error error, (e.validate program).2) :=
      Prod.ext hinvalid rfl
    have hconfigure : e.configure config =
        (.error (.validation error), (e.validate program).2) := by
      simp only [Engine.configure, hprogram]
      rw [hvalidate]
    simp only [answerCore, hconfigure]
    exact ⟨rfl, rfl, .validate hprogram⟩
  | @validate program error hinvalid =>
    have hresult : (e.validate program).1 = .error error := hinvalid
    simp only [answerCore, hresult]
    exact ⟨rfl, rfl, .validate rfl⟩
  | @duplicateScript name factory htaken =>
    have hregister : e.registerScript name factory =
        (.error (.registry (.duplicateScript name)), e) := by
      simp [Engine.registerScript, Registry.register, htaken]
    simp only [answerCore, hregister]
    exact ⟨rfl, rfl, .refl e _⟩
  | @missingSchema name factory hfree hfields =>
    have hregister : e.registerScript name factory =
        (.error (.registry (.missingSchema name)), e) := by
      simp [Engine.registerScript, Registry.register, hfree, hfields]
    simp only [answerCore, hregister]
    exact ⟨rfl, rfl, .refl e _⟩
  | @duplicateService service hmem =>
    have hregister : e.registerService service = (.error (.registry .duplicateService), e) := by
      simp [Engine.registerService, ServiceSet.register, hmem]
    simp only [answerCore, hregister]
    exact ⟨rfl, rfl, .refl e _⟩

/-- A request to the engine fails for one of the reasons, or does not fail. -/
theorem refusesCore_or_ok (e : Engine σ) (query : CoreQuery) :
    (∃ error, e.RefusesCore query error) ∨
      query.failure? (e.answerCore query).reply = none := by
  cases query with
  | createThread overrides =>
    rcases refusesThread_or_ok e overrides with ⟨error, hrefuses⟩ | ⟨id, hreply⟩
    · exact .inl ⟨error, .createThread hrefuses⟩
    · right
      simp only [answerCore, CoreQuery.failure?, hreply]
      rfl
  | initializeCore =>
    by_cases hinitialized : e.initialized = true
    · exact .inl ⟨_, .initialized hinitialized⟩
    · right
      simp only [answerCore, hinitialized]
      rfl
  | configure config =>
    rcases hprogram : config.sentences with _ | program
    · right
      simp only [answerCore, Engine.configure, hprogram]
      rfl
    · rcases hresult : (examine e.scripts.fields? program).result with error | report
      · exact .inl ⟨_, .configure hprogram hresult⟩
      · have hvalidate : e.validate program = (.ok report, (e.validate program).2) :=
          Prod.ext hresult rfl
        right
        simp only [answerCore, Engine.configure, hprogram]
        rw [hvalidate]
        rfl
  | validate program =>
    rcases hresult : (examine e.scripts.fields? program).result with error | report
    · exact .inl ⟨_, .validate hresult⟩
    · have hok : (e.validate program).1 = .ok report := hresult
      right
      simp only [answerCore, hok]
      rfl
  | registerScript name factory =>
    rcases hkey : e.scripts.hasKey name with _ | _
    · rcases hfields : factory.fields with _ | fields
      · exact .inl ⟨_, .missingSchema hkey hfields⟩
      · right
        simp only [answerCore, Engine.registerScript, Registry.register, hkey, hfields,
          Bool.false_eq_true, if_false]
        rfl
    · exact .inl ⟨_, .duplicateScript hkey⟩
  | registerService service =>
    by_cases hmem : service ∈ e.services
    · exact .inl ⟨_, .duplicateService hmem⟩
    · right
      simp only [answerCore, Engine.registerService, ServiceSet.register, hmem, if_false]
      rfl
  | _ => exact .inr rfl

/-! ## Requests -/

/-- A request for which there is a reason to fail fails for it, and leaves no work and nothing but
what a request that fails may leave. -/
theorem Refuses.residue (h : e.Refuses query error) :
    query.failure? (e.answer query).reply = some error ∧ (e.answer query).todo = [] ∧
      e.Residue query (e.answer query).engine := by
  cases h with
  | transfer hquery hrefuses =>
    cases query with
    | execute id program entry =>
      cases hquery
      simp only [answer, hrefuses.respond]
      exact ⟨rfl, rfl, .refl e _⟩
    | transfer context program entry =>
      cases hquery
      simp only [answer, hrefuses.respond]
      exact ⟨rfl, rfl, .refl e _⟩
    | _ => cases hquery
  | destroy hphase =>
    have hnot := mt look_isRunning_iff.1 hphase
    simp only [answer, destroyThread, hnot]
    exact ⟨rfl, rfl, .refl e _⟩
  | core halive hrefuses =>
    simp only [answer, halive, if_true]
    exact hrefuses.residue

/-- A request fails for one of the reasons, or does not fail. -/
theorem refuses_or_ok (e : Engine σ) (query : Query) :
    (∃ error, e.Refuses query error) ∨ query.failure? (e.answer query).reply = none := by
  cases query with
  | execute id program entry =>
    rcases refusesTransfer_or_ok e id none program entry with ⟨error, hrefuses⟩ | hok
    · exact .inl ⟨_, .transfer rfl hrefuses⟩
    · right
      simp only [answer, Query.failure?, hok]
      rfl
  | transfer context program entry =>
    rcases refusesTransfer_or_ok e context.thread (some context) program entry with
      ⟨error, hrefuses⟩ | hok
    · exact .inl ⟨_, .transfer rfl hrefuses⟩
    · right
      simp only [answer, Query.failure?, hok]
      rfl
  | destroy id =>
    by_cases hphase : e.phase? id = some .running
    · have hrunning := look_isRunning_iff.2 hphase
      right
      simp only [answer, destroyThread, hrunning, if_true]
      rfl
    · exact .inl ⟨_, .destroy hphase⟩
  | core query =>
    by_cases halive : e.alive = true
    · rcases refusesCore_or_ok e query with ⟨error, hrefuses⟩ | hok
      · exact .inl ⟨error, .core halive hrefuses⟩
      · right
        simp only [answer, halive, if_true]
        exact hok
    · right
      simp only [answer, halive]
      rfl
  | _ => exact .inr rfl

/-- A request fails with an error just if there is that reason for it. -/
theorem failure?_eq_some_iff :
    query.failure? (e.answer query).reply = some error ↔ e.Refuses query error := by
  constructor
  · intro hfails
    rcases refuses_or_ok e query with ⟨reason, hrefuses⟩ | hok
    · cases hrefuses.residue.1.symm.trans hfails
      exact hrefuses
    · cases hok.symm.trans hfails
  · exact fun hrefuses => hrefuses.residue.1

end Engine

namespace Machine

variable {plugins : Plugins σ} {m m' : Machine σ} {event : Event σ} {query : Query}
  {error : EngineError}

/-- A step that serves a request leaves the work of the request, and the code that asked for it goes
on below that. -/
theorem Step.served (h : Step plugins m event m') (hasks : event.asks? = some query) :
    m'.engine = (m.engine.answer query).engine ∧
      m'.stack = (m.engine.answer query).todo ++
        (event.item?.map (·.goOn fun query => (m.engine.answer query).reply)).toList ++
          m.stack.tail := by
  cases h with
  | @work e work rest =>
    cases work with
    | script context code =>
      cases code with
      | ask _ _ =>
        cases hasks
        exact ⟨rfl, rfl⟩
      | _ => cases hasks
    | hook notification code =>
      cases code with
      | ask _ _ =>
        cases hasks
        exact ⟨rfl, rfl⟩
      | _ => cases hasks
    | abortHook context code =>
      cases code with
      | ask _ _ =>
        cases hasks
        exact ⟨rfl, rfl⟩
      | _ => cases hasks
    | _ => cases hasks
  | ask _ =>
    cases hasks
    exact ⟨rfl, by simp [Machine.ask, Event.item?]⟩
  | _ => cases hasks

/-- Whoever makes a request in whatever state, it fails just if there is a reason, with the error of
that reason, and then it leaves nothing but the warnings of a validation, and the mark that the
default program is valid, if it is. No thread, task or registration changes, nothing is put on the
stack, and the code that asked goes on. -/
theorem Step.refusal_spares (h : Step plugins m event m') (hasks : event.asks? = some query) :
    (query.failure? (m.engine.answer query).reply = some error ↔ m.engine.Refuses query error) ∧
      (m.engine.Refuses query error →
        m.engine.Residue query m'.engine ∧
        (m.engine.vets? query = none → m'.engine = m.engine) ∧
        m'.stack = (event.item?.map (·.goOn fun query => (m.engine.answer query).reply)).toList ++
          m.stack.tail) := by
  refine ⟨Engine.failure?_eq_some_iff, ?_⟩
  intro hrefuses
  obtain ⟨-, htodo, hresidue⟩ := hrefuses.residue
  obtain ⟨hengine, hstack⟩ := h.served hasks
  rw [← hengine] at hresidue
  rw [htodo, List.nil_append] at hstack
  exact ⟨hresidue, hresidue.eq, hstack⟩

/-- An engine with one script and no thread. -/
def registered : Machine Unit :=
  ((opened () sampleConfig).ask (.core (.registerScript "a" ⟨"a", some [], "a"⟩))).2

/-- A request for a thread of the default program at a label that it does not have. -/
def astray : Query := .core (.createThread (some ⟨none, none, some "nowhere"⟩))

/-- The thread is not created, and all that has changed is that the default program is known to be
valid. -/
theorem Step.refusal_spares_astray :
    ∃ stages m', Run idlePlugins (opened () sampleConfig) stages registered ∧
      Step idlePlugins registered (.ask astray) m' ∧
      registered.engine.Refuses astray (.thread (.unknownEntryLabel "nowhere")) ∧
      registered.engine.Residue astray m'.engine ∧ m'.stack = [] ∧
      registered.engine.validated = false ∧
      m'.engine = { registered.engine with validated := true } := by
  have hrun := (.start : Run idlePlugins (opened () sampleConfig) [] _).step
    (.ask (.core (.registerScript "a" ⟨"a", some [], "a"⟩)))
  have hstep : Step idlePlugins registered (.ask astray) (registered.ask astray).2 := .ask astray
  have hfails : astray.failure? (registered.engine.answer astray).reply =
      some (.thread (.unknownEntryLabel "nowhere")) := rfl
  have hrefuses := (Step.refusal_spares hstep rfl).1.1 hfails
  obtain ⟨hresidue, -, hstack⟩ := (Step.refusal_spares hstep rfl).2 hrefuses
  exact ⟨_, _, hrun, hstep, hrefuses, hresidue, hstack, rfl, rfl⟩

end Machine
end SentenceEngine
