import SentenceEngine.Proofs.Growth
import SentenceEngine.Proofs.Refusals
import SentenceEngine.Proofs.Variables

/-!
# Layers of configurations

A configuration lies over another one, and the engine keeps only the outcome: its defaults are all
the configurations that it was given, in their order, however they were split up. Laying one over
another is associative and changes nothing a second time, and of each part the last one that was
supplied counts, for the variables name by name.

* `ThreadConfig.merge_assoc`, `ThreadConfig.overlay_append`: layers can be put together in any way.
* `lastSupplied`: the part that counts.
* `Machine.Run.defaults_eq`: the defaults are the layers of the configurations that were granted.
* `Machine.Run.layered`: and a new thread starts from these and its own.
-/

namespace SentenceEngine

variable {σ : Type}

/-! ## Dictionaries over one another -/

namespace Dictionary

variable {α : Type} {base first second overrides d d' : Dictionary α}

theorem merge_merge (hbase : base.Sorted) (hfirst : first.Sorted) (hsecond : second.Sorted) :
    (base.merge first).merge second = base.merge (first.merge second) := by
  refine eq_of_find? ((hbase.merge first).merge second) (hbase.merge _) ?_
  intro key
  rw [find?_merge hsecond.nodup_keys, find?_merge hfirst.nodup_keys,
    find?_merge (hfirst.merge second).nodup_keys, find?_merge hsecond.nodup_keys]
  cases find? second key <;> rfl

theorem nil_merge (h : d.Sorted) : merge [] d = d := by
  refine eq_of_find? (sorted_ofEntries d) h ?_
  intro key
  rw [find?_merge h.nodup_keys]
  cases find? d key <;> rfl

theorem merge_self (h : d.Sorted) : d.merge d = d := by
  refine eq_of_find? (h.merge d) h ?_
  intro key
  rw [find?_merge h.nodup_keys]
  cases find? d key <;> rfl

end Dictionary

/-! ## Configurations over one another -/

namespace ThreadConfig

/-- The variables of a configuration stand in the order of their names. -/
def Ordered (config : ThreadConfig) : Prop := (config.vars.getD []).Sorted

theorem ordered_empty : empty.Ordered := .nil

/-- Configurations laid over one another, the first one at the bottom. -/
def overlay (base : ThreadConfig) (configs : List ThreadConfig) : ThreadConfig :=
  configs.foldl merge base

variable {a b c base : ThreadConfig} {configs : List ThreadConfig}

theorem Ordered.merge (ha : a.Ordered) (b : ThreadConfig) : (a.merge b).Ordered := sorted_merge ha b

theorem merge_assoc (ha : a.Ordered) (hb : b.Ordered) (hc : c.Ordered) :
    (a.merge b).merge c = a.merge (b.merge c) := by
  have hvars : mergeVars (mergeVars a.vars b.vars) c.vars =
      mergeVars a.vars (mergeVars b.vars c.vars) := by
    unfold Ordered at ha hb hc
    rcases hb' : b.vars with _ | first <;> rcases hc' : c.vars with _ | second
    · rfl
    · -- the variables of the third one alone, put in order once more
      rw [hc', Option.getD_some] at hc
      simp [mergeVars, Dictionary.nil_merge hc]
    · rfl
    · rw [hb', Option.getD_some] at hb
      rw [hc', Option.getD_some] at hc
      simp [mergeVars, Dictionary.merge_merge ha hb hc]
  simp only [ThreadConfig.merge, hvars]
  cases c.sentences <;> cases c.entryLabel <;> rfl

theorem empty_merge (ha : a.Ordered) : empty.merge a = a := by
  obtain ⟨vars, sentences, entryLabel⟩ := a
  have hvars : mergeVars none vars = vars := by
    cases vars with
    | none => rfl
    | some vars => exact congrArg some (Dictionary.nil_merge ha)
  simp [ThreadConfig.merge, empty, hvars]

theorem merge_empty (a : ThreadConfig) : a.merge empty = a := by
  simp [ThreadConfig.merge, empty, mergeVars]

theorem merge_self (ha : a.Ordered) : a.merge a = a := by
  obtain ⟨vars, sentences, entryLabel⟩ := a
  have hvars : mergeVars vars vars = vars := by
    cases vars with
    | none => rfl
    | some vars => exact congrArg some (Dictionary.merge_self ha)
  simp [ThreadConfig.merge, hvars]

/-! ## Many layers -/

theorem Ordered.overlay (hbase : base.Ordered) (configs : List ThreadConfig) :
    (base.overlay configs).Ordered := by
  induction configs generalizing base with
  | nil => exact hbase
  | cons config rest ih => exact ih (hbase.merge config)

/-- Layers on top of layers are layers on top of what lies below. -/
theorem merge_overlay (ha : a.Ordered) (hbase : base.Ordered)
    (hconfigs : ∀ config ∈ configs, config.Ordered) :
    a.merge (base.overlay configs) = (a.merge base).overlay configs := by
  induction configs generalizing base with
  | nil => rfl
  | cons config rest ih =>
    obtain ⟨hconfig, hrest⟩ := List.forall_mem_cons.1 hconfigs
    have hnext := ih (hbase.merge config) hrest
    rw [← merge_assoc ha hbase hconfig] at hnext
    exact hnext

theorem overlay_overlay (base : ThreadConfig) (configs above : List ThreadConfig) :
    (base.overlay configs).overlay above = base.overlay (configs ++ above) :=
  List.foldl_append.symm

/-- However many layers are split up, each part can be put together first. -/
theorem overlay_append {above : List ThreadConfig} (hbase : base.Ordered)
    (habove : ∀ config ∈ above, config.Ordered) :
    base.overlay (configs ++ above) = (base.overlay configs).merge (empty.overlay above) := by
  rw [merge_overlay (hbase.overlay configs) ordered_empty habove, merge_empty, overlay_overlay]

end ThreadConfig

/-- The last value that is supplied for a part. -/
def lastSupplied {α : Type} (part : ThreadConfig → Option α) (configs : List ThreadConfig) :
    Option α :=
  (configs.filterMap part).getLast?

namespace ThreadConfig

variable {α : Type} {part : ThreadConfig → Option α} {base config : ThreadConfig}
  {configs : List ThreadConfig}

theorem lastSupplied_cons :
    lastSupplied part (config :: configs) = (lastSupplied part configs <|> part config) := by
  unfold lastSupplied
  cases hpart : part config with
  | none => simp [hpart]
  | some value =>
    rw [List.filterMap_cons_some hpart, List.getLast?_cons]
    cases (configs.filterMap part).getLast? <;> rfl

/-- If the upper one of two layers decides a part, the last one of many does that supplies it. -/
theorem part_overlay
    (hpart : ∀ config ∈ configs, ∀ below,
      part (below.merge config) = (part config <|> part below)) :
    part (base.overlay configs) = lastSupplied part (base :: configs) := by
  induction configs generalizing base with
  | nil =>
    rw [lastSupplied_cons]
    cases hbase : part base <;> simp [overlay, lastSupplied, hbase]
  | cons config rest ih =>
    obtain ⟨hconfig, hrest⟩ := List.forall_mem_cons.1 hpart
    have hlater : part ((base.merge config).overlay rest) =
        (lastSupplied part rest <|> part (base.merge config)) := by
      rw [ih hrest, lastSupplied_cons]
    rw [lastSupplied_cons, lastSupplied_cons]
    refine hlater.trans ?_
    rw [hconfig]
    cases lastSupplied part rest <;> rfl

/-- The value that a configuration gives a variable. -/
def var? (name : String) (config : ThreadConfig) : Option Json := (config.vars.getD []).find? name

theorem var?_merge (hconfig : config.Ordered) (name : String) :
    (base.merge config).var? name = (config.var? name <|> base.var? name) := by
  unfold Ordered at hconfig
  unfold var? ThreadConfig.merge
  cases hvars : config.vars with
  | none => rfl
  | some vars =>
    rw [hvars, Option.getD_some] at hconfig
    exact Dictionary.find?_merge hconfig.nodup_keys name

end ThreadConfig

/-! ## The defaults of an engine -/

namespace Engine

variable {e : Engine σ}

/-- A configuration is laid over the defaults, unless it comes with a program that is not valid. -/
theorem answer_configure (halive : e.alive = true) (config : ThreadConfig) :
    ((∀ program, config.sentences = some program →
        ∃ report, SentenceEngine.validate e.scripts.fields? program = .ok report) ∧
      (e.answer (.core (.configure config))).reply = some (.ok ()) ∧
      (e.answer (.core (.configure config))).engine.defaults = e.defaults.merge config) ∨
    ∃ program error, config.sentences = some program ∧
      SentenceEngine.validate e.scripts.fields? program = .error error ∧
      (e.answer (.core (.configure config))).reply = some (.error (.validation error)) ∧
      (e.answer (.core (.configure config))).engine.defaults = e.defaults := by
  have hanswer : (e.answer (.core (.configure config))).reply = some (e.configure config).1 ∧
      (e.answer (.core (.configure config))).engine = (e.configure config).2 := by
    simp only [answer, halive, if_true]
    exact ⟨rfl, rfl⟩
  rw [hanswer.1, hanswer.2]
  rcases hprogram : config.sentences with _ | program
  · left
    simp [configure, hprogram]
  · obtain ⟨log, hlog⟩ := validate_eq (e := e) program
    rcases hresult : (examine e.scripts.fields? program).result with error | report
    · right
      have hvalidate : e.validate program = (.error error, { e with log }) := Prod.ext hresult hlog
      refine ⟨program, error, rfl, hresult, ?_⟩
      simp [configure, hprogram, hvalidate]
    · left
      have hvalidate : e.validate program = (.ok report, { e with log }) := Prod.ext hresult hlog
      refine ⟨?_, ?_⟩
      · rintro _ ⟨⟩
        exact ⟨report, hresult⟩
      · simp [configure, hprogram, hvalidate]

end Engine

namespace Machine

variable {plugins : Plugins σ} {m m' : Machine σ} {event : Event σ} {host : σ}
  {config : CoreConfig} {stages : List (Stage σ)}

/-- The configuration that a step lays over the defaults. -/
def Stage.lays? (s : Stage σ) : Option ThreadConfig :=
  match s.event.asks? with
  | some (.core (.configure config)) =>
    match (s.before.engine.answer (.core (.configure config))).reply with
    | some (.ok _) => some config
    | _ => none
  | _ => none

/-- All configurations that were laid over the defaults, in their order. -/
def layers (stages : List (Stage σ)) : List ThreadConfig := stages.filterMap Stage.lays?

theorem Step.defaults_eq (h : Step plugins m event m') (hn : m.engine.Numbered) :
    m'.engine.defaults = m.engine.defaults.overlay (Stage.lays? ⟨m, event, m'⟩).toList := by
  by_cases hconfigures : ∃ laid, event.asks? = some (.core (.configure laid))
  · obtain ⟨laid, hasks⟩ := hconfigures
    rw [(h.served hasks).1]
    by_cases halive : m.engine.alive = true
    · rcases Engine.answer_configure halive laid with
        ⟨-, hreply, hdefaults⟩ | ⟨program, error, -, -, hreply, hdefaults⟩
      · simp [hdefaults, Stage.lays?, hasks, hreply, ThreadConfig.overlay]
      · simp [hdefaults, Stage.lays?, hasks, hreply, ThreadConfig.overlay]
    · simp [Engine.answer, halive, Engine.respond, Stage.lays?, hasks, ThreadConfig.overlay]
  · rcases h.defaults hn with hsame | ⟨laid, hasks, -⟩
    · have hnone : Stage.lays? ⟨m, event, m'⟩ = none := by
        unfold Stage.lays?
        split
        next laid hasks => exact absurd ⟨laid, hasks⟩ hconfigures
        next => rfl
      rw [hnone]
      exact hsame
    · exact absurd ⟨laid, hasks⟩ hconfigures

theorem layers_snoc (stages : List (Stage σ)) (s : Stage σ) :
    layers (stages ++ [s]) = layers stages ++ s.lays?.toList :=
  filterMap_snoc _ _ _

/-- The defaults are what the engine was opened with, and over it lie, in their order, all
configurations that were granted. -/
theorem Run.defaults_eq (h : Run plugins (opened host config) stages m) :
    m.engine.defaults = config.thread.overlay (layers stages) := by
  induction h with
  | start => rfl
  | @step stages m m' event hrun hstep ih =>
    rw [hstep.defaults_eq hrun.invariant.numbered, ih, layers_snoc,
      ThreadConfig.overlay_overlay]

theorem asks?_of_lays? {s : Stage σ} {laid : ThreadConfig} (h : s.lays? = some laid) :
    s.event.asks? = some (.core (.configure laid)) := by
  unfold Stage.lays? at h
  split at h
  next config hasks =>
    split at h
    · cases h
      exact hasks
    · cases h
  next => cases h

/-- A request for new defaults fails just if its program is not valid by then. -/
theorem configure_fails_iff {e : Engine σ} (halive : e.alive = true) (laid : ThreadConfig) :
    (∃ error, (e.answer (.core (.configure laid))).reply = some (.error error)) ↔
      ∃ program error, laid.sentences = some program ∧
        validate e.scripts.fields? program = .error error := by
  rcases Engine.answer_configure halive laid with
    ⟨hvalid, hreply, -⟩ | ⟨program, error, hprogram, hinvalid, hreply, -⟩
  · constructor
    · rintro ⟨error, hfails⟩
      cases hreply.symm.trans hfails
    · rintro ⟨program, error, hprogram, hinvalid⟩
      obtain ⟨report, hreport⟩ := hvalid program hprogram
      cases hreport.symm.trans hinvalid
  · exact ⟨fun _ => ⟨program, error, hprogram, hinvalid⟩, fun _ => ⟨_, hreply⟩⟩

/-! ## New threads -/

/-- A thread starts with the parts that were supplied last: at the label in the program, as a
sequence, and with the value of each variable. -/
structure StartsWith (t : ThreadState) (configs : List ThreadConfig) : Prop where
  frames : ∃ program start, lastSupplied (·.sentences) configs = some program ∧
    program.asSequence.entry (lastSupplied (·.entryLabel) configs) = .ok start ∧
    t.frames = [Frame.new program.asSequence start false]
  sorted : t.vars.Sorted
  vars : ∀ name, t.vars.find? name = lastSupplied (ThreadConfig.var? name) configs

/-- A thread that is made of layers starts with the parts that were supplied last. -/
theorem startsWith_of_create {base : ThreadConfig} {configs : List ThreadConfig} {id : ThreadId}
    {scripts : Registry} {services : ServiceSet} {program : Sentence} {t : ThreadState}
    (hbase : base.Ordered) (hconfigs : ∀ laid ∈ configs, laid.Ordered)
    (hprogram : (base.overlay configs).sentences = some program)
    (hcreate : ThreadState.create id scripts services program.asSequence
      ((base.overlay configs).vars.getD []) (base.overlay configs).entryLabel = .ok t) :
    StartsWith t (base :: configs) := by
  obtain ⟨start, -, hstart, rfl⟩ := ThreadState.create_eq_ok hcreate
  constructor
  · refine ⟨program, start, ?_, ?_, rfl⟩
    · rw [← ThreadConfig.part_overlay (fun _ _ _ => rfl)]
      exact hprogram
    · rw [← ThreadConfig.part_overlay (fun _ _ _ => rfl)]
      exact hstart
  · exact hbase.overlay configs
  · intro name
    change ThreadConfig.var? name (base.overlay configs) = _
    refine ThreadConfig.part_overlay ?_
    intro laid hlaid below
    exact ThreadConfig.var?_merge (hconfigs laid hlaid) name

/-- Whatever is laid over the defaults before a thread is created, and what the thread has of its
own, comes with a request. -/
theorem ordered_layers {earlier later : List (Stage σ)} {s : Stage σ}
    {overrides : Option ThreadConfig}
    (hordered : ∀ r ∈ earlier ++ s :: later, ∀ laid, r.event.configures? = some laid → laid.Ordered)
    (hasks : s.event.asks? = some (.core (.createThread overrides))) :
    ∀ laid ∈ layers earlier ++ [overrides.getD .empty], laid.Ordered := by
  intro laid hlaid
  rcases List.mem_append.1 hlaid with hlaid | hlaid
  · obtain ⟨r, hr, hlays⟩ := List.mem_filterMap.1 hlaid
    refine hordered r (List.mem_append_left _ hr) laid ?_
    simp [Event.configures?, asks?_of_lays? hlays]
  · rw [List.mem_singleton.1 hlaid]
    cases overrides with
    | none => exact ThreadConfig.ordered_empty
    | some overrides =>
      refine hordered s (by simp) overrides ?_
      simp [Event.configures?, hasks]

/-- A thread starts from the history of configuration, however it is split up: of each part it has
what was supplied last, among the settings of the engine, all defaults granted before, and its own.
A request for new defaults fails just if its program is not valid by then, and nothing is left of
it. -/
theorem Run.layered (h : Run plugins (opened host config) stages m)
    (hconfig : config.thread.Ordered)
    (hordered : ∀ s ∈ stages, ∀ laid, s.event.configures? = some laid → laid.Ordered) :
    (∀ a b c : ThreadConfig, a.Ordered → b.Ordered → c.Ordered →
      (a.merge b).merge c = a.merge (b.merge c)) ∧
    (∀ a : ThreadConfig, a.Ordered →
      a.merge a = a ∧ ThreadConfig.empty.merge a = a ∧ a.merge .empty = a) ∧
    m.engine.defaults = config.thread.overlay (layers stages) ∧
    (∀ earlier s later laid, stages = earlier ++ s :: later →
      s.event.asks? = some (.core (.configure laid)) → s.before.engine.alive = true →
        ((∃ error, (s.before.engine.answer (.core (.configure laid))).reply = some (.error error)) ↔
          ∃ program error, laid.sentences = some program ∧
            validate s.before.engine.scripts.fields? program = .error error)) ∧
    ∀ earlier s later overrides id, stages = earlier ++ s :: later →
      s.event.asks? = some (.core (.createThread overrides)) →
      (s.before.engine.answer (.core (.createThread overrides))).reply = some (.ok id) →
        (∃ t, s.after.engine.thread? id = some t ∧
          StartsWith t (config.thread :: (layers earlier ++ [overrides.getD .empty]))) ∧
        ∀ below above, layers earlier ++ [overrides.getD .empty] = below ++ above →
          s.before.engine.defaults.merge (overrides.getD .empty) =
            (config.thread.overlay below).merge (ThreadConfig.empty.overlay above) := by
  refine ⟨fun a b c => ThreadConfig.merge_assoc,
    fun a ha => ⟨a.merge_self ha, a.empty_merge ha, a.merge_empty⟩, h.defaults_eq,
    ?_, ?_⟩
  · intro earlier s later laid _ _ halive
    exact configure_fails_iff halive laid
  · intro earlier s later overrides id hstages hasks hreply
    obtain ⟨hearlier, hstep⟩ := h.reached hstages
    obtain ⟨t, program, services, ht, hcreates⟩ :=
      hstep.creates_of_granted hearlier.invariant.numbered hasks hreply
    have hmerged : s.before.engine.defaults.merge (overrides.getD .empty) =
        config.thread.overlay (layers earlier ++ [overrides.getD .empty]) := by
      rw [hearlier.defaults_eq, ← ThreadConfig.overlay_overlay]
      rfl
    have hlayers : ∀ laid ∈ layers earlier ++ [overrides.getD .empty], laid.Ordered := by
      subst hstages
      exact ordered_layers hordered hasks
    have hprogram := hcreates.sentences
    have hcreate := hcreates.create
    rw [hmerged] at hprogram hcreate
    refine ⟨⟨t, ht, startsWith_of_create hconfig hlayers hprogram hcreate⟩, ?_⟩
    intro below above hsplit
    rw [hmerged, hsplit]
    refine ThreadConfig.overlay_append hconfig ?_
    intro laid hlaid
    exact hlayers laid (hsplit ▸ List.mem_append_right _ hlaid)

/-- A variable for all threads. -/
def granting : Query :=
  .core (.configure { ThreadConfig.empty with vars := some [("x", .bool true)] })

/-- Another value for the same variable, with a program that is not valid. -/
def failing : Query :=
  .core (.configure
    { ThreadConfig.ofProgram (.instruction (.new "b")) with vars := some [("x", .bool false)] })

/-- A thread with a variable of its own. -/
def creating : Query :=
  .core (.createThread (some { ThreadConfig.empty with vars := some [("y", .null)] }))

/-- The thread has the variable of all threads and its own, and runs the program that the engine was
opened with. -/
theorem Run.layered_sample :
    ∃ stages m t, Run idlePlugins (opened () sampleConfig) stages m ∧
      m.engine.thread? 0 = some t ∧ t.vars.find? "x" = some (.bool true) ∧
      t.vars.find? "y" = some .null ∧
      StartsWith t [sampleConfig.thread,
        { ThreadConfig.empty with vars := some [("x", .bool true)] },
        { ThreadConfig.empty with vars := some [("y", .null)] }] := by
  have hrun := ((((.start : Run idlePlugins (opened () sampleConfig) [] _).step
    (.ask (.core (.registerScript "a" ⟨"a", some [], "a"⟩)))).step (.ask granting)).step
    (.ask failing)).step (.ask creating)
  obtain ⟨-, -, -, -, hcreated⟩ := Run.layered hrun .nil (by
    intro s hs laid hlaid
    simp only [List.nil_append, List.cons_append, List.mem_cons, List.not_mem_nil, or_false] at hs
    rcases hs with rfl | rfl | rfl | rfl <;> cases hlaid <;> exact List.pairwise_singleton _ _)
  obtain ⟨⟨t, ht, hstarts⟩, -⟩ := hcreated _ _ [] _ 0 rfl rfl rfl
  exact ⟨_, _, t, hrun, ht, hstarts.vars "x", hstarts.vars "y", hstarts⟩

end Machine

end SentenceEngine
