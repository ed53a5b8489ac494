import SentenceEngine.Proofs.Reentrance
import SentenceEngine.Proofs.Termination
import SentenceEngine.Proofs.Tidiness

/-!
# What the variables of a thread hold

The variables of a thread are those that it was created with, and over them lies all that was
written since, in its order. Writing null removes a variable, so no null comes into the variables by
writing. A configuration, however, is taken as it is: a null in it is there when the thread starts,
and stays until somebody writes to that variable or the thread is gone.

* `Machine.Run.store`: the variables as the outcome of all that was written.
* `Machine.Run.null_of_configuration`: where a null in the variables comes from.
-/

namespace SentenceEngine

variable {σ : Type}

/-! ## Writing -/

namespace Dictionary

theorem mem_of_mem_insert {α : Type} {d : Dictionary α} {key : String} {value : α}
    {entry : String × α} (h : entry ∈ d.insert key value) : entry = (key, value) ∨ entry ∈ d := by
  fun_induction Dictionary.insert d key value with
  | case1 => simpa using h
  | case2 => simpa using h
  | case3 =>
    rcases List.mem_cons.1 h with rfl | hrest
    · exact .inl rfl
    · exact .inr (List.mem_cons_of_mem _ hrest)
  | case4 k v rest key value hlt hne ih =>
    rcases List.mem_cons.1 h with rfl | hrest
    · exact .inr List.mem_cons_self
    · exact (ih hrest).imp_right (List.mem_cons_of_mem _)

/-- An entry of a merged dictionary comes from one of the two. -/
theorem mem_of_mem_merge {α : Type} {base overrides : Dictionary α} {entry : String × α}
    (h : entry ∈ base.merge overrides) : entry ∈ base ∨ entry ∈ overrides := by
  induction overrides generalizing base with
  | nil => exact .inl h
  | cons first rest ih =>
    have hmerge : entry ∈ (base.insert first.1 first.2).merge rest := h
    rcases ih hmerge with hbase | hrest
    · rcases mem_of_mem_insert hbase with rfl | hbase
      · exact .inr List.mem_cons_self
      · exact .inl hbase
    · exact .inr (List.mem_cons_of_mem _ hrest)

end Dictionary

namespace Members

/-- The variables after one of them is written. -/
def write (vars : Members) (name : String) (value : Json) : Members :=
  if value.isNull then vars.erase name else vars.insert name value

/-- The variables after all of this is written to them, one after the other. -/
def writeAll (vars : Members) (writes : List (String × Json)) : Members :=
  writes.foldl (fun vars entry => write vars entry.1 entry.2) vars

theorem writeAll_append (vars : Members) (first second : List (String × Json)) :
    writeAll vars (first ++ second) = writeAll (writeAll vars first) second :=
  List.foldl_append

theorem sorted_write {vars : Members} (h : vars.Sorted) (name : String) (value : Json) :
    (write vars name value).Sorted := by
  unfold write
  split
  · exact h.erase name
  · exact h.insert name value

/-- Writing to a variable takes a null away that was there, and puts none there. -/
theorem null_mem_write {vars : Members} (h : vars.Sorted) {name written : String} {value : Json} :
    (name, .null) ∈ write vars written value ↔ (name, .null) ∈ vars ∧ written ≠ name := by
  rw [Dictionary.mem_iff_find? (sorted_write h written value), Dictionary.mem_iff_find? h]
  have hnull : ∀ other : Json, other.isNull = false → other ≠ .null := by
    rintro other hother rfl
    cases hother
  unfold write
  by_cases hname : name = written
  · rcases hvalue : value.isNull with _ | _
    · simp [Dictionary.find?_insert, hname, hnull value hvalue]
    · simp [Dictionary.find?_erase h, hname]
  · rcases hvalue : value.isNull with _ | _
    · simp [Dictionary.find?_insert, hname, Ne.symm hname]
    · simp [Dictionary.find?_erase h, hname, Ne.symm hname]

/-- The nulls that were there first are left where nothing was written. -/
theorem null_mem_writeAll {vars : Members} (h : vars.Sorted) {writes : List (String × Json)}
    {name : String} :
    (name, .null) ∈ writeAll vars writes ↔
      (name, .null) ∈ vars ∧ ∀ entry ∈ writes, entry.1 ≠ name := by
  induction writes generalizing vars with
  | nil => simp [writeAll]
  | cons entry rest ih =>
    have hrest := ih (sorted_write h entry.1 entry.2)
    rw [null_mem_write h] at hrest
    simpa [writeAll, and_assoc] using hrest

end Members

namespace ThreadConfig

theorem sorted_merge {base : ThreadConfig} (h : (base.vars.getD []).Sorted)
    (overrides : ThreadConfig) : ((base.merge overrides).vars.getD []).Sorted := by
  rcases hvars : overrides.vars with _ | vars
  · simpa [merge, mergeVars, hvars] using h
  · simpa [merge, mergeVars, hvars] using h.merge vars

/-- A configuration gives a variable the value null. -/
def HoldsNull (config : ThreadConfig) : Prop := ∃ name, (name, .null) ∈ config.vars.getD []

theorem HoldsNull.of_merge {base overrides : ThreadConfig} (h : (base.merge overrides).HoldsNull) :
    base.HoldsNull ∨ overrides.HoldsNull := by
  obtain ⟨name, hname⟩ := h
  rcases hvars : overrides.vars with _ | vars
  · left
    refine ⟨name, ?_⟩
    simpa [merge, mergeVars, hvars] using hname
  · have hmerge : (name, .null) ∈ (base.vars.getD []).merge vars := by
      simpa [merge, mergeVars, hvars] using hname
    rcases Dictionary.mem_of_mem_merge hmerge with hbase | hover
    · exact .inl ⟨name, hbase⟩
    · exact .inr ⟨name, by simpa [hvars] using hover⟩

theorem not_holdsNull_empty : ¬ empty.HoldsNull := by simp [HoldsNull, empty]

end ThreadConfig

namespace ThreadState

theorem vars_setVar {t : ThreadState} (h : t.phase ≠ .destroyed) (name : String) (value : Json) :
    (t.setVar name value).vars = Members.write t.vars name value := by
  simp only [setVar, if_neg h, Members.write]
  split <;> rfl

end ThreadState

namespace Machine

variable {plugins : Plugins σ} {m m' : Machine σ} {event : Event σ} {id : ThreadId}
  {t t' : ThreadState} {host : σ} {config : CoreConfig} {stages : List (Stage σ)}

/-! ## What was written, and what was configured -/

/-- What is written to a variable of a thread. -/
def Event.writes? (id : ThreadId) (event : Event σ) : Option (String × Json) :=
  match event.asks? with
  | some (.setVar other name value) => if other = id then some (name, value) else none
  | _ => none

/-- The configuration that a request comes with: new defaults, or what a thread has of its own. -/
def Event.configures? (event : Event σ) : Option ThreadConfig :=
  match event.asks? with
  | some (.core (.configure config)) => some config
  | some (.core (.createThread overrides)) => overrides
  | _ => none

/-- All that was written to the variables of a thread, in its order. -/
def writes (id : ThreadId) (stages : List (Stage σ)) : List (String × Json) :=
  stages.filterMap fun s => s.event.writes? id

/-- A step creates a thread that starts with these variables. -/
structure Stage.Founds (id : ThreadId) (s : Stage σ) (initial : Members) : Prop where
  fresh : s.before.engine.thread? id = none
  there : s.after.engine.thread? id ≠ none
  configured : ∃ overrides, s.event.asks? = some (.core (.createThread overrides)) ∧
    initial = (s.before.engine.defaults.merge (overrides.getD .empty)).vars.getD []

/-- No null was configured, neither at the start nor by a request. -/
def NullFree (config : CoreConfig) (stages : List (Stage σ)) : Prop :=
  ¬ config.thread.HoldsNull ∧
    ∀ s ∈ stages, ∀ laid, s.event.configures? = some laid → ¬ laid.HoldsNull

/-! ## The variables of a thread -/

/-- What a step does to the variables of a thread that is not gone afterwards: it writes to one of
them, or leaves them alone. -/
theorem Step.vars (h : Step plugins m event m') (hn : m.engine.Numbered)
    (ht : m.engine.thread? id = some t) (ht' : m'.engine.thread? id = some t')
    (hphase' : t'.phase ≠ .destroyed) :
    t.phase ≠ .destroyed ∧ t'.vars = Members.writeAll t.vars (event.writes? id).toList := by
  obtain ⟨s, hs, haffects⟩ := h.affects hn ht
  cases hs.symm.trans ht'
  have hphase : t.phase ≠ .destroyed := by
    intro hgone
    cases h.ages hn id with
    | same hends hclears hsame =>
      rw [Engine.phase?_eq ht, Engine.phase?_eq ht', hgone] at hsame
      exact hphase' (Option.some.inj hsame)
    | born hbefore => simp [Engine.phase?_eq ht] at hbefore
    | ending hends =>
      have hrunning := (Event.ends?_eq_some_iff.1 hends).2
      simp [Engine.phase?_eq ht, hgone] at hrunning
    | cleared hclears hafter =>
      rw [Engine.phase?_eq ht'] at hafter
      exact hphase' (Option.some.inj hafter)
  refine ⟨hphase, ?_⟩
  by_cases hwrites : ∃ name value, event.asks? = some (.setVar id name value)
  · obtain ⟨name, value, hasks⟩ := hwrites
    have hmove : event.moveOf id t = .assigned name value := by
      simp [Event.moveOf_of_asks hasks, Query.moveOf]
    rw [hmove] at haffects
    cases haffects with
    | assigned hagree =>
      rw [← hagree.vars, ThreadState.vars_setVar hphase]
      simp [Event.writes?, hasks, Members.writeAll]
  · -- nothing is written to this thread, and the other moves leave its variables alone
    have hnone : event.writes? id = none := by
      unfold Event.writes?
      split
      next other name value hasks =>
        refine if_neg ?_
        rintro rfl
        exact hwrites ⟨name, value, hasks⟩
      next => rfl
    rw [hnone]
    show t'.vars = t.vars
    revert haffects
    generalize event.moveOf id t = move
    intro haffects
    cases haffects with
    | still hagree => exact hagree.vars.symm
    | assigned hagree hasks => exact absurd ⟨_, _, hasks⟩ hwrites
    | resumed hprep hagree => exact (hprep.kin_run.vars.trans hagree.vars).symm
    | executed hprep hagree => exact (hprep.kin_run.vars.trans hagree.vars).symm
    | completed hid hprep hagree => exact (hprep.kin_run.vars.trans hagree.vars).symm
    | failed hid hcurrent hagree => exact hagree.vars.symm
    | destroying hrunning hagree => exact hagree.vars.symm
    | cleared hagree => exact absurd hagree.phase.symm hphase'

theorem writes_snoc (id : ThreadId) (stages : List (Stage σ)) (s : Stage σ) :
    writes id (stages ++ [s]) = writes id stages ++ (s.event.writes? id).toList :=
  filterMap_snoc _ _ _

/-- As long as a thread is not gone, it holds what it was created with, and all that was written to
it since lies over that. -/
theorem Run.store (h : Run plugins (opened host config) stages m)
    (ht : m.engine.thread? id = some t) :
    ∃ earlier s later initial, stages = earlier ++ s :: later ∧ s.Founds id initial ∧
      (t.phase ≠ .destroyed → t.vars = Members.writeAll initial (writes id later)) := by
  induction h generalizing t with
  | start => simp [opened, Engine.new, Engine.thread?] at ht
  | @step stages m m' event hrun hstep ih =>
    have hn := hrun.invariant.numbered
    rcases hbefore : m.engine.thread? id with _ | r
    · obtain ⟨overrides, program, services, hcreates⟩ := hstep.creates hn hbefore ht
      refine ⟨stages, ⟨m, event, m'⟩, [], _, rfl, ⟨hbefore, ?_, overrides, hcreates.asks, rfl⟩, ?_⟩
      · simp [ht]
      · intro _
        obtain ⟨start, -, -, rfl⟩ := ThreadState.create_eq_ok hcreates.create
        rfl
    · obtain ⟨earlier, s, later, initial, rfl, hfounds, hvars⟩ := ih hbefore
      refine ⟨earlier, s, later ++ [⟨m, event, m'⟩], initial, by simp, hfounds, ?_⟩
      intro hphase
      obtain ⟨hthere, hwritten⟩ := hstep.vars hn hbefore ht hphase
      rw [writes_snoc, Members.writeAll_append, ← hvars hthere]
      exact hwritten

/-! ## The defaults -/

/-- Only a configuration that is granted changes the defaults, and it is laid over them. -/
theorem Step.defaults (h : Step plugins m event m') (hn : m.engine.Numbered) :
    m'.engine.defaults = m.engine.defaults ∨
      ∃ laid, event.asks? = some (.core (.configure laid)) ∧
        m'.engine.defaults = m.engine.defaults.merge laid := by
  rcases h.asked_or_steady hn with ⟨query, todo, hasks, hanswered⟩ | ⟨-, hsteady⟩
  · obtain ⟨e', stack'⟩ := m'
    cases hanswered with
    | kept hkeeps => exact .inl hkeeps.defaults.symm
    | assigned ht => exact .inl rfl
    | executed hquery ht hprep hkeeps => exact .inl hkeeps.defaults.symm
    | created hasked hprogram hvalid hkeeps => exact .inl hkeeps.defaults.symm
    | vetted hprogram hvalid hkeeps => exact .inl hkeeps.defaults.symm
    | registered hregister hkeeps => exact .inl hkeeps.defaults.symm
    | configured hvalid hkeeps => exact .inr ⟨_, hasks, hkeeps.defaults.symm⟩
  · exact .inl hsteady.defaults.symm

theorem Run.sorted_defaults (h : Run plugins (opened host config) stages m)
    (hsorted : (config.thread.vars.getD []).Sorted) : (m.engine.defaults.vars.getD []).Sorted := by
  induction h with
  | start => exact hsorted
  | step hrun hstep ih =>
    rcases hstep.defaults hrun.invariant.numbered with hsame | ⟨laid, -, hlaid⟩
    · rwa [hsame]
    · rw [hlaid]
      exact ThreadConfig.sorted_merge ih laid

/-- A null in the defaults was configured. -/
theorem Run.null_free_defaults (h : Run plugins (opened host config) stages m)
    (hfree : NullFree config stages) : ¬ m.engine.defaults.HoldsNull := by
  induction h with
  | start => exact hfree.1
  | @step stages m m' event hrun hstep ih =>
    have hbefore := ih ⟨hfree.1, fun s hs => hfree.2 s (List.mem_append_left _ hs)⟩
    rcases hstep.defaults hrun.invariant.numbered with hsame | ⟨laid, hasks, hlaid⟩
    · rwa [hsame]
    · have hconfigures : event.configures? = some laid := by simp [Event.configures?, hasks]
      have hnone := hfree.2 ⟨m, event, m'⟩ (by simp) laid hconfigures
      rw [hlaid]
      intro hnull
      rcases hnull.of_merge with hnull | hnull
      · exact hbefore hnull
      · exact hnone hnull

theorem Stage.Founds.sorted {s : Stage σ} {initial : Members} (h : s.Founds id initial)
    {earlier : List (Stage σ)} (hrun : Run plugins (opened host config) earlier s.before)
    (hsorted : (config.thread.vars.getD []).Sorted) : initial.Sorted := by
  obtain ⟨overrides, -, rfl⟩ := h.configured
  exact ThreadConfig.sorted_merge (hrun.sorted_defaults hsorted) _

/-- A thread starts without a null when none was configured. -/
theorem Stage.Founds.null_free {s : Stage σ} {initial : Members} (h : s.Founds id initial)
    {earlier : List (Stage σ)} (hrun : Run plugins (opened host config) earlier s.before)
    (hfree : NullFree config (earlier ++ [s])) (name : String) : (name, .null) ∉ initial := by
  obtain ⟨overrides, hasks, rfl⟩ := h.configured
  have hdefaults := hrun.null_free_defaults
    ⟨hfree.1, fun r hr => hfree.2 r (List.mem_append_left _ hr)⟩
  intro hnull
  rcases ThreadConfig.HoldsNull.of_merge ⟨name, hnull⟩ with hnull | hnull
  · exact hdefaults hnull
  · rcases overrides with _ | overrides
    · exact ThreadConfig.not_holdsNull_empty hnull
    · have hconfigures : s.event.configures? = some overrides := by
        simp [Event.configures?, hasks]
      exact hfree.2 s (by simp) overrides hconfigures hnull

/-! ## Nulls -/

/-- Without a null among its variables, a thread reads null just where it has no variable. -/
theorem getVar_eq_null_iff (hnull : ∀ name, (name, .null) ∉ t.vars) (name : String) :
    t.getVar name = .null ↔ name ∉ t.vars.keys := by
  rw [← Dictionary.find?_eq_none]
  rcases hfind : t.vars.find? name with _ | value
  · simp [ThreadState.getVar, hfind]
  · have hne : value ≠ .null := by
      rintro rfl
      exact hnull name (Dictionary.mem_of_find? hfind)
    simpa [ThreadState.getVar, hfind] using hne

/-- A null among the variables of a thread was configured, for this thread or for all, and nobody
has written to that variable since. Without a null in a configuration no thread ever holds one,
whatever scripts, services and outside callers write. -/
theorem Run.null_of_configuration (h : Run plugins (opened host config) stages m)
    (hsorted : (config.thread.vars.getD []).Sorted) (ht : m.engine.thread? id = some t) :
    (∃ earlier s later initial, stages = earlier ++ s :: later ∧ s.Founds id initial ∧
      ∀ name, (name, .null) ∈ t.vars ↔
        t.phase ≠ .destroyed ∧ (name, .null) ∈ initial ∧
          ∀ entry ∈ writes id later, entry.1 ≠ name) ∧
      (NullFree config stages → ∀ name,
        (name, .null) ∉ t.vars ∧ (t.getVar name = .null ↔ name ∉ t.vars.keys)) := by
  obtain ⟨earlier, s, later, initial, hstages, hfounds, hvars⟩ := h.store ht
  obtain ⟨hearlier, -⟩ := h.reached hstages
  have hinitial := hfounds.sorted hearlier hsorted
  have hnulls : ∀ name, (name, .null) ∈ t.vars ↔
      t.phase ≠ .destroyed ∧ (name, .null) ∈ initial ∧
        ∀ entry ∈ writes id later, entry.1 ≠ name := by
    intro name
    by_cases hphase : t.phase = .destroyed
    · simp [(h.bare ht hphase).2.1, hphase]
    · rw [hvars hphase, Members.null_mem_writeAll hinitial]
      simp [hphase]
  refine ⟨⟨earlier, s, later, initial, hstages, hfounds, hnulls⟩, ?_⟩
  intro hfree name
  have hstart : NullFree config (earlier ++ [s]) := by
    refine ⟨hfree.1, fun r hr => hfree.2 r ?_⟩
    rw [hstages]
    simp only [List.mem_append, List.mem_cons, List.not_mem_nil, or_false] at hr ⊢
    exact hr.imp_right .inl
  have hnone : ∀ other, (other, .null) ∉ t.vars := fun other hnull =>
    hfounds.null_free hearlier hstart other ((hnulls other).1 hnull).2.1
  exact ⟨hnone name, getVar_eq_null_iff hnone name⟩

/-! ## A null that stays -/

/-- The settings for threads that start with two nulls. -/
def blankConfig : CoreConfig :=
  ⟨{ sampleConfig.thread with vars := some [("x", .null), ("y", .null)] }⟩

/-- An engine with one script and one thread, right after the thread is created. -/
def founded (config : CoreConfig) : Machine Unit :=
  let registered := ((opened () config).ask (.core (.registerScript "a" ⟨"a", some [], "a"⟩))).2
  (registered.ask (.core (.createThread none))).2

/-- The steps to this engine. -/
def foundedStages (config : CoreConfig) : List (Stage Unit) :=
  let register : Query := .core (.registerScript "a" ⟨"a", some [], "a"⟩)
  [⟨opened () config, .ask register, ((opened () config).ask register).2⟩,
    ⟨((opened () config).ask register).2, .ask (.core (.createThread none)), founded config⟩]

theorem run_founded (config : CoreConfig) :
    Run idlePlugins (opened () config) (foundedStages config) (founded config) :=
  ((Run.start : Run idlePlugins (opened () config) [] _).step (.ask _)).step (.ask _)

/-- The thread with two nulls, after a null was written to one of the variables. -/
def blank : Machine Unit :=
  (((founded blankConfig).drain idlePlugins 2).ask (.setVar 0 "y" .null)).2

/-- The null that was written is not there, and the one that nobody wrote to is. Where no null is
configured, there is none. -/
theorem Run.null_of_configuration_blank :
    (∃ stages t, Run idlePlugins (opened () blankConfig) stages blank ∧
      blank.engine.thread? 0 = some t ∧ t.vars = [("x", .null)] ∧
      ∃ earlier s later initial, stages = earlier ++ s :: later ∧ s.Founds 0 initial ∧
        ("x", .null) ∈ initial ∧ ∀ entry ∈ writes 0 later, entry.1 ≠ "x") ∧
      ∃ t, (founded sampleConfig).engine.thread? 0 = some t ∧
        NullFree sampleConfig (foundedStages sampleConfig) ∧ ("x", .null) ∉ t.vars := by
  constructor
  · obtain ⟨more, hdrained⟩ := (run_founded blankConfig).drain 2
    have hrun := hdrained.ask rfl (.setVar 0 "y" .null)
    have hsorted : (blankConfig.thread.vars.getD []).Sorted := by
      unfold Dictionary.Sorted
      decide
    have hthere : blank.engine.thread? 0 = some _ := rfl
    obtain ⟨⟨earlier, s, later, initial, hstages, hfounds, hnulls⟩, -⟩ :=
      Run.null_of_configuration hrun hsorted hthere
    have hnull := (hnulls "x").1 (by decide)
    exact ⟨_, _, hrun, hthere, rfl, earlier, s, later, initial, hstages, hfounds, hnull.2⟩
  · have hsorted : (sampleConfig.thread.vars.getD []).Sorted := .nil
    have hfree : NullFree sampleConfig (foundedStages sampleConfig) := by
      refine ⟨ThreadConfig.not_holdsNull_empty, ?_⟩
      simp [foundedStages, Event.configures?, Event.asks?]
    have hthere : (founded sampleConfig).engine.thread? 0 = some _ := rfl
    obtain ⟨-, hnone⟩ := Run.null_of_configuration (run_founded sampleConfig) hsorted hthere
    exact ⟨_, hthere, hfree, (hnone hfree "x").1⟩

/-- A thread may well hold a null. -/
theorem not_variables_null_free :
    ¬ ∀ (plugins : Plugins Unit) (config : CoreConfig) (stages : List (Stage Unit))
      (m : Machine Unit) (id : ThreadId) (t : ThreadState),
      Run plugins (opened () config) stages m → m.engine.thread? id = some t →
        ∀ name, (name, .null) ∉ t.vars := by
  intro hclaim
  have hnone := hclaim idlePlugins blankConfig _ _ 0 _ (run_founded blankConfig) rfl "x"
  exact hnone (by decide)

end Machine
end SentenceEngine
