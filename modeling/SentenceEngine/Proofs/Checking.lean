import SentenceEngine.Proofs.Remaining
import SentenceEngine.Validation.Pass

/-!
# What passes a validation

Each function of the validator read as a rule: what is known of its arguments once it has succeeded.
A step of a pass succeeds in some state or other; where it stands in the pass is of no account here,
so nothing is said about labels.

* `Check.Passes`: a step succeeds in some state.
* `Check.checkFields_passes`: the fields of an instruction, or of an object.
* `Check.check_object_passes` and the like: one value, by the kind of the node.
* `Check.analyze_passes`: all instructions of a program are checked.
-/

namespace SentenceEngine

namespace Check

/-- A step succeeds in some state of a pass. -/
def Passes (step : Check Unit) : Prop := ∃ before after, step before = (.ok (), after)

theorem bind_ok {α β : Type} {step : Check α} {next : α → Check β} {before after : Pass} {b : β}
    (h : (step >>= next) before = (.ok b, after)) :
    ∃ a middle, step before = (.ok a, middle) ∧ next a middle = (.ok b, after) := by
  rcases hstep : step before with ⟨error | a, middle⟩
  · -- an error of the first step is the error of both
    have herror : (step >>= next) before = (.error error, middle) := by
      simp only [bind, ExceptT.bind, ExceptT.mk, ExceptT.bindCont, StateT.bind]
      rw [show step before = (.error error, middle) from hstep]
      rfl
    rw [herror] at h
    cases h
  · refine ⟨a, middle, rfl, ?_⟩
    have hnext : (step >>= next) before = next a middle := by
      simp only [bind, ExceptT.bind, ExceptT.mk, ExceptT.bindCont, StateT.bind]
      rw [show step before = (.ok a, middle) from hstep]
    rw [← hnext]
    exact h

/-- Both parts of a sequence of steps succeed. -/
theorem Passes.andThen {step : Check Unit} {next : Unit → Check Unit}
    (h : Passes (step >>= next)) : Passes step ∧ Passes (next ()) := by
  obtain ⟨before, after, h⟩ := h
  obtain ⟨a, middle, hstep, hnext⟩ := bind_ok h
  exact ⟨⟨before, middle, hstep⟩, ⟨middle, after, hnext⟩⟩

theorem not_passes_fail {handler : String} {path : Path} {violation : Violation} :
    ¬ Passes (fail handler path violation) := by
  rintro ⟨before, after, h⟩
  cases h

theorem checkFields_passes {check : Checker} {handler : String} {path : Path} {members : Members}
    {fields : List (String × Schema)} (h : Passes (checkFields check handler path members fields)) :
    ∀ key schema, (key, schema) ∈ fields →
      match members.find? key with
      | some value => Passes (check schema (path.field key) value)
      | none => schema.isOptional = true := by
  induction fields with
  | nil => simp
  | cons field rest ih =>
    obtain ⟨key, schema⟩ := field
    simp only [checkFields] at h
    -- both parts look at the same three cases: the field is there, is optional, or is missing
    have hfirst : match members.find? key with
        | some value => Passes (check schema (path.field key) value)
        | none => schema.isOptional = true := by
      rcases hfind : members.find? key with _ | value
      · simp only [hfind] at h ⊢
        cases hopt : schema.isOptional with
        | true => rfl
        | false =>
          simp only [hopt, Bool.false_eq_true, if_false] at h
          exact absurd h.andThen.1 not_passes_fail
      · simp only [hfind] at h ⊢
        exact h.andThen.1
    have hrest : Passes (checkFields check handler path members rest) := by
      rcases hfind : members.find? key with _ | value
      · simp only [hfind] at h
        cases hopt : schema.isOptional with
        | true => simpa only [hopt, if_true] using h
        | false =>
          simp only [hopt, Bool.false_eq_true, if_false] at h
          exact h.andThen.2
      · simp only [hfind] at h
        exact h.andThen.2
    intro key' schema' hmem
    rcases List.mem_cons.1 hmem with heq | hmem
    · cases heq
      exact hfirst
    · exact ih hrest key' schema' hmem

/-- A program is checked instruction by instruction. -/
theorem analyzeItems_passes {instruction : Path → Instruction → Check Unit} {path : Path}
    {position : Nat} {items : List Sentence}
    (h : Passes (analyzeItems instruction path position items)) :
    ∀ i ∈ Sequence.instructions items, ∃ path, Passes (instruction path i) := by
  fun_induction analyzeItems instruction path position items with
  | case1 => simp [Sequence.instructions]
  | case2 path position text rest ih =>
    simpa [Sequence.instructions, Sentence.instructions] using ih h
  | case3 path position i rest ih =>
    simp only [Sequence.instructions, Sentence.instructions, List.singleton_append, List.mem_cons,
      forall_eq_or_imp]
    exact ⟨⟨_, h.andThen.1⟩, ih h.andThen.2⟩
  | case4 path position items rest ihItems ihRest =>
    -- a nested sequence opens a scope before its items and the rest are checked
    obtain ⟨-, hmore⟩ := h.andThen
    obtain ⟨hitems, hrest⟩ := hmore.andThen
    simp only [Sequence.instructions, Sentence.instructions, List.mem_append]
    rintro i (hi | hi)
    · exact ihItems hitems i hi
    · exact ihRest hrest i hi

theorem analyze_passes {instruction : Path → Instruction → Check Unit} {path : Path}
    {sentence : Sentence} (h : Passes (analyze instruction path sentence)) :
    ∀ i ∈ sentence.instructions, ∃ path, Passes (instruction path i) := by
  cases sentence with
  | label text => simp [Sentence.instructions]
  | instruction i =>
    simp only [Sentence.instructions, List.mem_singleton, forall_eq]
    exact ⟨path, h⟩
  | sequence items => exact analyzeItems_passes h.andThen.2

/-- An instruction has a registered script, and its parameters fit the fields of the script. -/
theorem checkInstruction_passes {lookup : SchemaLookup} {nesting : Nat} {path : Path}
    {i : Instruction} (h : Passes (checkInstruction lookup nesting path i)) :
    ∃ deeper fields, nesting = deeper + 1 ∧ lookup i.handler = some fields ∧
      Passes (checkFields (check (analyze (checkInstruction lookup deeper)) i.handler
        maxSchemaDepth []) i.handler path i.params fields) := by
  cases nesting with
  | zero => exact absurd h not_passes_fail
  | succ deeper =>
    unfold checkInstruction at h
    rcases hlookup : lookup i.handler with _ | fields
    · simp only [hlookup] at h
      exact absurd h not_passes_fail
    · simp only [hlookup] at h
      exact ⟨deeper, fields, rfl, rfl, h⟩

theorem checkItems_passes {check : Path → Json → Check Unit} {path : Path} {position : Nat}
    {items : List Json} (h : Passes (checkItems check path position items)) :
    ∀ item ∈ items, ∃ path, Passes (check path item) := by
  induction items generalizing position with
  | nil => simp
  | cons first rest ih =>
    obtain ⟨hfirst, hrest⟩ := h.andThen
    intro item hitem
    rcases List.mem_cons.1 hitem with rfl | hmem
    · exact ⟨_, hfirst⟩
    · exact ih hrest item hmem

theorem succeeds_true {step : Check Unit} {before after : Pass}
    (h : succeeds step before = (.ok true, after)) : Passes step := by
  unfold succeeds at h
  rcases hstep : step before with ⟨error | done, middle⟩
  · rw [hstep] at h
    cases h
  · exact ⟨before, middle, hstep⟩

theorem someCandidate_true {check : Schema → Check Unit} {candidates : List Schema}
    {before after : Pass} (h : someCandidate check candidates before = (.ok true, after)) :
    ∃ candidate ∈ candidates, Passes (check candidate) := by
  induction candidates generalizing before with
  | nil => cases h
  | cons candidate rest ih =>
    obtain ⟨found, middle, hfirst, hnext⟩ := bind_ok h
    cases found with
    | true => exact ⟨candidate, List.mem_cons_self, succeeds_true hfirst⟩
    | false =>
      obtain ⟨other, hother, hpasses⟩ := ih hnext
      exact ⟨other, List.mem_cons_of_mem _ hother, hpasses⟩

/-! ## Values

What a value is that matches a node, by the kind of the node. -/

section Values

variable {analyze : Path → Sentence → Check Unit} {handler : String} {depth : Nat}
  {enclosing : List Schema} {schema : Schema} {path : Path} {value : Json}

/-- A match needs at least one more level. -/
theorem depth_pos_of_passes (h : Passes (check analyze handler depth enclosing schema path value)) :
    ∃ deeper, depth = deeper + 1 := by
  cases depth with
  | zero => exact absurd h not_passes_fail
  | succ deeper => exact ⟨deeper, rfl⟩

theorem check_string_passes {minLength maxLength : Option Nat} {labelReference : Bool}
    (hkind : schema.kind = .string minLength maxLength labelReference)
    (h : Passes (check analyze handler (depth + 1) enclosing schema path value)) :
    ∃ text, value = .string text := by
  simp only [check, hkind] at h
  cases value with
  | string text => exact ⟨text, rfl⟩
  | _ => exact absurd h not_passes_fail

theorem check_array_passes {content : Schema} (hkind : schema.kind = .array content)
    (h : Passes (check analyze handler (depth + 1) enclosing schema path value)) :
    ∃ items, value = .array items ∧ ∀ item ∈ items, ∃ path,
      Passes (check analyze handler depth (schema :: enclosing) content path item) := by
  simp only [check, hkind] at h
  cases value with
  | array items => exact ⟨items, rfl, checkItems_passes h⟩
  | _ => exact absurd h not_passes_fail

theorem check_object_passes {fields : Fields} {rest : Option Schema} {dynamicKeys : Bool}
    (hkind : schema.kind = .object fields rest dynamicKeys)
    (h : Passes (check analyze handler (depth + 1) enclosing schema path value)) :
    ∃ members, value = .object members ∧
      Passes (checkFields (check analyze handler depth (schema :: enclosing)) handler path members
        fields) := by
  simp only [check, hkind] at h
  cases value with
  | object members => exact ⟨members, rfl, h.andThen.1⟩
  | _ => exact absurd h not_passes_fail

theorem check_alternatives_passes {candidates : List Schema}
    (hkind : schema.kind = .alternatives candidates) (hne : candidates ≠ [])
    (h : Passes (check analyze handler (depth + 1) enclosing schema path value)) :
    ∃ candidate ∈ candidates,
      Passes (check analyze handler depth (schema :: enclosing) candidate path value) := by
  have hsome : (!candidates.isEmpty) = true := by simpa using hne
  simp only [check, hkind, hsome, if_true] at h
  obtain ⟨before, after, h⟩ := h
  obtain ⟨found, middle, hfound, hnext⟩ := bind_ok h
  cases found with
  | true => exact someCandidate_true hfound
  | false => exact absurd ⟨middle, after, hnext⟩ not_passes_fail

theorem check_reference_passes {target : String} {found : Schema}
    (hkind : schema.kind = .reference target)
    (hfound : enclosing.find? (·.name? == some target) = some found)
    (h : Passes (check analyze handler (depth + 1) enclosing schema path value)) :
    Passes (check analyze handler depth (schema :: enclosing) found path value) := by
  simpa only [check, hkind, hfound] using h

/-- A program in a field is a program that is checked. -/
theorem check_sentences_passes (hkind : schema.kind = .sentences)
    (h : Passes (check analyze handler (depth + 1) enclosing schema path value)) :
    ∃ sentence, Sentence.ofJson value = .ok sentence ∧ Passes (analyze path sentence) := by
  simp only [check, hkind] at h
  rcases hparse : Sentence.ofJson value with error | sentence
  · simp only [hparse] at h
    exact absurd h not_passes_fail
  · simp only [hparse] at h
    exact ⟨sentence, rfl, h⟩

end Values

end Check
end SentenceEngine
