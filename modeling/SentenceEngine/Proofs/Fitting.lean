import SentenceEngine.Proofs.Coverage
import SentenceEngine.Proofs.Interpreter
import SentenceEngine.Proofs.Tidiness

/-!
# Payloads that the built-in scripts can work with

What a validation accepts of an instruction for `log`, `set` or `if`, the script can read, and
evaluating an accepted condition never fails. Three independent descriptions meet here: the schemas,
the readers of the payloads, and the evaluator of conditions.

A validation looks fields up by their names, while an evaluation visits every member of an object.
They see the same members because no key occurs twice in an object.

* `Condition.evaluates_of_passes`: conditions that pass a validation.
* `Instruction.Fits`: instructions that the built-in scripts can work with, and all under them.
-/

namespace SentenceEngine

/-! ## Conditions -/

namespace Condition

/-- An evaluation that does not fail. -/
def Evaluation.IsOk (evaluation : Evaluation) : Prop := ∃ holds, evaluation.result = .ok holds

theorem Evaluation.isOk_orNext {mode : Mode} {entry : Evaluation} {next : Unit → Evaluation}
    (hentry : entry.IsOk) (hnext : (next ()).IsOk) : (entry.orNext mode next).IsOk := by
  obtain ⟨holds, hholds⟩ := hentry
  obtain ⟨after, hafter⟩ := hnext
  unfold orNext
  rw [hholds]
  dsimp only
  split
  · exact ⟨holds, hholds⟩
  · exact ⟨after, hafter⟩

/-- A value is an object, and its members can be evaluated as a condition. -/
def Evaluates (value : Json) : Prop :=
  ∃ members, value = .object members ∧
    ∀ lookup mode, (evaluateMembers lookup mode members).IsOk

/-- The members of a condition: what stands under `@and` and `@or` is a condition or a list of
conditions. -/
theorem isOk_evaluateMembers {members : Members}
    (hgroups : ∀ mode : Mode, ∀ value, (mode.key, value) ∈ members →
      Evaluates value ∨ ∃ items, value = .array items ∧ ∀ item ∈ items, Evaluates item)
    (lookup : String → Json) (mode : Mode) : (evaluateMembers lookup mode members).IsOk := by
  have isOk_items : ∀ {items : List Json} (mode : Mode), (∀ item ∈ items, Evaluates item) →
      (evaluateItems lookup mode items).IsOk := by
    intro items mode hitems
    induction items with
    | nil => exact ⟨_, rfl⟩
    | cons item rest ih =>
      obtain ⟨inner, rfl, hinner⟩ := hitems item List.mem_cons_self
      rw [evaluateItems]
      refine Evaluation.isOk_orNext (hinner lookup .all) (ih ?_)
      intro other hother
      exact hitems other (List.mem_cons_of_mem _ hother)
  have isOk_group : ∀ (group : Mode) (value : Json), (group.key, value) ∈ members →
      (evaluateGroup lookup group value).IsOk := by
    intro group value hmem
    rcases hgroups group value hmem with ⟨inner, rfl, hinner⟩ | ⟨items, rfl, hitems⟩
    · rw [evaluateGroup]
      exact hinner lookup group
    · rw [evaluateGroup]
      exact isOk_items group hitems
  clear hgroups
  induction members with
  | nil => exact ⟨_, rfl⟩
  | cons entry rest ih =>
    obtain ⟨key, expected⟩ := entry
    rw [evaluateMembers]
    refine Evaluation.isOk_orNext ?_ (ih ?_)
    · split
      next hkey =>
        subst hkey
        exact isOk_group .all expected List.mem_cons_self
      next =>
        split
        next hkey =>
          subst hkey
          exact isOk_group .some expected List.mem_cons_self
        next => exact ⟨_, rfl⟩
    · intro group value hmem
      exact isOk_group group value (List.mem_cons_of_mem _ hmem)

section Passing

variable {analyze : Path → Sentence → Check Unit} {handler : String} {path : Path}

/-- A value that passes as a condition can be evaluated. -/
theorem evaluates_of_passes {depth : Nat} {enclosing : List Schema} {value : Json}
    (htidy : value.Tidy)
    (h : Check.Passes (Check.check analyze handler depth enclosing schema path value)) :
    Evaluates value := by
  -- the induction is on the levels that are left; a reference leads back to the same node
  induction depth using Nat.strongRecOn generalizing enclosing path value with
  | ind depth ih =>
    obtain ⟨depth, rfl⟩ := Check.depth_pos_of_passes h
    have hkind : schema.kind = .object [("@and", groupSchema), ("@or", groupSchema)]
      (some valueSchema) true := by rfl
    obtain ⟨members, rfl, hfields⟩ := Check.check_object_passes hkind h
    refine ⟨members, rfl, ?_⟩
    have follow : ∀ {depth' enclosing' path' item}, depth' ≤ depth →
        enclosing'.find? (·.name? == some conditionName) = some schema → Json.Tidy item →
        Check.Passes (Check.check analyze handler depth' enclosing' (.reference conditionName)
          path' item) → Evaluates item := by
      intro depth' enclosing' path' item hle hfound hitem hpasses
      obtain ⟨deeper, rfl⟩ := Check.depth_pos_of_passes hpasses
      have hnode := Check.check_reference_passes rfl hfound hpasses
      exact ih deeper (by omega) hitem hnode
    apply isOk_evaluateMembers
    intro mode value hmem
    -- the evaluator met this member; the validation checked the one that it finds under the key
    cases htidy with
    | object hsorted hmembers =>
      have hvalue : value.Tidy := hmembers _ _ hmem
      have hfield : (mode.key, groupSchema) ∈ [("@and", groupSchema), ("@or", groupSchema)] := by
        cases mode <;> simp [Mode.key]
      have hgroup := Check.checkFields_passes hfields _ _ hfield
      rw [Dictionary.find?_of_mem hsorted hmem] at hgroup
      obtain ⟨depth', rfl⟩ := Check.depth_pos_of_passes hgroup
      have halternatives : groupSchema.kind = .alternatives
        [.array (.reference conditionName), .reference conditionName] := by rfl
      obtain ⟨candidate, hcandidate, hpasses⟩ :=
        Check.check_alternatives_passes halternatives (by simp) hgroup
      simp only [List.mem_cons, List.not_mem_nil, or_false] at hcandidate
      rcases hcandidate with rfl | rfl
      · -- a list of conditions, each one a level further down
        obtain ⟨depth'', rfl⟩ := Check.depth_pos_of_passes hpasses
        obtain ⟨items, rfl, hitems⟩ := Check.check_array_passes rfl hpasses
        refine .inr ⟨items, rfl, ?_⟩
        intro item hitem
        obtain ⟨path', hitem'⟩ := hitems item hitem
        cases hvalue with
        | array hall => exact follow (by omega) rfl (hall item hitem) hitem'
      · exact .inl (follow (by omega) rfl hvalue hpasses)

/-- A condition that passes a validation evaluates without an error. -/
theorem isOk_evaluate {depth : Nat} {enclosing : List Schema} {value : Json} (htidy : value.Tidy)
    (h : Check.Passes (Check.check analyze handler depth enclosing schema path value))
    (lookup : String → Json) : (evaluate lookup value).IsOk := by
  obtain ⟨members, rfl, hmembers⟩ := evaluates_of_passes htidy h
  unfold evaluate
  rw [evaluateGroup]
  exact hmembers lookup .all

end Passing

end Condition

/-! ## Instructions -/

/-- The registered scripts are the built-in ones under their usual names, and no others. -/
def Registry.HoldsBuiltins (registry : Registry) : Prop :=
  ∀ name entry, registry.find? name = some entry ↔
    ∃ factory fields, (name, factory) ∈ Scripts.builtin ∧ factory.fields = some fields ∧
      entry = ⟨factory.origin, fields, factory.script⟩

/-- The built-in scripts by name. -/
theorem Registry.HoldsBuiltins.cases {registry : Registry} (h : registry.HoldsBuiltins)
    {name : String} {entry : ScriptEntry} (hfind : registry.find? name = some entry) :
    entry.script = name ∧
      (name = "log" ∧ entry.fields = Scripts.LogPayload.fields ∨
        name = "set" ∧ entry.fields = Scripts.SetPayload.fields ∨
        name = "if" ∧ entry.fields = Scripts.IfPayload.fields) := by
  obtain ⟨factory, fields, hmem, hfields, rfl⟩ := (h name entry).1 hfind
  simp only [Scripts.builtin, List.mem_cons, Prod.mk.injEq, List.not_mem_nil, or_false] at hmem
  rcases hmem with ⟨rfl, rfl⟩ | ⟨rfl, rfl⟩ | ⟨rfl, rfl⟩
  · cases hfields
    exact ⟨rfl, .inl ⟨rfl, rfl⟩⟩
  · cases hfields
    exact ⟨rfl, .inr (.inl ⟨rfl, rfl⟩)⟩
  · cases hfields
    exact ⟨rfl, .inr (.inr ⟨rfl, rfl⟩)⟩

namespace Instruction

/-- An instruction that the built-in scripts can work with, and so are all that it can bring
about. -/
inductive Fits : Instruction → Prop
  | log {i : Instruction} {message : String} (hname : i.handler = "log")
      (hmessage : i.param? "message" = some (.string message)) : Fits i
  | set {i : Instruction} {entries : Members} (hname : i.handler = "set")
      (hentries : i.param? "variables" = some (.object entries)) : Fits i
  | choose {i : Instruction} {condition body : Json} {program : Sentence} (hname : i.handler = "if")
      (hwhere : i.param? "where" = some condition)
      (hok : ∀ lookup, (Condition.evaluate lookup condition).IsOk)
      (hthen : i.param? "then" = some body) (hprogram : Sentence.ofJson body = .ok program)
      (helse : ∀ value, i.param? "else" = some value →
        ∃ program, Sentence.ofJson value = .ok program)
      (hbranches : ∀ vars program, i.branch? vars = some program →
        ∀ j ∈ program.instructions, Fits j) : Fits i

/-- A field that is not optional is there. -/
theorem exists_of_required {check : Check.Checker} {handler : String} {path : Path}
    {i : Instruction} {fields : Fields}
    (h : Check.Passes (Check.checkFields check handler path i.params fields)) {key : String}
    {schema : Schema} (hmem : (key, schema) ∈ fields) (hrequired : schema.isOptional = false) :
    ∃ value, i.param? key = some value ∧ Check.Passes (check schema (path.field key) value) := by
  have hfield := Check.checkFields_passes h key schema hmem
  rcases hfind : i.params.find? key with _ | value
  · rw [hfind] at hfield
    cases hrequired.symm.trans hfield
  · rw [hfind] at hfield
    exact ⟨value, hfind, hfield⟩

/-- An instruction that passes a validation against built-in scripts fits. -/
theorem fits_of_passes {registry earlier : Registry} (hbuiltin : registry.HoldsBuiltins)
    (hext : earlier.Extends registry) {nesting : Nat} {path : Path} {i : Instruction}
    (htidy : Json.Tidy (.object i.params))
    (h : Check.Passes (Check.checkInstruction earlier.fields? nesting path i)) : i.Fits := by
  -- the induction is on the bound of the nesting of instructions in parameters
  induction nesting generalizing path i with
  | zero => exact absurd h Check.not_passes_fail
  | succ nesting ih =>
    obtain ⟨deeper, fields, hnesting, hlookup, hfields⟩ := Check.checkInstruction_passes h
    cases hnesting
    obtain ⟨entry, hfind, rfl⟩ := Registry.fields?_eq_some hlookup
    obtain ⟨-, ⟨hname, hentry⟩ | ⟨hname, hentry⟩ | ⟨hname, hentry⟩⟩ :=
      hbuiltin.cases (hext _ _ hfind)
    · rw [hentry] at hfields
      obtain ⟨value, hvalue, hpasses⟩ :=
        exists_of_required hfields (List.mem_singleton.2 rfl) rfl
      obtain ⟨text, rfl⟩ := Check.check_string_passes rfl hpasses
      exact .log hname hvalue
    · rw [hentry] at hfields
      obtain ⟨value, hvalue, hpasses⟩ :=
        exists_of_required hfields (List.mem_singleton.2 rfl) rfl
      obtain ⟨members, rfl, -⟩ := Check.check_object_passes rfl hpasses
      exact .set hname hvalue
    · have hshape : Scripts.IfPayload.fields = [("else", Schema.sentences.asOptional),
        ("then", .sentences), ("where", Condition.schema)] := by rfl
      rw [hentry, hshape] at hfields
      have hlast : ("where", Condition.schema) ∈ [("else", Schema.sentences.asOptional),
        ("then", .sentences), ("where", Condition.schema)] := by simp
      have hsecond : ("then", Schema.sentences) ∈ [("else", Schema.sentences.asOptional),
        ("then", .sentences), ("where", Condition.schema)] := by simp
      obtain ⟨condition, hwhere, hcondition⟩ := exists_of_required hfields hlast rfl
      obtain ⟨body, hthen, hbody⟩ := exists_of_required hfields hsecond rfl
      -- both branches are programs that the validation goes through in the same way
      have fits : ∀ {path value program}, value.Tidy →
          (∃ sentence, Sentence.ofJson value = .ok sentence ∧ Check.Passes
            (Check.analyze (Check.checkInstruction earlier.fields? nesting) path sentence)) →
          Sentence.ofJson value = .ok program → ∀ j ∈ program.instructions, Fits j := by
        intro path value program hvalue hsentence hprogram j hj
        obtain ⟨sentence, hparse, hanalyzed⟩ := hsentence
        cases hparse.symm.trans hprogram
        obtain ⟨path', hpassed⟩ := Check.analyze_passes hanalyzed j hj
        exact ih (Sentence.tidy_ofJson hvalue hparse j hj) hpassed
      have hfound := Check.check_sentences_passes rfl hbody
      obtain ⟨program, hprogram, -⟩ := hfound
      have optional : ∀ value, i.param? "else" = some value → ∃ path sentence,
          Sentence.ofJson value = .ok sentence ∧ Check.Passes
            (Check.analyze (Check.checkInstruction earlier.fields? nesting) path sentence) := by
        intro value hvalue
        have hfield := Check.checkFields_passes hfields "else" _ List.mem_cons_self
        have hsome : i.params.find? "else" = some value := hvalue
        rw [hsome] at hfield
        exact ⟨_, Check.check_sentences_passes rfl hfield⟩
      refine .choose hname hwhere ?_ hthen hprogram ?_ ?_
      · exact Condition.isOk_evaluate (htidy.find? hwhere) hcondition
      · intro value hvalue
        obtain ⟨path', sentence, hparse, -⟩ := optional value hvalue
        exact ⟨sentence, hparse⟩
      · intro vars chosen hchosen
        obtain ⟨value, hvalue, hparse⟩ := program?_eq_some hchosen
        have hparam : Json.Tidy value := htidy.find? hvalue
        split at hvalue
        · rw [hthen] at hvalue
          cases hvalue
          exact fits hparam (Check.check_sentences_passes rfl hbody) hparse
        · obtain ⟨path', hpassed⟩ := optional value hvalue
          exact fits hparam hpassed hparse

/-- The built-in scripts are registered under the names in instructions that fit. -/
theorem Fits.mem_builtin {i : Instruction} (h : i.Fits) :
    ∃ fields, (i.handler, Scripts.factory i.handler fields) ∈ Scripts.builtin := by
  cases h with
  | log hname =>
    rw [hname]
    exact ⟨_, List.mem_cons_self⟩
  | set hname =>
    rw [hname]
    exact ⟨_, List.mem_cons_of_mem _ List.mem_cons_self⟩
  | choose hname =>
    rw [hname]
    exact ⟨_, List.mem_cons_of_mem _ (List.mem_cons_of_mem _ List.mem_cons_self)⟩

/-- The program that an instruction chooses consists of instructions that fit. -/
theorem Fits.branch {i : Instruction} (h : i.Fits) (hname : i.handler = "if") {vars : Members}
    {program : Sentence} (hbranch : i.branch? vars = some program) :
    ∀ j ∈ Sequence.instructions program.asSequence, j.Fits := by
  rw [Sentence.instructions_asSequence]
  cases h with
  | log hname' => simp [hname] at hname'
  | set hname' => simp [hname] at hname'
  | choose _ _ _ _ _ _ hbranches => exact hbranches vars program hbranch

end Instruction

theorem Registry.HoldsBuiltins.exists_entry {registry : Registry} (h : registry.HoldsBuiltins)
    {i : Instruction} (hfits : i.Fits) : ∃ entry, registry.find? i.handler = some entry := by
  obtain ⟨fields, hmem⟩ := hfits.mem_builtin
  exact ⟨_, (h i.handler _).2 ⟨_, fields, hmem, rfl, rfl⟩⟩

/-- A program that passed a validation, when no other scripts than the built-in ones were
registered, consists of instructions that they can work with. -/
theorem Registry.Approves.fits {registry : Registry} {program : Sentence}
    (h : registry.Approves program) (hbuiltin : registry.HoldsBuiltins) (htidy : program.Tidy) :
    ∀ i ∈ program.instructions, i.Fits := by
  obtain ⟨earlier, hearlier, hpasses⟩ := h
  intro i hi
  obtain ⟨path, hpassed⟩ := Check.analyze_passes hpasses i hi
  exact Instruction.fits_of_passes hbuiltin hearlier (htidy i hi) hpassed

/-! ## Payloads -/

theorem Instruction.payload_eq_ok {α : Type} {i : Instruction}
    {decode : Instruction → Except DecodeError α} {payload : α} (h : decode i = .ok payload) :
    i.payload decode = .ok payload := by
  rw [Instruction.payload, h]
  rfl

theorem Instruction.decodeProgram_eq_ok {value : Json} {program : Sentence}
    (h : Sentence.ofJson value = .ok program) : decodeProgram value = .ok program := by
  rw [decodeProgram, h]
  rfl

namespace Instruction.Fits

variable {i : Instruction}

theorem payload_log (h : i.Fits) (hname : i.handler = "log") :
    i.payload Scripts.LogPayload.decode = .ok ⟨i.message⟩ := by
  apply payload_eq_ok
  cases h with
  | log _ hmessage =>
    simp [Scripts.LogPayload.decode, require, hmessage, message, Json.asString?,
      Json.decodeString, bind, Except.bind]
  | set hname' => simp [hname] at hname'
  | choose hname' => simp [hname] at hname'

theorem payload_set (h : i.Fits) (hname : i.handler = "set") :
    i.payload Scripts.SetPayload.decode = .ok ⟨i.entries⟩ := by
  apply payload_eq_ok
  cases h with
  | log hname' => simp [hname] at hname'
  | set _ hentries =>
    simp [Scripts.SetPayload.decode, require, hentries, entries, Json.decodeMembers, bind,
      Except.bind]
  | choose hname' => simp [hname] at hname'

theorem decodeOption_program {value : Json} {program : Sentence}
    (h : Sentence.ofJson value = .ok program) :
    Json.decodeOption Instruction.decodeProgram value = .ok (some program) := by
  cases value with
  | null => cases h
  | _ => simp [Json.decodeOption, decodeProgram_eq_ok h, Except.map]

/-- The payload of `if` is read, its condition evaluates, and the program that is chosen is the one
that the interpreter takes. -/
theorem payload_if (h : i.Fits) (hname : i.handler = "if") :
    ∃ payload, i.payload Scripts.IfPayload.decode = .ok payload ∧
      ∀ vars, ∃ holds,
        (Condition.evaluate (Members.lookup vars) payload.condition).result = .ok holds ∧
        (if holds then some payload.holds else payload.fails) = i.branch? vars := by
  cases h with
  | log hname' => simp [hname] at hname'
  | set hname' => simp [hname] at hname'
  | @choose _ condition body program _ hwhere hok hthen hprogram helse hbranches =>
    refine ⟨⟨condition, program, i.program? "else"⟩, ?_, ?_⟩
    · apply payload_eq_ok
      unfold Scripts.IfPayload.decode program?
      rcases hvalue : i.param? "else" with _ | value
      · simp [hthen, require, hwhere, decodeProgram_eq_ok hprogram, bind, Except.bind, Except.map]
      · obtain ⟨other, hother⟩ := helse value hvalue
        simp [decodeOption_program hother, hother, hthen, require, hwhere,
          decodeProgram_eq_ok hprogram, bind, Except.bind, Except.map]
    · intro vars
      obtain ⟨holds, hholds⟩ := hok (Members.lookup vars)
      refine ⟨holds, hholds, ?_⟩
      have hsame : i.holds vars = holds := by
        simp [Instruction.holds, hwhere, hholds]
      unfold branch?
      rw [hsame]
      cases holds with
      | true => simp [program?, hthen, hprogram]
      | false => rfl

end Instruction.Fits

end SentenceEngine
