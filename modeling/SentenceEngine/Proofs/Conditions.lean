import SentenceEngine.Proofs.Fitting
import SentenceEngine.Proofs.Unfolding

/-!
# What a condition is

The schema of conditions describes them through themselves, under two names. Here the values that it
accepts are described without schemas: an object whose members are groups under `@and` and `@or` and
expected values elsewhere. What is left of the schema is the number of its nodes that lead to a
value, of which 255 leave room for one more.

* `Condition.WellFormed`, `Condition.IsGroup`, `Condition.IsExpected`: conditions, what stands under
  `@and` or `@or`, and what a variable is compared with.
* `Condition.belongs_iff_wellFormed`: they are the values of the schema.
* `Condition.accepts_where_iff`: the script `if` accepts them, and they evaluate without an error.
-/

namespace SentenceEngine

namespace Condition

open Schema (Belongs)

/-- An expected value below a number of nodes. -/
inductive IsExpected : (nodes : Nat) → Json → Prop
  | list {nodes : Nat} {items : List Json} (hroom : nodes + 1 ≤ 255)
      (hitems : ∀ item ∈ items, IsExpected (nodes + 3) item) : IsExpected nodes (.array items)
  | object {nodes : Nat} {members : Members} (hroom : nodes + 1 ≤ 255)
      (hmembers : ∀ member ∈ members, IsExpected (nodes + 3) member.2) :
      IsExpected nodes (.object members)
  | plain {nodes : Nat} {value : Json} (hroom : nodes + 1 ≤ 255) (hparts : hasParts value = false) :
      IsExpected nodes value

mutual
/-- A condition below a number of nodes. -/
inductive WellFormed : (nodes : Nat) → Json → Prop
  | object {nodes : Nat} {members : Members} (hroom : nodes ≤ 255)
      (hgroups : ∀ (mode : Mode) (value : Json), members.find? mode.key = some value →
        IsGroup nodes value)
      (hothers : ∀ member ∈ members, (∀ mode : Mode, member.1 ≠ mode.key) →
        IsExpected (nodes + 1) member.2) :
      WellFormed nodes (.object members)

/-- A group of a condition below a number of nodes: a list of conditions or one condition. -/
inductive IsGroup : (nodes : Nat) → Json → Prop
  | list {nodes : Nat} {items : List Json} (hroom : nodes + 2 ≤ 255)
      (hitems : ∀ item ∈ items, WellFormed (nodes + 4) item) : IsGroup nodes (.array items)
  | one {nodes : Nat} {value : Json} (h : WellFormed (nodes + 3) value) : IsGroup nodes value
end

theorem IsExpected.room {nodes : Nat} {value : Json} (h : IsExpected nodes value) :
    nodes + 1 ≤ 255 := by
  cases h with
  | list hroom => exact hroom
  | object hroom => exact hroom
  | plain hroom => exact hroom

theorem WellFormed.room {nodes : Nat} {value : Json} (h : WellFormed nodes value) :
    nodes ≤ 255 := by
  cases h with
  | object hroom => exact hroom

/-! ## Levels -/

/-- Of 256 levels, those below a number of nodes are used up by one more node at a time. -/
theorem belongs_below_iff {nodes : Nat} {around : List Schema} {node : Schema} {value : Json} :
    Belongs (256 - nodes) around node value ↔
      nodes ≤ 255 ∧ Belongs (256 - (nodes + 1) + 1) around node value := by
  by_cases hroom : nodes ≤ 255
  · have hlevels : 256 - nodes = 256 - (nodes + 1) + 1 := by omega
    rw [hlevels]
    simp [hroom]
  · have hlevels : 256 - nodes = 0 := by omega
    rw [hlevels]
    simp [hroom, Schema.not_belongs_zero]

theorem belongs_reference_below {nodes : Nat} {around outer : List Schema} {node : Schema}
    {target : String} {value : Json}
    (hbound : Schema.bound? target around = some (node, outer)) :
    Belongs (256 - nodes) around (.reference target) value ↔
      nodes ≤ 255 ∧ Belongs (256 - (nodes + 1)) outer node value := by
  rw [belongs_below_iff, Schema.belongs_reference_iff rfl hbound]

/-! ## Expected values -/

/-- The expected values are the values of their node, which refers to itself inside lists and
objects. -/
theorem belongs_iff_isExpected {nodes : Nat} {value : Json} :
    Belongs (256 - nodes) [schema] valueSchema value ↔ IsExpected nodes value := by
  -- the induction is on the levels that are left below the nodes
  induction hleft : 256 - nodes using Nat.strongRecOn generalizing nodes value with
  | ind levels ih =>
    rw [← hleft, belongs_below_iff, Schema.belongs_alternatives_iff rfl]
    by_cases hroom : nodes ≤ 255
    · -- a part of a list or of an object lies three nodes further down
      have hpart : ∀ (node : Schema) (part : Json), node.name? = none →
          (Belongs (256 - (nodes + 2)) [node, valueSchema, schema] (.reference valueName) part ↔
            IsExpected (nodes + 3) part) := by
        intro node part hname
        have hbound : Schema.bound? valueName [node, valueSchema, schema] =
            some (valueSchema, [schema]) := by
          rw [Schema.bound?, hname]
          rfl
        rw [belongs_reference_below hbound, ih _ (by omega) rfl]
        constructor
        · intro h
          exact h.2
        · intro h
          have := h.room
          exact ⟨by omega, h⟩
      constructor
      · rintro ⟨-, hnone | ⟨candidate, hmem, hcandidate⟩⟩
        · cases hnone
        · rw [belongs_below_iff] at hcandidate
          rcases hcandidate with ⟨hnext, hcandidate⟩
          simp only [List.mem_cons, List.not_mem_nil, or_false] at hmem
          rcases hmem with rfl | rfl | rfl | rfl | rfl | rfl
          · rcases (Schema.belongs_array_iff rfl).1 hcandidate with ⟨items, rfl, hitems⟩
            apply IsExpected.list hnext
            intro item hitem
            exact (hpart _ item rfl).1 (hitems item hitem)
          · rcases (Schema.belongs_object_iff rfl).1 hcandidate with ⟨members, rfl, -, hothers⟩
            apply IsExpected.object hnext
            intro member hmember
            exact (hpart _ member.2 rfl).1 ((hothers member hmember rfl).1 _ rfl)
          · rcases (Schema.belongs_string_iff rfl).1 hcandidate with ⟨text, rfl, -⟩
            exact .plain hnext rfl
          · rcases (Schema.belongs_number_iff rfl).1 hcandidate with ⟨number, rfl, -⟩
            exact .plain hnext rfl
          · rw [(Schema.belongs_null_iff rfl).1 hcandidate]
            exact .plain hnext rfl
          · rcases (Schema.belongs_boolean_iff rfl).1 hcandidate with ⟨truth, rfl⟩
            exact .plain hnext rfl
      · intro h
        refine ⟨hroom, .inr ?_⟩
        cases h with
        | list hnext hitems =>
          refine ⟨.array (.reference valueName), by simp, ?_⟩
          rw [belongs_below_iff]
          refine ⟨hnext, (Schema.belongs_array_iff rfl).2 ⟨_, rfl, ?_⟩⟩
          intro item hitem
          exact (hpart _ item rfl).2 (hitems item hitem)
        | object hnext hmembers =>
          refine ⟨Schema.object.withDynamicKeys.withRest (.reference valueName), by simp, ?_⟩
          rw [belongs_below_iff]
          refine ⟨hnext, (Schema.belongs_object_iff rfl).2 ⟨_, rfl, by simp, ?_⟩⟩
          intro member hmember _
          refine ⟨?_, fun _ => rfl⟩
          rintro other ⟨⟩
          exact (hpart _ member.2 rfl).2 (hmembers member hmember)
        | plain hnext hparts =>
          cases value with
          | array items => cases hparts
          | object members => cases hparts
          | string text =>
            refine ⟨.string, by simp, ?_⟩
            rw [belongs_below_iff]
            exact ⟨hnext, .string rfl (by simp) (by simp)⟩
          | number number =>
            refine ⟨.number, by simp, ?_⟩
            rw [belongs_below_iff]
            exact ⟨hnext, .number rfl (by simp) (by simp)⟩
          | null =>
            refine ⟨.null, by simp, ?_⟩
            rw [belongs_below_iff]
            exact ⟨hnext, .null rfl⟩
          | bool truth =>
            refine ⟨.boolean, by simp, ?_⟩
            rw [belongs_below_iff]
            exact ⟨hnext, .boolean rfl⟩
    · constructor
      · rintro ⟨hle, -⟩
        exact absurd hle hroom
      · intro h
        have := h.room
        omega

/-! ## Conditions -/

theorem schema_kind : schema.kind = .object
    [(Mode.all.key, groupSchema), (Mode.some.key, groupSchema)] (some valueSchema) true := by
  rfl

theorem mem_groupFields_iff {field : String × Schema} :
    field ∈ [(Mode.all.key, groupSchema), (Mode.some.key, groupSchema)] ↔
      ∃ mode : Mode, field = (mode.key, groupSchema) := by
  constructor
  · intro hmem
    simp only [List.mem_cons, List.not_mem_nil, or_false] at hmem
    rcases hmem with heq | heq
    · exact ⟨.all, heq⟩
    · exact ⟨.some, heq⟩
  · rintro ⟨mode, heq⟩
    rw [heq]
    cases mode <;> simp

/-- No group has a key that is not reserved. -/
theorem hasKey_groupFields {key : String} :
    Dictionary.hasKey [(Mode.all.key, groupSchema), (Mode.some.key, groupSchema)] key = false ↔
      ∀ mode : Mode, key ≠ mode.key := by
  have hnone : Dictionary.hasKey [(Mode.all.key, groupSchema), (Mode.some.key, groupSchema)] key =
      false ↔ key ≠ Mode.all.key ∧ key ≠ Mode.some.key := by
    rw [Dictionary.hasKey, Option.isSome_eq_false_iff, Option.isNone_iff_eq_none,
      Dictionary.find?_eq_none]
    simp [Dictionary.keys]
  rw [hnone]
  constructor
  · rintro ⟨hall, hsome⟩ mode
    cases mode with
    | all => exact hall
    | some => exact hsome
  · intro h
    exact ⟨h .all, h .some⟩

/-- The conditions are the values of the schema, which refers to itself inside groups. -/
theorem belongs_iff_wellFormed {nodes : Nat} {value : Json} :
    Belongs (256 - nodes) [] schema value ↔ WellFormed nodes value := by
  induction hleft : 256 - nodes using Nat.strongRecOn generalizing nodes value with
  | ind levels ih =>
    rw [← hleft, belongs_below_iff, Schema.belongs_object_iff schema_kind]
    by_cases hroom : nodes ≤ 255
    · -- a condition inside a group is read where the schema stands
      have hinner : ∀ {deeper : Nat} {around : List Schema} {inner : Json},
          nodes ≤ deeper → Schema.bound? conditionName around = some (schema, []) →
          (Belongs (256 - deeper) around (.reference conditionName) inner ↔
            WellFormed (deeper + 1) inner) := by
        intro deeper around inner hle hbound
        rw [belongs_reference_below hbound, ih _ (by omega) rfl]
        constructor
        · intro h
          exact h.2
        · intro h
          have := h.room
          exact ⟨by omega, h⟩
      have hgroup : ∀ inner : Json,
          Belongs (256 - (nodes + 1)) [schema] groupSchema inner ↔ IsGroup nodes inner := by
        intro inner
        rw [belongs_below_iff, Schema.belongs_alternatives_iff rfl]
        constructor
        · rintro ⟨hnext, hnone | ⟨candidate, hmem, hcandidate⟩⟩
          · cases hnone
          · simp only [List.mem_cons, List.not_mem_nil, or_false] at hmem
            rcases hmem with rfl | rfl
            · rw [belongs_below_iff, Schema.belongs_array_iff rfl] at hcandidate
              rcases hcandidate with ⟨hlist, items, rfl, hitems⟩
              apply IsGroup.list hlist
              intro item hitem
              exact (hinner (by omega) rfl).1 (hitems item hitem)
            · exact .one ((hinner (by omega) rfl).1 hcandidate)
        · intro h
          cases h with
          | list hlist hitems =>
            refine ⟨by omega, .inr ⟨.array (.reference conditionName), by simp, ?_⟩⟩
            rw [belongs_below_iff]
            refine ⟨hlist, (Schema.belongs_array_iff rfl).2 ⟨_, rfl, ?_⟩⟩
            intro item hitem
            exact (hinner (by omega) rfl).2 (hitems item hitem)
          | one h =>
            have := h.room
            refine ⟨by omega, .inr ⟨.reference conditionName, by simp, ?_⟩⟩
            exact (hinner (by omega) rfl).2 h
      constructor
      · rintro ⟨-, members, rfl, hfields, hothers⟩
        apply WellFormed.object hroom
        · intro mode inner hfind
          have hfield := hfields (mode.key, groupSchema) (mem_groupFields_iff.2 ⟨mode, rfl⟩)
          exact (hgroup inner).1 (hfield.1 inner hfind)
        · intro member hmember hkeys
          have hother := hothers member hmember (hasKey_groupFields.2 hkeys)
          exact belongs_iff_isExpected.1 (hother.1 valueSchema rfl)
      · intro h
        cases h with
        | object _ hgroups hothers =>
          refine ⟨hroom, _, rfl, ?_, ?_⟩
          · intro field hfield
            rcases mem_groupFields_iff.1 hfield with ⟨mode, rfl⟩
            constructor
            · intro inner hfind
              exact (hgroup inner).2 (hgroups mode inner hfind)
            · intro _
              rfl
          · intro member hmember hkey
            constructor
            · rintro other ⟨⟩
              exact belongs_iff_isExpected.2 (hothers member hmember (hasKey_groupFields.1 hkey))
            · intro _
              rfl
    · constructor
      · rintro ⟨hle, -⟩
        exact absurd hle hroom
      · intro h
        exact absurd h.room hroom

/-! ## Acceptance -/

theorem schema_closed : Schema.ClosedIn schema [] := by decide

theorem decides_where {analyze : Path → Sentence → Check Unit} {handler : String} {path : Path}
    {value : Json} :
    Check.Decides (Check.check analyze handler maxSchemaDepth [] schema path value)
      (WellFormed 0 value) := by
  have hstep : Check.Decides (Check.check analyze handler maxSchemaDepth [] schema path value)
      (Belongs (256 - 0) [] schema value) := by
    apply Schema.decides_check ⟨schema_closed, trivial⟩
    intro target node outer hbound
    cases hbound
  exact hstep.congr belongs_iff_wellFormed

theorem ifFields_eq : Scripts.IfPayload.fields =
    [("else", Schema.sentences.asOptional), ("then", .sentences), ("where", schema)] := by
  rfl

/-- An instruction for `if` that has nothing to do is accepted if its condition is one. -/
theorem decides_ifFields {check : Check.Checker} {handler : String} {path : Path}
    {members : Members} {value : Json} {accepted : Prop}
    (hwhere : members.find? "where" = some value) (hthen : members.find? "then" = some (.array []))
    (helse : members.find? "else" = none)
    (hbody : Check.Decides (check .sentences (path.field "then") (.array [])) True)
    (h : Check.Decides (check schema (path.field "where") value) accepted) :
    Check.Decides (Check.checkFields check handler path members Scripts.IfPayload.fields)
      accepted := by
  have hdone : Check.Decides (Check.checkFields check handler path members []) True :=
    Check.decides_pure trivial
  have hlast : Check.Decides (Check.checkFields check handler path members [("where", schema)])
      (accepted ∧ True) := by
    simp only [Check.checkFields, hwhere]
    exact h.andThen hdone
  have hrest : Check.Decides (Check.checkFields check handler path members
      [("then", .sentences), ("where", schema)]) (True ∧ accepted ∧ True) := by
    simp only [Check.checkFields, hthen]
    exact hbody.andThen hlast
  rw [ifFields_eq]
  unfold Check.checkFields
  rw [helse]
  exact hrest.congr (by simp)

/-- The schema and the evaluator agree on what a condition is. As `where` of `if` the conditions are
accepted and nothing else, by whatever validation; and a condition, no object in which has a key
twice, evaluates without an error whatever the variables are. -/
theorem accepts_where_iff (value : Json) :
    (∃ field, Scripts.IfPayload.fields.find? "where" = some field ∧
      ∀ analyze handler path, Check.Decides
        (Check.check analyze handler maxSchemaDepth [] field path value) (WellFormed 0 value)) ∧
    (∀ (lookup : SchemaLookup) (i : Instruction),
      lookup i.handler = some Scripts.IfPayload.fields → i.param? "where" = some value →
      i.param? "then" = some (.array []) → i.param? "else" = none →
      ((∃ report, validate lookup (.instruction i) = .ok report) ↔ WellFormed 0 value)) ∧
    (value.Tidy → WellFormed 0 value →
      ∀ bindings, ∃ holds, (evaluate bindings value).result = .ok holds) := by
  refine ⟨⟨schema, rfl, fun _ _ _ => decides_where⟩, ?_, ?_⟩
  · intro lookup i hlookup hwhere hthen helse
    have hstep : Check.Decides (Check.checkInstruction lookup (Json.membersHeight i.params + 1)
        .root i) (WellFormed 0 value) := by
      simp only [Check.checkInstruction, hlookup]
      refine decides_ifFields hwhere hthen helse ?_ decides_where
      -- an empty program declares nothing and has nothing to check
      have hparse : Sentence.ofJson (.array []) = .ok (.sequence []) := by
        simp [Sentence.ofJson, Sentence.ofItems, Except.map]
      simp only [maxSchemaDepth, Check.check, Schema.sentences, Schema.ofKind, Schema.kind, hparse]
      simp only [Check.analyze, Check.declareDirect, Check.analyzeItems]
      have hnothing : Check.Decides (pure () >>= fun _ => pure ()) (True ∧ True) :=
        (Check.decides_pure trivial).andThen (Check.decides_pure trivial)
      exact hnothing.congr (by simp)
    exact hstep.validate_iff
  · intro htidy hvalue bindings
    have hdecides : Check.Decides
        (Check.check (fun _ _ => pure ()) "if" maxSchemaDepth [] schema .root value)
        (WellFormed 0 value) := decides_where
    rcases hdecides Pass.start with ⟨-, hstep⟩ | ⟨hnot, -⟩
    · exact isOk_evaluate htidy ⟨_, _, hstep⟩ bindings
    · exact absurd hvalue hnot

/-- It is a good day, or the mood is good. -/
def dayOrMood : Json :=
  .object [("@or", .array [.object [("day", .string "*")], .object [("mood", .string "*")]])]

theorem tidy_dayOrMood : dayOrMood.Tidy := by
  apply Json.Tidy.single
  apply Json.Tidy.array
  intro item hitem
  simp only [List.mem_cons, List.not_mem_nil, or_false] at hitem
  rcases hitem with heq | heq
  · rw [heq]
    exact .single (.string "*") _
  · rw [heq]
    exact .single (.string "*") _

theorem wellFormed_dayOrMood : WellFormed 0 dayOrMood := by
  have hone : ∀ key, (∀ mode : Mode, key ≠ mode.key) →
      WellFormed 4 (.object [(key, .string "*")]) := by
    intro key hkey
    apply WellFormed.object (by decide)
    · intro mode value hfind
      rw [Dictionary.find?, if_neg (hkey mode)] at hfind
      cases hfind
    · intro member hmember _
      rw [List.mem_singleton.1 hmember]
      exact .plain (by decide) rfl
  apply WellFormed.object (by decide)
  · intro mode value hfind
    cases mode with
    | all => cases hfind
    | some =>
      cases hfind
      apply IsGroup.list (by decide)
      intro item hitem
      simp only [List.mem_cons, List.not_mem_nil, or_false] at hitem
      rcases hitem with heq | heq
      · rw [heq]
        exact hone "day" (by intro mode; cases mode <;> decide)
      · rw [heq]
        exact hone "mood" (by intro mode; cases mode <;> decide)
  · intro member hmember hkey
    rw [List.mem_singleton.1 hmember] at hkey
    exact absurd rfl (hkey .some)

theorem accepts_dayOrMood :
    (∃ report, validate (fun _ => some Scripts.IfPayload.fields)
      (.instruction ⟨"if", [("then", .array []), ("where", dayOrMood)]⟩) = .ok report) ∧
    ∃ holds, (evaluate (fun _ => .null) dayOrMood).result = .ok holds := by
  have haccepts := accepts_where_iff dayOrMood
  constructor
  · exact (haccepts.2.1 _ _ rfl rfl rfl rfl).2 wellFormed_dayOrMood
  · exact haccepts.2.2 tidy_dayOrMood wellFormed_dayOrMood _

end Condition
end SentenceEngine
