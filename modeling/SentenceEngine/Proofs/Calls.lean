import SentenceEngine.Proofs.Deciding
import SentenceEngine.Proofs.Faults
import SentenceEngine.Proofs.Interpreter
import Mathlib.Data.Prod.Lex

/-!
# The calls of a validation

The functions of the validator call one another: a sequence is taken into the pass sentence by
sentence, an instruction has its parameters checked, a value is checked by the kind of a node, and
a node for programs reads one from the value and takes it into the pass. Here the recursion stands
open. A call comes to a move, and a move says which calls are made, in which order and among which
nodes, but not what becomes of them.

No single argument gets smaller from call to call. A reference or a candidate is checked against
the same value, and each parameter counts its nodes from the start. What does get smaller is the
height of what is looked into, or else the number of nodes that may still be nested, or else the
program.

* `Call`, `Call.move`: the functions with their arguments, and what each of them does.
* `Invokes`, `Activation.rank`: which call makes which, and what gets smaller.
* `wellFounded_invokes`: no call leads to calls without end.
* `Activation.exists_checked_eq`: the validator's functions answer calls by their moves.
-/

namespace SentenceEngine

theorem Sentence.nesting_le_itemsNesting {items : List Sentence} {item : Sentence}
    (h : item ∈ items) : item.nesting ≤ Sentence.itemsNesting items := by
  induction items with
  | nil => cases h
  | cons first rest ih =>
    rw [Sentence.itemsNesting]
    rcases List.mem_cons.1 h with rfl | hmem
    · exact Nat.le_max_left _ _
    · exact Nat.le_trans (ih hmem) (Nat.le_max_right _ _)

theorem Sentence.weight_le_itemsWeight {items : List Sentence} {item : Sentence}
    (h : item ∈ items) : item.weight ≤ Sentence.itemsWeight items := by
  induction items with
  | nil => cases h
  | cons first rest ih =>
    rw [Sentence.itemsWeight]
    rcases List.mem_cons.1 h with rfl | hmem
    · exact Nat.le_add_right _ _
    · exact Nat.le_trans (ih hmem) (Nat.le_add_left _ _)

theorem Json.elim_height_find?_le (members : Members) (key : String) :
    (members.find? key).elim 0 Json.height ≤ Json.membersHeight members := by
  cases hfind : members.find? key with
  | none => exact Nat.zero_le _
  | some value => exact Json.height_le_membersHeight (Dictionary.mem_of_find? hfind)

namespace Descent

/-! ## Calls and moves -/

/-- A function of the validator with its arguments. -/
inductive Call where
  /-- A step that makes no calls. -/
  | plain (step : Check Unit)
  /-- A program is taken into the pass. -/
  | sentence (path : Path) (sentence : Sentence)
  /-- A sequence is taken into the pass. -/
  | sequence (path : Path) (items : List Sentence)
  /-- An instruction is checked. -/
  | instruction (path : Path) (instruction : Instruction)
  /-- A parameter of an instruction is checked, if it is there. -/
  | parameter (handler : String) (schema : Schema) (path : Path) (value : Option Json)
  /-- A value is checked against a node, if it is there. -/
  | check (handler : String) (schema : Schema) (path : Path) (value : Option Json)
  /-- A value is checked by the kind of the node that was nested last. -/
  | kind (handler : String) (schema : Schema) (path : Path) (value : Json)

/-- What a call does. -/
inductive Move where
  /-- It makes no calls. -/
  | settle (step : Check Unit)
  /-- It leaves the answer to another call. -/
  | turn (call : Call)
  /-- It makes calls as long as they succeed. -/
  | loop (calls : List Call)
  /-- It makes calls until one of them succeeds, and takes back what the failed ones collected. -/
  | attempt (failure : ValidationError) (calls : List Call)
  /-- It makes a call inside one more node. -/
  | nest (schema : Schema) (call : Call)
  /-- It makes a call that counts its nodes from the start. -/
  | afresh (call : Call)

/-- The items of a list, to be checked against one node. -/
def itemCalls (handler : String) (content : Schema) (path : Path) : Nat → List Json → List Call
  | _, [] => []
  | position, item :: rest =>
    .check handler content (path.item position) (some item) ::
      itemCalls handler content path (position + 1) rest

/-- The members that fields ask for, each to be given to `call`. -/
def fieldCalls (call : Schema → Path → Option Json → Call) (path : Path) (members : Members)
    (fields : List (String × Schema)) : List Call :=
  fields.map fun field => call field.2 (path.field field.1) (members.find? field.1)

/-- A member that is no field. -/
def otherCall (handler : String) (path : Path) (rest : Option Schema) (dynamicKeys : Bool)
    (member : String × Json) : Call :=
  match rest with
  | some schema => .check handler schema (path.field member.1) (some member.2)
  | none =>
    .plain (if dynamicKeys then pure () else Check.fail handler path (.unexpectedKey member.1))

/-- The members that are no fields. -/
def otherCalls (handler : String) (path : Path) (fields : Fields) (rest : Option Schema)
    (dynamicKeys : Bool) (members : List (String × Json)) : List Call :=
  (members.filter fun member => !fields.hasKey member.1).map
    (otherCall handler path rest dynamicKeys)

/-- The sentences of a sequence whose own labels are declared. -/
def sentenceCalls (path : Path) : Nat → List Sentence → List Call
  | _, [] => []
  | position, .label _ :: rest => sentenceCalls path (position + 1) rest
  | position, .instruction i :: rest =>
    .instruction (path.item position) i :: sentenceCalls path (position + 1) rest
  | position, .sequence items :: rest =>
    .sequence (path.item position) items :: sentenceCalls path (position + 1) rest

/-- What the kind of a node comes to, inside the nodes `ancestors`, the node itself included. -/
def kindMove (ancestors : List Schema) (handler : String) (schema : Schema) (path : Path)
    (value : Json) : Move :=
  match schema.kind with
  | .any => .settle (pure ())
  | .string minLength maxLength labelReference =>
    match value with
    | .string text =>
      .settle (Check.checkString handler path minLength maxLength labelReference text)
    | value => .settle (Check.mismatch handler path .string value)
  | .number min max =>
    match value with
    | .number number => .settle (Check.checkNumber handler path min max number.toDouble)
    | value => .settle (Check.mismatch handler path .number value)
  | .boolean =>
    match value with
    | .bool _ => .settle (pure ())
    | value => .settle (Check.mismatch handler path .boolean value)
  | .null =>
    match value with
    | .null => .settle (pure ())
    | value => .settle (Check.mismatch handler path .null value)
  | .array content =>
    match value with
    | .array items => .loop (itemCalls handler content path 0 items)
    | value => .settle (Check.mismatch handler path .array value)
  | .object fields rest dynamicKeys =>
    match value with
    | .object members =>
      .loop (fieldCalls (.check handler) path members fields ++
        otherCalls handler path fields rest dynamicKeys members)
    | value => .settle (Check.mismatch handler path .object value)
  | .sentences =>
    match Sentence.ofJson value with
    | .ok sentence => .turn (.sentence path sentence)
    | .error error => .settle (Check.fail handler path (.invalidSentence error))
  | .alternatives candidates =>
    if candidates.isEmpty then .settle (pure ())
    else .attempt ⟨path, handler, .noAlternative (candidates.map (·.kind.tag))⟩
      (candidates.map (.check handler · path (some value)))
  | .reference target =>
    match ancestors.tail.find? (·.name? == some target) with
    | some found => .turn (.check handler found path (some value))
    | none => .settle (Check.fail handler path (.unresolvedReference target))

/-- What a call comes to, inside the nodes `ancestors`. -/
def Call.move (lookup : SchemaLookup) (ancestors : List Schema) : Call → Move
  | .plain step => .settle step
  | .sentence path (.label text) => .settle (Check.declare path text)
  | .sentence path (.instruction i) => .turn (.instruction path i)
  | .sentence path (.sequence items) => .turn (.sequence path items)
  | .sequence path items =>
    .loop (.plain (Check.declareDirect path 0 items) :: sentenceCalls path 0 items)
  | .instruction path i =>
    match lookup i.handler with
    | some fields => .loop (fieldCalls (.parameter i.handler) path i.params fields)
    | none => .settle (Check.fail i.handler path (.unknownHandler i.handler))
  | .parameter handler schema path value => .afresh (.check handler schema path value)
  | .check handler schema path none =>
    .settle (if schema.isOptional then pure () else Check.fail handler path .missingField)
  | .check handler schema path (some value) =>
    if maxSchemaDepth ≤ ancestors.length then .settle (Check.fail handler path .tooDeep)
    else .nest schema (.kind handler schema path value)
  | .kind handler schema path value => kindMove ancestors handler schema path value

/-! ## Which call makes which -/

/-- A call, and the nodes that are nested around it within its parameter, innermost first. -/
structure Activation where
  ancestors : List Schema
  call : Call

/-- Whether the node of a kind is the one that was nested last. -/
def Activation.Proper (a : Activation) : Prop :=
  match a.call with
  | .kind _ schema _ _ => ∃ around, a.ancestors = schema :: around
  | _ => True

/-- What an activation comes to. -/
def Activation.move (lookup : SchemaLookup) (a : Activation) : Move :=
  a.call.move lookup a.ancestors

/-- The activations that a move may lead to at once. -/
def Move.invoked (ancestors : List Schema) : Move → List Activation
  | .settle _ => []
  | .turn call => [⟨ancestors, call⟩]
  | .loop calls => calls.map (⟨ancestors, ·⟩)
  | .attempt _ calls => calls.map (⟨ancestors, ·⟩)
  | .nest schema call => [⟨schema :: ancestors, call⟩]
  | .afresh call => [⟨[], call⟩]

/-- One activation may lead to another at once. -/
def Invokes (lookup : SchemaLookup) (callee caller : Activation) : Prop :=
  callee ∈ (caller.move lookup).invoked caller.ancestors

/-! ## What gets smaller -/

/-- How deep instructions may stand inside the parameters of instructions in a call. -/
def Call.nesting : Call → Nat
  | .plain _ => 0
  | .sentence _ program => program.nesting
  | .sequence _ items => Sentence.itemsNesting items
  | .instruction _ i => Json.membersHeight i.params + 1
  | .parameter _ _ _ value => value.elim 0 Json.height
  | .check _ _ _ value => value.elim 0 Json.height
  | .kind _ _ _ value => value.height

/-- How far an activation may go on before something smaller is looked into: two calls for each
node that may still be nested, and last of all the call for a program. -/
def Activation.room (a : Activation) : Nat :=
  match a.call with
  | .plain _ => 0
  | .instruction _ _ => 0
  | .sentence _ _ => 1
  | .sequence _ _ => 1
  | .check _ _ _ _ => 2 * (maxSchemaDepth - a.ancestors.length) + 2
  | .kind _ _ _ _ => 2 * (maxSchemaDepth - a.ancestors.length) + 3
  | .parameter _ _ _ _ => 2 * maxSchemaDepth + 3

/-- The size of the program that is taken into the pass. -/
def Call.size : Call → Nat
  | .sentence _ program => program.weight
  | .sequence _ items => Sentence.itemsWeight items
  | _ => 0

/-- What every call makes smaller. -/
def Activation.rank (a : Activation) : ℕ ×ₗ ℕ ×ₗ ℕ :=
  toLex (a.call.nesting, toLex (a.room, a.call.size))

theorem Activation.rank_lt_iff {a b : Activation} :
    a.rank < b.rank ↔ a.call.nesting < b.call.nesting ∨ a.call.nesting = b.call.nesting ∧
      (a.room < b.room ∨ a.room = b.room ∧ a.call.size < b.call.size) := by
  simp [Activation.rank, Prod.Lex.toLex_lt_toLex]

/-! ## What gets smaller at each move -/

/-- A callee that looks into something less high. -/
theorem Activation.rank_lt_of_nesting_lt {a b : Activation} (h : a.call.nesting < b.call.nesting) :
    a.rank < b.rank := Activation.rank_lt_iff.2 (.inl h)

/-- A callee that looks into nothing higher, and has fewer nodes left. -/
theorem Activation.rank_lt_of_room_lt {a b : Activation} (h : a.call.nesting ≤ b.call.nesting)
    (hroom : a.room < b.room) : a.rank < b.rank := by
  rw [Activation.rank_lt_iff]
  omega

theorem eq_of_mem_itemCalls {handler : String} {content : Schema} {path : Path}
    {position : Nat} {items : List Json} {call : Call}
    (h : call ∈ itemCalls handler content path position items) :
    ∃ place, ∃ item ∈ items, call = .check handler content place (some item) := by
  induction items generalizing position with
  | nil => cases h
  | cons first rest ih =>
    rcases List.mem_cons.1 h with rfl | hrest
    · exact ⟨_, first, List.mem_cons_self, rfl⟩
    · obtain ⟨place, item, hitem, rfl⟩ := ih hrest
      exact ⟨place, item, List.mem_cons_of_mem _ hitem, rfl⟩

/-- The call for a sentence of a sequence. A label is declared already, so there is none for it. -/
inductive CallFor (place : Path) : Sentence → Call → Prop
  | instruction (i : Instruction) : CallFor place (.instruction i) (.instruction place i)
  | sequence (items : List Sentence) : CallFor place (.sequence items) (.sequence place items)

theorem exists_of_mem_sentenceCalls {path : Path} {position : Nat} {items : List Sentence}
    {call : Call} (h : call ∈ sentenceCalls path position items) :
    ∃ place, ∃ item ∈ items, CallFor place item call := by
  induction items generalizing position with
  | nil => cases h
  | cons first rest ih =>
    have hrest (h : call ∈ sentenceCalls path (position + 1) rest) :
        ∃ place, ∃ item ∈ first :: rest, CallFor place item call := by
      obtain ⟨place, item, hitem, hcalled⟩ := ih h
      exact ⟨place, item, List.mem_cons_of_mem _ hitem, hcalled⟩
    cases first with
    | label text => exact hrest h
    | instruction i =>
      rcases List.mem_cons.1 h with rfl | h
      · exact ⟨_, _, List.mem_cons_self, .instruction i⟩
      · exact hrest h
    | sequence inner =>
      rcases List.mem_cons.1 h with rfl | h
      · exact ⟨_, _, List.mem_cons_self, .sequence inner⟩
      · exact hrest h

/-- The kind of a node leads to nothing higher, and to nothing that has more nodes left. -/
theorem smaller_of_mem_kindMove {ancestors : List Schema} {handler : String} {schema : Schema}
    {path : Path} {value : Json} {callee : Activation}
    (h : callee ∈ (kindMove ancestors handler schema path value).invoked ancestors) :
    callee.Proper ∧ callee.call.nesting ≤ value.height ∧
      callee.room < 2 * (maxSchemaDepth - ancestors.length) + 3 := by
  unfold kindMove at h
  cases hkind : schema.kind with
  | array content =>
    cases value with
    | array items =>
      simp only [hkind, Move.invoked, List.mem_map] at h
      obtain ⟨call, hcall, rfl⟩ := h
      obtain ⟨place, item, hitem, rfl⟩ := eq_of_mem_itemCalls hcall
      refine ⟨trivial, ?_, Nat.lt_succ_self _⟩
      exact Nat.le_succ_of_le (Json.height_le_itemsHeight hitem)
    | _ => simp [hkind, Move.invoked] at h
  | object fields rest dynamicKeys =>
    cases value with
    | object members =>
      simp only [hkind, Move.invoked, List.mem_map, List.mem_append] at h
      obtain ⟨call, hfield | hother, rfl⟩ := h
      · obtain ⟨field, -, rfl⟩ := List.mem_map.1 hfield
        refine ⟨trivial, ?_, Nat.lt_succ_self _⟩
        exact Nat.le_succ_of_le (Json.elim_height_find?_le members field.1)
      · obtain ⟨⟨key, other⟩, hmember, rfl⟩ := List.mem_map.1 hother
        have hheight := Json.height_le_membersHeight (List.mem_filter.1 hmember).1
        cases rest with
        | none => exact ⟨trivial, Nat.zero_le _, Nat.succ_pos _⟩
        | some schema => exact ⟨trivial, Nat.le_succ_of_le hheight, Nat.lt_succ_self _⟩
    | _ => simp [hkind, Move.invoked] at h
  | sentences =>
    cases hparse : Sentence.ofJson value with
    | error error => simp [hkind, hparse, Move.invoked] at h
    | ok sentence =>
      simp only [hkind, hparse, Move.invoked, List.mem_singleton] at h
      subst h
      refine ⟨trivial, Sentence.nesting_ofJson_le hparse, ?_⟩
      show 1 < 2 * (maxSchemaDepth - ancestors.length) + 3
      omega
  | alternatives candidates =>
    simp only [hkind] at h
    split at h
    · cases h
    · simp only [Move.invoked, List.mem_map] at h
      obtain ⟨call, ⟨candidate, -, rfl⟩, rfl⟩ := h
      exact ⟨trivial, Nat.le_refl _, Nat.lt_succ_self _⟩
  | reference target =>
    simp only [hkind] at h
    split at h
    · simp only [Move.invoked, List.mem_singleton] at h
      subst h
      exact ⟨trivial, Nat.le_refl _, Nat.lt_succ_self _⟩
    · cases h
  | _ =>
    cases value <;> simp [hkind, Move.invoked] at h

/-- An instruction leads to its parameters. -/
theorem Invokes.of_instruction {lookup : SchemaLookup} {callee : Activation}
    {ancestors : List Schema} {path : Path} {i : Instruction}
    (h : Invokes lookup callee ⟨ancestors, .instruction path i⟩) : ∃ key schema,
      callee = ⟨ancestors, .parameter i.handler schema (path.field key) (i.params.find? key)⟩ := by
  simp only [Invokes, Activation.move, Call.move] at h
  split at h
  · obtain ⟨call, hcall, rfl⟩ := List.mem_map.1 h
    obtain ⟨field, -, rfl⟩ := List.mem_map.1 hcall
    exact ⟨field.1, field.2, rfl⟩
  · cases h

/-- Every call makes the rank smaller, and a kind is called with its node nested last. -/
theorem Invokes.proper_and_rank_lt {lookup : SchemaLookup} {callee caller : Activation}
    (h : Invokes lookup callee caller) : callee.Proper ∧ callee.rank < caller.rank := by
  obtain ⟨ancestors, call⟩ := caller
  cases call with
  | plain step => cases h
  | sentence path program =>
    cases program with
    | label text => cases h
    | instruction i =>
      obtain rfl := List.mem_singleton.1 h
      exact ⟨trivial, Activation.rank_lt_of_room_lt (Nat.le_refl _) Nat.one_pos⟩
    | sequence items =>
      obtain rfl := List.mem_singleton.1 h
      exact ⟨trivial, Activation.rank_lt_iff.2 (.inr ⟨rfl, .inr ⟨rfl, Nat.lt_succ_self _⟩⟩)⟩
  | sequence path items =>
    obtain ⟨call, hcall, rfl⟩ := List.mem_map.1 h
    rcases List.mem_cons.1 hcall with rfl | hcall
    · exact ⟨trivial, Activation.rank_lt_of_room_lt (Nat.zero_le _) Nat.one_pos⟩
    · obtain ⟨place, item, hitem, hfor⟩ := exists_of_mem_sentenceCalls hcall
      have hnesting := Sentence.nesting_le_itemsNesting hitem
      have hweight := Sentence.weight_le_itemsWeight hitem
      cases hfor with
      | instruction i =>
        exact ⟨trivial, Activation.rank_lt_of_room_lt hnesting Nat.one_pos⟩
      | sequence inner =>
        -- neither the height nor the room need get smaller here, only the program
        rw [Sentence.nesting] at hnesting
        rw [Sentence.weight] at hweight
        refine ⟨trivial, ?_⟩
        rcases Nat.lt_or_eq_of_le hnesting with hlt | heq
        · exact Activation.rank_lt_of_nesting_lt hlt
        · exact Activation.rank_lt_iff.2 (.inr ⟨heq, .inr ⟨rfl, hweight⟩⟩)
  | instruction path i =>
    obtain ⟨key, schema, rfl⟩ := h.of_instruction
    refine ⟨trivial, Activation.rank_lt_of_nesting_lt ?_⟩
    exact Nat.lt_succ_of_le (Json.elim_height_find?_le i.params key)
  | parameter handler schema path value =>
    obtain rfl := List.mem_singleton.1 h
    exact ⟨trivial, Activation.rank_lt_of_room_lt (Nat.le_refl _) (Nat.lt_succ_self _)⟩
  | check handler schema path value =>
    cases value with
    | none => cases h
    | some value =>
      simp only [Invokes, Activation.move, Call.move] at h
      split at h
      · cases h
      · obtain rfl := List.mem_singleton.1 h
        refine ⟨⟨ancestors, rfl⟩, Activation.rank_lt_of_room_lt (Nat.le_refl _) ?_⟩
        simp only [Activation.room, List.length_cons]
        omega
  | kind handler schema path value =>
    obtain ⟨hproper, hnesting, hroom⟩ := smaller_of_mem_kindMove h
    exact ⟨hproper, Activation.rank_lt_of_room_lt hnesting hroom⟩

/-- A callee looks into nothing higher. -/
theorem Invokes.nesting_le {lookup : SchemaLookup} {callee caller : Activation}
    (h : Invokes lookup callee caller) : callee.call.nesting ≤ caller.call.nesting := by
  rcases Activation.rank_lt_iff.1 h.proper_and_rank_lt.2 with hlt | ⟨heq, -⟩
  · exact Nat.le_of_lt hlt
  · exact Nat.le_of_eq heq

/-- No call leads to calls without end. -/
theorem wellFounded_invokes (lookup : SchemaLookup) : WellFounded (Invokes lookup) :=
  Subrelation.wf (fun h => h.proper_and_rank_lt.2) (InvImage.wf Activation.rank wellFounded_lt)

/-! ## The answers -/

/-- The first answer that is a success, or a failure; what failed before it leaves no trace. -/
def firstOf (answer : Call → Check Unit) (failure : ValidationError) : List Call → Check Unit
  | [] => throw failure
  | first :: rest => do
    if ← Check.succeeds (answer first) then pure () else firstOf answer failure rest

theorem firstOf_cons_apply {answer : Call → Check Unit} {failure : ValidationError} {first : Call}
    {rest : List Call} (before : Pass) :
    firstOf answer failure (first :: rest) before =
      match answer first before with
      | (.ok _, after) => (.ok (), after)
      | (.error _, after) => firstOf answer failure rest (Check.rollBack before after) := by
  rw [firstOf, Check.bind_apply, Check.succeeds]
  rcases answer first before with ⟨error | done, after⟩
  · rfl
  · rfl

/-- The answer of a move, given the answers of all activations. -/
def Move.run (ancestors : List Schema) (answer : Activation → Check Unit) : Move → Check Unit
  | .settle step => step
  | .turn call => answer ⟨ancestors, call⟩
  | .loop calls => forM calls (answer ⟨ancestors, ·⟩)
  | .attempt failure calls => firstOf (answer ⟨ancestors, ·⟩) failure calls
  | .nest schema call => answer ⟨schema :: ancestors, call⟩
  | .afresh call => answer ⟨[], call⟩

/-- A value is checked if it is there, and may be absent only if the node says so. -/
def ifPresent (check : Check.Checker) (handler : String) (schema : Schema) (path : Path) :
    Option Json → Check Unit
  | none => if schema.isOptional then pure () else Check.fail handler path .missingField
  | some value => check schema path value

/-- The check of values inside the nodes `ancestors`. The programs in them may nest instructions
up to `nesting`. -/
def checkWithin (lookup : SchemaLookup) (nesting : Nat) (handler : String)
    (ancestors : List Schema) : Check.Checker :=
  Check.check (Check.analyze (Check.checkInstruction lookup nesting)) handler
    (maxSchemaDepth - ancestors.length) ancestors

/-- The function of the validator that answers an activation. -/
def Activation.checked (lookup : SchemaLookup) (nesting : Nat) (a : Activation) : Check Unit :=
  match a.call with
  | .plain step => step
  | .sentence path program => Check.analyze (Check.checkInstruction lookup nesting) path program
  | .sequence path items =>
    Check.analyze (Check.checkInstruction lookup nesting) path (.sequence items)
  | .instruction path i => Check.checkInstruction lookup nesting path i
  | .parameter handler schema path value =>
    ifPresent (checkWithin lookup nesting handler []) handler schema path value
  | .check handler schema path value =>
    ifPresent (checkWithin lookup nesting handler a.ancestors) handler schema path value
  | .kind handler schema path value =>
    Check.check (Check.analyze (Check.checkInstruction lookup nesting)) handler
      (maxSchemaDepth - a.ancestors.length + 1) a.ancestors.tail schema path value

section Loops

variable {check : Check.Checker} {answer : Call → Check Unit} {handler : String} {path : Path}

theorem forM_itemCalls {content : Schema}
    (h : ∀ place item, answer (.check handler content place (some item)) = check content place item)
    (position : Nat) (items : List Json) :
    forM (itemCalls handler content path position items) answer =
      Check.checkItems (check content) path position items := by
  induction items generalizing position with
  | nil => rfl
  | cons item rest ih =>
    rw [itemCalls, List.forM_cons, h, ih, Check.checkItems]

theorem forM_fieldCalls {call : Schema → Path → Option Json → Call}
    (h : ∀ schema place value,
      answer (call schema place value) = ifPresent check handler schema place value)
    (members : Members) (fields : List (String × Schema)) :
    forM (fieldCalls call path members fields) answer =
      Check.checkFields check handler path members fields := by
  induction fields with
  | nil => rfl
  | cons field rest ih =>
    obtain ⟨key, schema⟩ := field
    rw [fieldCalls, List.map_cons, List.forM_cons, h, ← fieldCalls, ih, Check.checkFields]
    cases members.find? key with
    | some value => rfl
    | none =>
      simp only [ifPresent]
      cases schema.isOptional with
      | true => rfl
      | false => rfl

theorem forM_otherCalls (hplain : ∀ step, answer (.plain step) = step)
    (h : ∀ schema place value,
      answer (.check handler schema place (some value)) = check schema place value)
    (fields : Fields) (rest : Option Schema) (dynamicKeys : Bool)
    (members : List (String × Json)) :
    forM (otherCalls handler path fields rest dynamicKeys members) answer =
      Check.checkOthers check handler path fields rest dynamicKeys members := by
  induction members with
  | nil => rfl
  | cons member others ih =>
    obtain ⟨key, value⟩ := member
    simp only [Check.checkOthers, ← ih, otherCalls, List.filter_cons]
    cases fields.hasKey key with
    | true => rfl
    | false =>
      cases rest with
      | some schema => simp [otherCall, h]
      | none =>
        cases dynamicKeys with
        | true => simp [otherCall, hplain]
        | false => simp [otherCall, hplain]

theorem firstOf_candidates {value : Json}
    (h : ∀ schema, answer (.check handler schema path (some value)) = check schema path value)
    (failure : ValidationError) (candidates : List Schema) :
    firstOf answer failure (candidates.map (.check handler · path (some value))) =
      (do if !(← Check.someCandidate (check · path value) candidates) then throw failure) := by
  induction candidates with
  | nil => rfl
  | cons candidate rest ih =>
    rw [List.map_cons, firstOf, Check.someCandidate, ih, h, bind_assoc]
    congr 1
    funext found
    cases found with
    | true => rfl
    | false => rfl

theorem forM_sentenceCalls {instruction : Path → Instruction → Check Unit}
    (hinstruction : ∀ place i, answer (.instruction place i) = instruction place i)
    (hsequence : ∀ place items,
      answer (.sequence place items) = Check.analyze instruction place (.sequence items))
    (path : Path) (position : Nat) (items : List Sentence) :
    forM (sentenceCalls path position items) answer =
      Check.analyzeItems instruction path position items := by
  induction items generalizing position with
  | nil => rw [sentenceCalls, Check.analyzeItems]; rfl
  | cons item rest ih =>
    cases item with
    | label text => rw [sentenceCalls, Check.analyzeItems, ih]
    | instruction i =>
      rw [sentenceCalls, Check.analyzeItems, List.forM_cons, hinstruction, ih]
    | sequence inner =>
      rw [sentenceCalls, Check.analyzeItems, List.forM_cons, hsequence, ih, Check.analyze,
        bind_assoc]

end Loops

/-- The kind of a node asks for the answers that the validator looks for. -/
theorem run_kindMove {lookup : SchemaLookup} {nesting : Nat} {enclosing : List Schema}
    {handler : String} {schema : Schema} {path : Path} {value : Json} :
    (kindMove (schema :: enclosing) handler schema path value).run (schema :: enclosing)
        (·.checked lookup nesting) =
      Check.check (Check.analyze (Check.checkInstruction lookup nesting)) handler
        (maxSchemaDepth - (schema :: enclosing).length + 1) enclosing schema path value := by
  have hcheck (inner : Schema) (place : Path) (v : Json) :
      (Activation.mk (schema :: enclosing) (.check handler inner place (some v))).checked lookup
        nesting = checkWithin lookup nesting handler (schema :: enclosing) inner place v := by rfl
  cases hkind : schema.kind with
  | array content =>
    cases value with
    | array items =>
      simp only [kindMove, Check.check, hkind, Move.run]
      exact forM_itemCalls (hcheck content) 0 items
    | _ =>
      simp only [kindMove, Check.check, hkind]
      rfl
  | object fields rest dynamicKeys =>
    cases value with
    | object members =>
      simp only [kindMove, Check.check, hkind, Move.run, List.forM_append]
      congr 1
      · exact forM_fieldCalls (fun _ _ _ => rfl) members fields
      · funext _
        exact forM_otherCalls (fun _ => rfl) hcheck fields rest dynamicKeys members
    | _ =>
      simp only [kindMove, Check.check, hkind]
      rfl
  | sentences =>
    simp only [kindMove, Check.check, hkind]
    cases Sentence.ofJson value with
    | ok sentence => rfl
    | error error => rfl
  | alternatives candidates =>
    simp only [kindMove, Check.check, hkind]
    cases candidates with
    | nil => rfl
    | cons first rest => exact firstOf_candidates (fun inner => hcheck inner path value) _ _
  | reference target =>
    simp only [kindMove, Check.check, hkind, List.tail_cons]
    cases enclosing.find? (·.name? == some target) with
    | some found => rfl
    | none => rfl
  | _ =>
    -- the other kinds look at the value alone
    cases value <;> simp only [kindMove, Check.check, hkind] <;> rfl

/-- The validator answers an activation by its move. It has enough left for what the move leads to
if it has enough for the activation. -/
theorem Activation.exists_checked_eq (lookup : SchemaLookup) {nesting : Nat} {a : Activation}
    (hproper : a.Proper) (hnesting : a.call.nesting ≤ nesting) :
    ∃ left, a.checked lookup nesting = (a.move lookup).run a.ancestors (·.checked lookup left) ∧
      ∀ b, Invokes lookup b a → b.call.nesting ≤ left := by
  have hsame (h : a.checked lookup nesting =
      (a.move lookup).run a.ancestors (·.checked lookup nesting)) :
      ∃ left, a.checked lookup nesting = (a.move lookup).run a.ancestors (·.checked lookup left) ∧
        ∀ b, Invokes lookup b a → b.call.nesting ≤ left :=
    ⟨nesting, h, fun _ hb => hb.nesting_le.trans hnesting⟩
  obtain ⟨ancestors, call⟩ := a
  cases call with
  | plain step => exact hsame rfl
  | sentence path program =>
    cases program with
    | label text => exact hsame rfl
    | instruction i => exact hsame rfl
    | sequence items => exact hsame rfl
  | sequence path items =>
    have hsequence (place : Path) (inner : List Sentence) :
        (Activation.mk ancestors (.sequence place inner)).checked lookup nesting =
          Check.analyze (Check.checkInstruction lookup nesting) place (.sequence inner) := by rfl
    apply hsame
    rw [hsequence]
    simp only [Activation.move, Call.move, Move.run, List.forM_cons, Check.analyze]
    congr 1
    funext _
    refine (forM_sentenceCalls ?_ hsequence path 0 items).symm
    intro place i
    rfl
  | instruction path i =>
    -- only here the bound is used up, and only here what follows is less high
    obtain ⟨left, rfl⟩ : ∃ left, nesting = left + 1 :=
      Nat.exists_eq_succ_of_ne_zero (Nat.ne_of_gt (Nat.lt_of_lt_of_le (Nat.succ_pos _) hnesting))
    refine ⟨left, ?_, fun b hb => ?_⟩
    · simp only [Activation.checked, Activation.move, Call.move, Check.checkInstruction]
      cases lookup i.handler with
      | none => rfl
      | some fields => exact (forM_fieldCalls (fun _ _ _ => rfl) i.params fields).symm
    · obtain ⟨key, schema, rfl⟩ := hb.of_instruction
      exact (Json.elim_height_find?_le i.params key).trans (Nat.le_of_succ_le_succ hnesting)
  | parameter handler schema path value => exact hsame rfl
  | check handler schema path value =>
    apply hsame
    cases value with
    | none => rfl
    | some value =>
      simp only [Activation.checked, Activation.move, Call.move, ifPresent, checkWithin]
      by_cases hfull : maxSchemaDepth ≤ ancestors.length
      · rw [if_pos hfull, Nat.sub_eq_zero_of_le hfull]
        rfl
      · have hroom : maxSchemaDepth - ancestors.length =
            maxSchemaDepth - (schema :: ancestors).length + 1 := by
          rw [List.length_cons]
          omega
        rw [if_neg hfull, hroom]
        rfl
  | kind handler schema path value =>
    obtain ⟨around, rfl⟩ : ∃ around, ancestors = schema :: around := hproper
    exact hsame run_kindMove.symm

end Descent
end SentenceEngine
