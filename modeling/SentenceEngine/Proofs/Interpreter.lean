import SentenceEngine.Proofs.Remaining
import SentenceEngine.Scripts.Builtin

/-!
# An interpreter for the built-in scripts

What a program of `log`, `set` and `if` means, without threads, frames and tickets: a function from
the variables and messages before it to those after it. A program under an `if` is interpreted on
the spot, before what follows it.

* `Sentence.weight`: the size of a program, programs in parameters included.
* `interpret`: the interpreter, by recursion on this size.
* `interpret_eq`: a program is interpreted instruction by instruction, in document order.
-/

namespace SentenceEngine

/-! ## Sizes -/

mutual
/-- The number of values in a value, itself included. -/
def Json.weight : Json → Nat
  | .array items => Json.itemsWeight items + 1
  | .object members => Json.membersWeight members + 1
  | .null => 1
  | .bool _ => 1
  | .number _ => 1
  | .string _ => 1

/-- The number of values in the items of a list. -/
def Json.itemsWeight : List Json → Nat
  | [] => 0
  | item :: rest => Json.weight item + Json.itemsWeight rest

/-- The number of values in the members of an object. -/
def Json.membersWeight : List (String × Json) → Nat
  | [] => 0
  | (_, value) :: rest => Json.weight value + Json.membersWeight rest
end

/-- The size of an instruction with its parameters. -/
def Instruction.weight (i : Instruction) : Nat := Json.membersWeight i.params + 1

mutual
/-- The size of a sentence with the parameters in it. -/
def Sentence.weight : Sentence → Nat
  | .label _ => 1
  | .instruction i => i.weight
  | .sequence items => Sentence.itemsWeight items + 1

/-- The size of a sequence. -/
def Sentence.itemsWeight : List Sentence → Nat
  | [] => 0
  | item :: rest => Sentence.weight item + Sentence.itemsWeight rest
end

theorem Json.weight_pos (value : Json) : 0 < value.weight := by
  cases value <;> simp [weight]

theorem Json.length_le_membersWeight (members : Members) :
    members.length ≤ Json.membersWeight members := by
  induction members with
  | nil => simp
  | cons entry rest ih =>
    have hpos := Json.weight_pos entry.2
    simp only [List.length_cons, Json.membersWeight]
    omega

theorem Json.weight_le_of_find? {members : Members} {key : String} {value : Json}
    (h : members.find? key = some value) : value.weight ≤ Json.membersWeight members := by
  induction members with
  | nil => cases h
  | cons entry rest ih =>
    obtain ⟨k, v⟩ := entry
    simp only [Dictionary.find?] at h
    simp only [Json.membersWeight]
    split at h
    · cases h
      omega
    · have := ih h
      omega

theorem Json.membersWeight_erase (members : Members) (key : String) :
    Json.membersWeight (members.erase key) ≤ Json.membersWeight members := by
  induction members with
  | nil => simp [Dictionary.erase]
  | cons entry rest ih =>
    obtain ⟨k, v⟩ := entry
    simp only [Dictionary.erase]
    split <;> simp only [Json.membersWeight] <;> omega

mutual
/-- A sentence is no larger than the value that it is read from. -/
theorem Sentence.weight_ofJson {value : Json} {sentence : Sentence}
    (h : Sentence.ofJson value = .ok sentence) : sentence.weight ≤ value.weight := by
  match value with
  | .string text =>
    cases h
    simp [Sentence.weight, Json.weight]
  | .object members =>
    simp only [Sentence.ofJson, Instruction.ofMembers] at h
    split at h
    · cases h
      -- the name of the handler is taken out of the parameters
      have := Json.membersWeight_erase members Instruction.handlerKey
      simp only [Sentence.weight, Instruction.weight, Json.weight]
      omega
    · cases h
  | .array items =>
    simp only [Sentence.ofJson] at h
    rcases hitems : Sentence.ofItems items with error | sentences
    · rw [hitems] at h
      cases h
    · rw [hitems] at h
      cases h
      have := Sentence.weight_ofItems hitems
      simp only [Sentence.weight, Json.weight]
      omega
  | .null => cases h
  | .bool _ => cases h
  | .number _ => cases h

theorem Sentence.weight_ofItems {items : List Json} {sentences : List Sentence}
    (h : Sentence.ofItems items = .ok sentences) :
    Sentence.itemsWeight sentences ≤ Json.itemsWeight items := by
  match items with
  | [] =>
    cases h
    simp [Sentence.itemsWeight]
  | item :: rest =>
    simp only [Sentence.ofItems] at h
    rcases hitem : Sentence.ofJson item with error | sentence
    · rw [hitem] at h
      cases h
    · rcases hrest : Sentence.ofItems rest with error | more
      · rw [hitem, hrest] at h
        cases h
      · rw [hitem, hrest] at h
        cases h
        have := Sentence.weight_ofJson hitem
        have := Sentence.weight_ofItems hrest
        simp only [Sentence.itemsWeight, Json.itemsWeight]
        omega
end

theorem Sentence.itemsWeight_asSequence (sentence : Sentence) :
    Sentence.itemsWeight sentence.asSequence ≤ sentence.weight := by
  cases sentence <;> simp [asSequence, itemsWeight, weight]

/-! ## The interpreter -/

/-- The value of a variable; null when it is absent. -/
def Members.lookup (vars : Members) (name : String) : Json := (vars.find? name).getD .null

namespace Instruction

/-- The message of an instruction for `log`. -/
def message (i : Instruction) : String := ((i.param? "message").bind Json.asString?).getD ""

/-- The entries of an instruction for `set`. -/
def entries (i : Instruction) : Members :=
  match i.param? "variables" with
  | some (.object members) => members
  | _ => []

/-- Whether the condition of an instruction for `if` holds. -/
def holds (i : Instruction) (vars : Members) : Bool :=
  match (i.param? "where").map fun condition =>
    (Condition.evaluate (Members.lookup vars) condition).result with
  | some (.ok holds) => holds
  | _ => false

/-- The program in a parameter. -/
def program? (i : Instruction) (key : String) : Option Sentence :=
  match (i.param? key).map Sentence.ofJson with
  | some (.ok program) => some program
  | _ => none

theorem program?_eq_some {i : Instruction} {key : String} {program : Sentence}
    (h : i.program? key = some program) :
    ∃ value, i.param? key = some value ∧ Sentence.ofJson value = .ok program := by
  unfold program? at h
  split at h
  next found hfound =>
    cases h
    exact Option.map_eq_some_iff.1 hfound
  next => cases h

/-- The program that an instruction for `if` chooses, if there is one. -/
def branch? (i : Instruction) (vars : Members) : Option Sentence :=
  i.program? (if i.holds vars then "then" else "else")

theorem weight_pos (i : Instruction) : 0 < i.weight := Nat.succ_pos _

theorem weight_branch {i : Instruction} {vars : Members} {program : Sentence}
    (h : i.branch? vars = some program) :
    Sentence.itemsWeight program.asSequence < i.weight := by
  obtain ⟨value, hvalue, hparse⟩ := program?_eq_some h
  have := Sentence.itemsWeight_asSequence program
  have := Sentence.weight_ofJson hparse
  have := Json.weight_le_of_find? hvalue
  unfold Instruction.weight
  omega

end Instruction

/-- The variables of a thread, and the messages that it has logged, the first one first. -/
structure World where
  vars : Members
  messages : List String

namespace World

/-- Writes a variable; null removes it. -/
def write (w : World) (name : String) (value : Json) : World :=
  { w with vars := if value.isNull then w.vars.erase name else w.vars.insert name value }

/-- Writes variables one after the other. -/
def assign (w : World) (entries : Members) : World :=
  entries.foldl (fun w entry => w.write entry.1 entry.2) w

/-- Logs a message. -/
def say (w : World) (message : String) : World :=
  { w with messages := w.messages ++ [message] }

end World

/-- Interprets a sequence. Scripts that are not built in do nothing. -/
def interpret : List Sentence → World → World
  | [], w => w
  | .label _ :: rest, w => interpret rest w
  | .sequence items :: rest, w => interpret rest (interpret items w)
  | .instruction i :: rest, w =>
    if i.handler = "log" then interpret rest (w.say i.message)
    else if i.handler = "set" then interpret rest (w.assign i.entries)
    else if i.handler = "if" then
      match _hbranch : i.branch? w.vars with
      | some program => interpret rest (interpret program.asSequence w)
      | none => interpret rest w
    else interpret rest w
termination_by items => Sentence.itemsWeight items
decreasing_by
  all_goals simp only [Sentence.itemsWeight, Sentence.weight]
  -- only the program under an instruction is no part of the list itself; it is smaller than the
  -- value that it is read from
  all_goals first
    | omega
    | have hlt := Instruction.weight_branch _hbranch; omega
    | have hpos := i.weight_pos; omega

/-- What one instruction does, with all that it brings about. -/
def Instruction.effect (i : Instruction) (w : World) : World := interpret [.instruction i] w

/-- What instructions do one after the other. -/
def effects (toCome : List Instruction) (w : World) : World :=
  toCome.foldl (fun w i => i.effect w) w

theorem effects_append (first second : List Instruction) (w : World) :
    effects (first ++ second) w = effects second (effects first w) := List.foldl_append

theorem Instruction.effect_log {i : Instruction} (h : i.handler = "log") (w : World) :
    i.effect w = w.say i.message := by
  simp [effect, interpret, h]

theorem Instruction.effect_set {i : Instruction} (h : i.handler = "set") (w : World) :
    i.effect w = w.assign i.entries := by
  simp [effect, interpret, h]

theorem Instruction.effect_if {i : Instruction} (h : i.handler = "if") (w : World) :
    i.effect w = match i.branch? w.vars with
      | some program => interpret program.asSequence w
      | none => w := by
  unfold effect
  rw [interpret]
  simp only [h, String.reduceEq, if_false, if_true]
  split <;> simp [interpret, *]

theorem interpret_instruction (i : Instruction) (rest : List Sentence) (w : World) :
    interpret (.instruction i :: rest) w = interpret rest (i.effect w) := by
  unfold Instruction.effect
  rw [interpret, interpret]
  -- the branches of the interpreter one after the other; in each, the rest comes last
  split
  · simp [interpret]
  · split
    · simp [interpret]
    · split
      · split <;> simp [interpret]
      · simp [interpret]

/-- A sequence is interpreted instruction by instruction, in document order. -/
theorem interpret_eq (items : List Sentence) (w : World) :
    interpret items w = effects (Sequence.instructions items) w := by
  match items with
  | [] =>
    rw [interpret]
    rfl
  | .label _ :: rest =>
    rw [interpret, interpret_eq rest]
    rfl
  | .instruction i :: rest =>
    rw [interpret_instruction, interpret_eq rest]
    rfl
  | .sequence inner :: rest =>
    rw [interpret, interpret_eq rest, interpret_eq inner, ← effects_append]
    rfl
termination_by Sentence.itemsWeight items
decreasing_by
  all_goals simp only [Sentence.itemsWeight, Sentence.weight]
  all_goals first
    | omega
    | have hpos := i.weight_pos; omega

/-! ## Effort -/

/-- A bound on the steps that a thread takes for instructions, with all that they bring about. -/
def effort : List Instruction → Nat
  | [] => 0
  | i :: rest => 9 * i.weight + effort rest

theorem effort_append (first second : List Instruction) :
    effort (first ++ second) = effort first + effort second := by
  induction first with
  | nil => simp [effort]
  | cons i rest ih =>
    simp only [List.cons_append, effort, ih]
    omega

mutual
theorem effort_instructions (sentence : Sentence) :
    effort sentence.instructions ≤ 9 * sentence.weight := by
  match sentence with
  | .label _ => simp [Sentence.instructions, effort]
  | .instruction i => simp [Sentence.instructions, effort, Sentence.weight]
  | .sequence items =>
    have hitems := effort_itemsInstructions items
    simp only [Sentence.instructions, Sentence.weight]
    omega

theorem effort_itemsInstructions (items : List Sentence) :
    effort (Sequence.instructions items) ≤ 9 * Sentence.itemsWeight items := by
  match items with
  | [] => simp [Sequence.instructions, effort]
  | item :: rest =>
    have hitem := effort_instructions item
    have hrest := effort_itemsInstructions rest
    rw [Sequence.instructions, effort_append]
    simp only [Sentence.itemsWeight]
    omega
end

/-- The program that an instruction chooses takes less than the instruction. -/
theorem Instruction.effort_branch {i : Instruction} {vars : Members} {program : Sentence}
    (h : i.branch? vars = some program) :
    effort (Sequence.instructions program.asSequence) + 9 ≤ 9 * i.weight := by
  have hlt := weight_branch h
  have hle := effort_itemsInstructions program.asSequence
  omega

/-- The entries of an instruction are no more than its parameters. -/
theorem Instruction.length_entries_lt (i : Instruction) : i.entries.length < i.weight := by
  unfold entries
  split
  next members hmembers =>
    have hlength := Json.length_le_membersWeight members
    have hweight := Json.weight_le_of_find? hmembers
    simp only [Json.weight] at hweight
    unfold weight
    omega
  next =>
    have hpos := i.weight_pos
    simpa using hpos

end SentenceEngine
