import SentenceEngine.Json.Basic

/-!
# Sentences

A program is a tree of sentences: labels, instructions for scripts, and nested sequences. In JSON a
label is a string, an instruction an object with a string under `handler`, whose other members are
its parameters, and a sequence a list.
-/

namespace SentenceEngine

/-- Work for the script registered under the name `handler`. -/
structure Instruction where
  handler : String
  params : Members
deriving DecidableEq

/-- One element of a program. -/
inductive Sentence where
  | label (text : String)
  | instruction (instruction : Instruction)
  | sequence (items : List Sentence)

/-- The sentences of one scope. -/
abbrev Sequence := List Sentence

/-- Why a value is no sentence, or an instruction's parameters do not fit its script. -/
inductive ProgramError where
  /-- The value is neither a string, an object nor a list. -/
  | invalidSentence (found : Json.Kind)
  /-- An object without a string under `handler`. -/
  | missingHandler
  /-- The parameters are not what the script reads. -/
  | invalidPayload (handler detail : String)
deriving DecidableEq, Repr

namespace ProgramError

/-- The wording of an error. -/
def message : ProgramError → String
  | .invalidSentence found => "expected a label, instruction or sequence, found " ++ found.name
  | .missingHandler => "instruction is missing a string 'handler' field"
  | .invalidPayload handler detail =>
    "instruction '" ++ handler ++ "' has an invalid payload: " ++ detail

end ProgramError

/-! ## Instructions -/

namespace Instruction

/-- The member that names the script. -/
def handlerKey : String := "handler"

/-- An instruction without parameters. -/
def new (handler : String) : Instruction := ⟨handler, []⟩

/-- Adds or replaces a parameter. -/
def withParam (i : Instruction) (key : String) (value : Json) : Instruction :=
  { i with params := i.params.insert key value }

/-- A parameter. -/
def param? (i : Instruction) (key : String) : Option Json := i.params.find? key

/-- The instruction of an object's members. -/
def ofMembers (members : Members) : Except ProgramError Instruction :=
  match members.find? handlerKey with
  | some (.string handler) => .ok ⟨handler, members.erase handlerKey⟩
  | _ => .error .missingHandler

/-- The members of an instruction's object. -/
def toMembers (i : Instruction) : Members := i.params.insert handlerKey (.string i.handler)

end Instruction

/-! ## Sentences and JSON -/

namespace Sentence

mutual
/-- The sentence that a value stands for. -/
def ofJson : Json → Except ProgramError Sentence
  | .string text => .ok (.label text)
  | .object members => (Instruction.ofMembers members).map .instruction
  | .array items => (ofItems items).map .sequence
  | value => .error (.invalidSentence value.kind)

/-- The sequence that a list stands for, or the error of its first item that is no sentence. -/
def ofItems : List Json → Except ProgramError Sequence
  | [] => .ok []
  | item :: rest => do
    let sentence ← ofJson item
    let sentences ← ofItems rest
    .ok (sentence :: sentences)
end

mutual
/-- The value of a sentence. -/
def toJson : Sentence → Json
  | .label text => .string text
  | .instruction i => .object i.toMembers
  | .sequence items => .array (itemsToJson items)

/-- The values of the sentences of a sequence. -/
def itemsToJson : List Sentence → List Json
  | [] => []
  | item :: rest => toJson item :: itemsToJson rest
end

mutual
/-- Structural equality. -/
def same : Sentence → Sentence → Bool
  | .label a, .label b => a == b
  | .instruction a, .instruction b => a == b
  | .sequence a, .sequence b => sameItems a b
  | _, _ => false

/-- Structural equality, item by item. -/
def sameItems : List Sentence → List Sentence → Bool
  | [], [] => true
  | x :: xs, y :: ys => same x y && sameItems xs ys
  | _, _ => false
end

mutual
theorem same_iff (a b : Sentence) : same a b = true ↔ a = b := by
  match a, b with
  | .label _, b => cases b <;> simp [same]
  | .instruction _, b => cases b <;> simp [same]
  | .sequence xs, .sequence ys => simp [same, sameItems_iff xs ys]
  | .sequence _, .label _ | .sequence _, .instruction _ => simp [same]

theorem sameItems_iff (xs ys : List Sentence) : sameItems xs ys = true ↔ xs = ys := by
  match xs, ys with
  | [], ys => cases ys <;> simp [sameItems]
  | _ :: _, [] => simp [sameItems]
  | x :: xs, y :: ys => simp [sameItems, same_iff x y, sameItems_iff xs ys]
end

instance : DecidableEq Sentence := fun a b => decidable_of_iff _ (same_iff a b)

/-! ## Scopes and labels -/

/-- A sentence as the content of a scope: a sequence as it is, anything else on its own. -/
def asSequence : Sentence → Sequence
  | .sequence items => items
  | sentence => [sentence]

/-- The text of a label. -/
def asLabel? : Sentence → Option String
  | .label text => some text
  | _ => none

end Sentence

/-- The position of a label among the direct members of a scope. -/
def Sequence.findLabel? (sequence : Sequence) (label : String) : Option Nat :=
  sequence.findIdx? (·.asLabel? == some label)

end SentenceEngine
