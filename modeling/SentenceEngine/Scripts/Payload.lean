import SentenceEngine.Condition.Shape
import SentenceEngine.Json.Decoding
import SentenceEngine.Sentence

/-!
# Payloads of the built-in scripts

What `log`, `set` and `if` read from the parameters of an instruction: the fields that a validation
asks for, and the typed data that the scripts work with.
-/

namespace SentenceEngine

namespace Instruction

/-- A parameter that a payload cannot do without. -/
def require (i : Instruction) (key : String) : Except DecodeError Json :=
  match i.param? key with
  | some value => .ok value
  | none => .error (.missingField key)

/-- A parameter that is a program. -/
def decodeProgram (value : Json) : Except DecodeError Sentence :=
  (Sentence.ofJson value).mapError fun e => .other e.message

/-- Reads a payload; a failure names the script. -/
def payload {α : Type} (i : Instruction) (decode : Instruction → Except DecodeError α) :
    Except ProgramError α :=
  (decode i).mapError fun e => .invalidPayload i.handler e.message

end Instruction

namespace Scripts

/-! ## The script `log` -/

/-- A message for the log. -/
structure LogPayload where
  message : String

namespace LogPayload

/-- The fields of the payload. -/
def fields : Fields := .ofEntries [("message", .string)]

/-- Reads the payload. -/
def decode (i : Instruction) : Except DecodeError LogPayload := do
  .ok ⟨← (← i.require "message").decodeString⟩

end LogPayload

/-! ## The script `set` -/

/-- Variables with their new values. -/
structure SetPayload where
  assignments : Members

namespace SetPayload

/-- The fields of the payload. -/
def fields : Fields := .ofEntries [("variables", Schema.object.withDynamicKeys)]

/-- Reads the payload. -/
def decode (i : Instruction) : Except DecodeError SetPayload := do
  .ok ⟨← (← i.require "variables").decodeMembers⟩

end SetPayload

/-! ## The script `if` -/

/-- A condition and the programs to choose from. -/
structure IfPayload where
  condition : Json
  holds : Sentence
  fails : Option Sentence

namespace IfPayload

/-- The fields of the payload. -/
def fields : Fields :=
  .ofEntries [("where", Condition.schema), ("then", .sentences), ("else", Schema.sentences.asOptional)]

/-- Reads the payload; its members are looked at in the order of their keys, and only then are
missing ones reported. -/
def decode (i : Instruction) : Except DecodeError IfPayload := do
  let fails ← match i.param? "else" with
    | some value => Json.decodeOption Instruction.decodeProgram value
    | none => .ok none
  let holds ← match i.param? "then" with
    | some value => (Instruction.decodeProgram value).map some
    | none => .ok none
  let condition ← i.require "where"
  match holds with
  | some holds => .ok ⟨condition, holds, fails⟩
  | none => .error (.missingField "then")

end IfPayload

end Scripts
end SentenceEngine
