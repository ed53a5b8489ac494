import SentenceEngine.Engine.Behaviour
import SentenceEngine.Scripts.Payload

/-!
# The built-in scripts

* `log` writes a message to the log.
* `set` assigns variables of the thread; null removes one.
* `if` hands control to one of two programs, depending on a condition on the variables.
-/

namespace SentenceEngine

namespace Behaviour

variable {σ ω : Type}

/-- Code that ends well. -/
def succeed : Behaviour σ ω Outcome := .pure (.ok ())

/-- Code that fails with one message. -/
def failWith (message : String) : Behaviour σ ω Outcome := .pure (.error (.ofMessage message))

/-- Hands control to a program; a refusal is a failure. -/
def handOver (context : Context) (program : Sequence) (entry : Option String) :
    Behaviour σ ω Outcome :=
  .ask (.transfer context program entry) fun
    | .ok _ => succeed
    | .error error => failWith error.message

end Behaviour

namespace Scripts

variable {σ : Type}

/-- The code of a script that reads a payload and has no abort hook. -/
def reading {α : Type} (decode : Instruction → Except DecodeError α)
    (act : Context → α → Behaviour σ Wait Outcome) : Script σ where
  execute context :=
    match context.instruction.payload decode with
    | .ok payload => act context payload
    | .error error => .failWith error.message
  abort _ := .pure ()

/-- Writes a message to the log. -/
def log : Script σ :=
  reading LogPayload.decode fun context payload =>
    .log (.note context.thread "log" (.array [.string context.name, .string payload.message]))
      .succeed

/-- Assigns variables, in the order of their names. -/
def assign (thread : ThreadId) : Members → Behaviour σ Wait Outcome
  | [] => .succeed
  | (name, value) :: rest => .ask (.setVar thread name value) fun _ => assign thread rest

/-- Assigns variables of the thread. -/
def set : Script σ :=
  reading SetPayload.decode fun context payload => assign context.thread payload.assignments

/-- Hands control to the program that a condition on the variables chooses, if there is one. -/
def choose : Script σ :=
  reading IfPayload.decode fun context payload =>
    .ask (.vars context.thread) fun vars =>
      let lookup (name : String) : Json := (Dictionary.find? vars name).getD .null
      match (Condition.evaluate lookup payload.condition).result with
      | .error error => .failWith error.message
      | .ok holds =>
        match if holds then some payload.holds else payload.fails with
        | some branch => .handOver context branch.asSequence none
        | none => .succeed

/-- A script that does nothing. -/
def idle : Script σ := ⟨fun _ => .succeed, fun _ => .pure ()⟩

/-- The code of the built-in scripts. -/
def code (script : ScriptId) : Script σ :=
  if script = "log" then log
  else if script = "set" then set
  else if script = "if" then choose
  else idle

/-- The factory of a built-in script; each is an origin of its own. -/
def factory (script : ScriptId) (fields : Fields) : Factory := ⟨script, some fields, script⟩

/-- The built-in scripts under their usual names, in the order of their registration. -/
def builtin : List (String × Factory) :=
  [("log", factory "log" LogPayload.fields), ("set", factory "set" SetPayload.fields),
    ("if", factory "if" IfPayload.fields)]

end Scripts
end SentenceEngine
