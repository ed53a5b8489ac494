import SentenceEngine.Scripts.Builtin

/-!
# Actions

A scenario tries out an engine with scripts and services that do as they are told. What they do is
a list of actions; most of them write what came of them to the log. An action that fails ends the
list and is the failure of the script or of the service.
-/

namespace SentenceEngine.Scenario

/-- One thing to do. Programs are values that may turn out not to be sentences. -/
inductive Action where
  | say (value : Json)
  | get (name : String)
  | vars
  | position
  | set (name : String) (value : Json)
  | increment (name : String)
  /-- Hands control to a program, as the script in flight if a script does it. -/
  | execute (program : Json) (entry : Option String)
  /-- Hands control to a program, as an outside caller. -/
  | executeOutside (program : Json) (entry : Option String)
  /-- Hands control to a program held in a variable. -/
  | call (name : String) (entry : Option String)
  /-- Hands control to a program, and fails if that fails. -/
  | mustExecute (program : Json) (entry : Option String)
  | destroy
  | destroyAll
  | inspect
  | create (program : Json)
  | fail (message : String) (contexts : List String)
  | wait (tag : String)
  | waitCancelled
  | unknown
deriving DecidableEq

namespace Action

/-- The text of a value, empty when it is none. -/
def text (value : Json) : String := value.asString?.getD ""

/-- Reads an action: a list with its name and its arguments. Missing arguments are null. -/
def ofJson : Json → Action
  | .array (.string name :: arguments) =>
    let argument (i : Nat) : Json := arguments[i]?.getD .null
    let entry := (argument 1).asString?
    match name with
    | "say" => .say (argument 0)
    | "get" => .get (text (argument 0))
    | "vars" => .vars
    | "pos" => .position
    | "set" => .set (text (argument 0)) (argument 1)
    | "incr" => .increment (text (argument 0))
    | "exec" => .execute (argument 0) entry
    | "texec" => .executeOutside (argument 0) entry
    | "call" => .call (text (argument 0)) entry
    | "must_exec" => .mustExecute (argument 0) entry
    | "destroy" => .destroy
    | "destroy_all" => .destroyAll
    | "info" => .inspect
    | "create" => .create (argument 0)
    | "fail" => .fail (text (argument 0)) ((arguments.drop 1).map text)
    | "wait" => .wait (text (argument 0))
    | "wait_cancel" => .waitCancelled
    | _ => .unknown
  | _ => .unknown

/-- Reads a list of actions. -/
def listOfJson : Json → List Action
  | .array items => items.map ofJson
  | _ => []

end Action

/-! ## Doing -/

/-- Who acts: on which thread, as which script if it is one, and whether it can wait. -/
structure Actor (σ ω : Type) where
  thread : ThreadId
  script : Option Context
  wait : Option (Wait → Behaviour σ ω Unit)

/-- Code that may fail. -/
abbrev Doing (σ ω α : Type) := ExceptT Failure (Behaviour σ ω) α

namespace Doing

variable {σ ω : Type}

/-- A request. -/
def request (query : Query) : Doing σ ω query.Reply := ExceptT.lift (Behaviour.request query)

/-- Fails with one message. -/
def fail {α : Type} (message : String) : Doing σ ω α := throw (Failure.ofMessage message)

/-- A program that a value stands for. -/
def program (value : Json) : Doing σ ω Sequence :=
  match Sentence.ofJson value with
  | .ok sentence => pure sentence.asSequence
  | .error error => fail error.message

end Doing

namespace Actor

variable {σ ω : Type}

/-- Writes what came of an action to the log. -/
def note (actor : Actor σ ω) (what : String) (detail : Json) : Doing σ ω Unit :=
  ExceptT.lift (Behaviour.note actor.thread what detail)

/-- Hands control to a program, as the script if there is one. -/
def execute (actor : Actor σ ω) (program : Sequence) (entry : Option String) :
    Doing σ ω (Except ThreadError Unit) :=
  match actor.script with
  | some context => Doing.request (.transfer context program entry)
  | none => Doing.request (.execute actor.thread program entry)

/-- Writes down whether a request was granted, or the kind of the error. -/
def noteResult (actor : Actor σ ω) (what : String) (result : Except ThreadError Unit) :
    Doing σ ω Unit :=
  match result with
  | .ok _ => actor.note what (.string "ok")
  | .error error => actor.note what (.string error.code)

/-- A whole number of 64 bits with a sign; anything else counts as zero. -/
def wholeNumber : Json → Int
  | .number (.integer value _ _) => if value < -leastInteger then value else 0
  | _ => 0

/-- What an actor can see of its thread and of itself. -/
def inspection (actor : Actor σ ω) : Doing σ ω Json := do
  let running ← Doing.request (.isRunning actor.thread)
  let position ← Doing.request (.position actor.thread)
  let threads ← Doing.request (.core .threads)
  let hasCore ← Doing.request .hasCore
  let cancelled ← match actor.script with
    | some context => do pure (Json.bool (← Doing.request (.isCancelled context)))
    | none => pure Json.null
  pure <| Json.ofEntries
    [("running", .bool running), ("depth", .ofNat position.length), ("core", .bool hasCore),
      ("active", .bool ((threads.getD []).contains actor.thread)),
      ("name", .ofOption (actor.script.map fun context => .string context.name)),
      ("cancelled", cancelled)]

/-- Does one thing. -/
def perform (actor : Actor σ ω) : Action → Doing σ ω Unit
  | .say value => actor.note "say" value
  | .get name => do actor.note "get" (← Doing.request (.getVar actor.thread name))
  | .vars => do actor.note "vars" (.object (← Doing.request (.vars actor.thread)))
  | .position => do
    let position ← Doing.request (.position actor.thread)
    actor.note "pos" (.array (position.map (·.toJson)))
  | .set name value => Doing.request (.setVar actor.thread name value)
  | .increment name => do
    let value := wholeNumber (← Doing.request (.getVar actor.thread name)) + 1
    Doing.request (.setVar actor.thread name (.number (.ofInt value)))
    actor.note "incr" (.number (.ofInt value))
  | .execute program entry => do
    actor.noteResult "exec" (← actor.execute (← Doing.program program) entry)
  | .executeOutside program entry => do
    let program ← Doing.program program
    actor.noteResult "texec" (← Doing.request (.execute actor.thread program entry))
  | .call name entry => do
    let program ← Doing.program (← Doing.request (.getVar actor.thread name))
    actor.noteResult "call" (← actor.execute program entry)
  | .mustExecute program entry => do
    match ← actor.execute (← Doing.program program) entry with
    | .ok _ => actor.note "must_exec" (.string "ok")
    | .error error => Doing.fail error.message
  | .destroy => do actor.noteResult "destroy" (← Doing.request (.destroy actor.thread))
  | .destroyAll => do
    match ← Doing.request (.core .destroyAll) with
    | some _ => actor.note "destroy_all" (.string "ok")
    | none => actor.note "destroy_all" (.string "no core")
  | .inspect => do actor.note "info" (← actor.inspection)
  | .create program => do
    if ← Doing.request .hasCore then
      let program ← match Sentence.ofJson program with
        | .ok sentence => pure sentence
        | .error error => Doing.fail error.message
      match ← Doing.request (.core (.createThread (some (.ofProgram program)))) with
      | some (.ok thread) => actor.note "create" (.ofNat thread)
      | some (.error error) => actor.note "create" (.string error.code)
      | none => actor.note "create" (.string "no core")
    else actor.note "create" (.string "no core")
  | .fail message contexts => throw (contexts.foldl Failure.within (.ofMessage message))
  | .wait tag =>
    match actor.wait with
    | some wait => do
      ExceptT.lift (wait (.permit tag))
      actor.note "woke" (.string tag)
    | none => Doing.fail "unknown action"
  | .waitCancelled =>
    match actor.wait with
    | some wait => do
      ExceptT.lift (wait .cancellation)
      actor.note "cancelled" .null
    | none => Doing.fail "unknown action"
  | .unknown => Doing.fail "unknown action"

/-- Does one thing after the other. -/
def performAll (actor : Actor σ ω) : List Action → Doing σ ω Unit
  | [] => pure ()
  | action :: rest => do
    actor.perform action
    actor.performAll rest

end Actor
end SentenceEngine.Scenario
