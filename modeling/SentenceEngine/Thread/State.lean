import SentenceEngine.Thread.Error
import SentenceEngine.Thread.Frame

/-!
# Threads

A thread walks one program. At most one script is in flight; every dispatch takes a fresh ticket,
and a script whose ticket is no longer the one in flight has no say over the thread.

The operations here change one thread and say what has to happen outside of it: which script to
abort and what the cursor came to.
-/

namespace SentenceEngine

/-- Numbers the threads in the order of their creation. -/
abbrev ThreadId := Nat

/-- What a script knows about its run: the thread, its ticket, and the instruction. -/
structure Context where
  thread : ThreadId
  ticket : Nat
  instruction : Instruction
deriving DecidableEq

/-- The name that the script was dispatched under. -/
def Context.name (context : Context) : String := context.instruction.handler

/-- A dispatched script. -/
structure Instance where
  script : ScriptId
  context : Context
deriving DecidableEq

/-- The life of a thread. -/
inductive Phase where
  | running
  /-- The services are being told; the state can still be read. -/
  | destroying
  | destroyed
deriving DecidableEq, Repr

/-- A thread. -/
structure ThreadState where
  id : ThreadId
  /-- The scripts, as they were registered when the thread was created. -/
  scripts : Registry
  /-- The services, as they were registered when the thread was created. -/
  services : ServiceSet
  phase : Phase
  /-- The stack of frames, the top one first. -/
  frames : List Frame
  vars : Members
  /-- The ticket of the last dispatch. -/
  ticket : Nat
  inFlight : Option Instance
  /-- Whether the cursor machine was set going. -/
  started : Bool
  /-- Whether a task for the first run waits and can be aborted. -/
  startPending : Bool
  /-- Whether the thread has terminated for everyone who waits for it. -/
  ended : Bool
  /-- The tickets of the scripts that were told to stop. -/
  cancelled : List Nat

/-- What the cursor machine of a thread came to. -/
inductive Arrival where
  | idle
  | exhausted
  | fatal (error : ThreadError)
  | dispatch (script : Instance)

/-- A script that lost its place, and what comes next. -/
structure Advance where
  aborted : Option Instance
  arrival : Arrival

/-- The position of an entry label, the start of the sequence without one. -/
def Sequence.entry (sequence : Sequence) : Option String → Except ThreadError Nat
  | none => .ok 0
  | some label =>
    match sequence.findLabel? label with
    | some index => .ok index
    | none => .error (.unknownEntryLabel label)

namespace ThreadState

/-! ## Looking -/

/-- Whether the thread runs. -/
def isRunning (t : ThreadState) : Bool := t.phase == .running

/-- Whether a ticket is the one of the script in flight. -/
def isCurrent (t : ThreadState) (ticket : Nat) : Bool :=
  t.isRunning && (t.inFlight.map (·.context.ticket)) == some ticket

/-- Whether a script was told to stop. -/
def isCancelled (t : ThreadState) (ticket : Nat) : Bool := t.ended || ticket ∈ t.cancelled

/-- A variable; null when it is absent. -/
def getVar (t : ThreadState) (name : String) : Json := (t.vars.find? name).getD .null

/-- The frames from the bottom up. -/
def position (t : ThreadState) : List FrameView := (t.frames.map (·.view)).reverse

/-- The number of frames. -/
def depth (t : ThreadState) : Nat := t.frames.length

/-! ## Changing -/

/-- A thread at the start of a program, or at one of its labels. -/
def create (id : ThreadId) (scripts : Registry) (services : ServiceSet) (program : Sequence)
    (vars : Members) (entry : Option String) : Except ThreadError ThreadState :=
  if program.isEmpty then .error .emptyProgram
  else do
    let start ← program.entry entry
    .ok {
      id, scripts, services, vars
      phase := .running
      frames := [Frame.new program start false]
      ticket := 0
      inFlight := none
      started := false
      startPending := false
      ended := false
      cancelled := [] }

/-- Writes a variable; null removes it. Nothing happens once the thread is gone. -/
def setVar (t : ThreadState) (name : String) (value : Json) : ThreadState :=
  if t.phase = .destroyed then t
  else if value.isNull then { t with vars := t.vars.erase name }
  else { t with vars := t.vars.insert name value }

/-- Moves the cursor to the next instruction and dispatches it under a fresh ticket. Whatever was in
flight loses its place, also when the instruction turns out to have no script. -/
def run (t : ThreadState) : Advance × ThreadState :=
  if !t.isRunning then (⟨none, .idle⟩, t)
  else
    match Frame.seek t.frames with
    | (.stuck, frames) => (⟨none, .idle⟩, { t with frames })
    | (.finish, frames) => (⟨none, .exhausted⟩, { t with frames })
    | (.instruction i, frames) =>
      match t.scripts.create i.handler with
      | .error error =>
        (⟨t.inFlight, .fatal (.dispatch error)⟩, { t with frames, inFlight := none })
      | .ok script =>
        let next : Instance := ⟨script, ⟨t.id, t.ticket + 1, i⟩⟩
        (⟨t.inFlight, .dispatch next⟩,
          { t with frames, ticket := t.ticket + 1, inFlight := some next })

/-- The first run. Nothing happens when something else has set the thread going. -/
def resume (t : ThreadState) : Advance × ThreadState :=
  let t := { t with startPending := false }
  if t.started || t.inFlight.isSome then (⟨none, .idle⟩, t) else run { t with started := true }

/-- Puts a program on top of the stack and goes on in it, for an outside caller or for a script that
has to be the one in flight. When the program ends, the frame below goes on after the instruction
that was in flight; if none was, it goes on where it stands. -/
def transfer (t : ThreadState) (caller : Option Context) (program : Sequence)
    (entry : Option String) : Except ThreadError (Advance × ThreadState) := do
  if !t.isRunning then .error .notRunning
  if let some context := caller then
    if !t.isCurrent context.ticket then .error (.superseded context.name)
  let start ← program.entry entry
  let frame := Frame.new program start t.inFlight.isSome
  .ok (run { t with started := true, frames := frame :: t.frames })

/-- Goes on after the script in flight has ended well. -/
def complete (t : ThreadState) : Advance × ThreadState :=
  run { t with
    inFlight := none
    frames := match t.frames with
      | [] => []
      | frame :: below => frame.advance :: below }

/-- Drops the program, the variables and whatever waits. -/
def clear (t : ThreadState) : ThreadState :=
  { t with phase := .destroyed, frames := [], vars := [], inFlight := none, startPending := false }

end ThreadState
end SentenceEngine
