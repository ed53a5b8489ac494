import SentenceEngine.Config.Basic
import SentenceEngine.Thread.State

/-!
# Behaviour of scripts and services

The code of scripts and services is a tree of what it does: requests to the engine with a
continuation for each reply, entries for the log, uses of a state of its own, and, in scripts only,
waits. The state `σ` belongs to all scripts and services together; the engine does not look at it.
-/

namespace SentenceEngine

/-! ## Requests -/

/-- Requests to the engine itself. -/
inductive CoreQuery where
  /-- The active threads, the oldest first. -/
  | threads
  | createThread (overrides : Option ThreadConfig)
  | destroyAll
  /-- Destroys every thread and tells the services that the engine is gone. -/
  | destroyCore
  /-- Tells the services that the engine is ready; once only, until it is destroyed. -/
  | initializeCore
  | configure (config : ThreadConfig)
  | validate (program : Sentence)
  | registerScript (name : String) (factory : Factory)
  | registerService (service : ServiceId)
  | scriptNames
  | aliases (name : String)

/-- What the engine replies to a request to itself. -/
abbrev CoreQuery.Reply : CoreQuery → Type
  | .threads => List ThreadId
  | .createThread _ => Except EngineError ThreadId
  | .destroyAll => Unit
  | .destroyCore => Unit
  | .initializeCore => Except EngineError Unit
  | .configure _ => Except EngineError Unit
  | .validate _ => Except EngineError ValidationReport
  | .registerScript _ _ => Except EngineError Unit
  | .registerService _ => Except EngineError Unit
  | .scriptNames => List String
  | .aliases _ => List String

/-- Requests about threads, and to the engine itself as long as it is there. -/
inductive Query where
  | isRunning (thread : ThreadId)
  | hasEnded (thread : ThreadId)
  | getVar (thread : ThreadId) (name : String)
  | vars (thread : ThreadId)
  | position (thread : ThreadId)
  | isCancelled (context : Context)
  | setVar (thread : ThreadId) (name : String) (value : Json)
  | execute (thread : ThreadId) (program : Sequence) (entry : Option String)
  /-- A script hands control to a program. -/
  | transfer (context : Context) (program : Sequence) (entry : Option String)
  | destroy (thread : ThreadId)
  | hasCore
  | core (query : CoreQuery)

/-- What is replied to a request. A request to an engine that is gone gets nothing. -/
abbrev Query.Reply : Query → Type
  | .isRunning _ => Bool
  | .hasEnded _ => Bool
  | .getVar _ _ => Json
  | .vars _ => Members
  | .position _ => List FrameView
  | .isCancelled _ => Bool
  | .setVar _ _ _ => Unit
  | .execute _ _ _ => Except ThreadError Unit
  | .transfer _ _ _ => Except ThreadError Unit
  | .destroy _ => Except ThreadError Unit
  | .hasCore => Bool
  | .core query => Option query.Reply

/-! ## The log -/

/-- An entry of the log. -/
inductive LogEntry where
  /-- Written by a script or a service, about a thread or about none. -/
  | note (thread : Option ThreadId) (what : String) (detail : Json)
  /-- A warning of the engine, with its particulars. -/
  | warning (text : String) (particulars : Members)

/-! ## Code -/

/-- What a script can wait for. -/
inductive Wait where
  /-- A permit that is given out under a tag. -/
  | permit (tag : String)
  /-- Being told to stop. -/
  | cancellation
deriving DecidableEq, Repr

/-- Code over a state `σ` that can wait for `ω` and gives an `α`. -/
inductive Behaviour (σ ω α : Type) where
  | pure (value : α)
  | ask (query : Query) (next : query.Reply → Behaviour σ ω α)
  | log (entry : LogEntry) (next : Behaviour σ ω α)
  /-- Changes the state and goes on with what it was before. -/
  | update (change : σ → σ) (next : σ → Behaviour σ ω α)
  | wait (reason : ω) (next : Behaviour σ ω α)

namespace Behaviour

variable {σ ω α β : Type}

/-- One piece of code after another. -/
def bind : Behaviour σ ω α → (α → Behaviour σ ω β) → Behaviour σ ω β
  | .pure value, f => f value
  | .ask query next, f => .ask query fun reply => bind (next reply) f
  | .log entry next, f => .log entry (bind next f)
  | .update change next, f => .update change fun state => bind (next state) f
  | .wait reason next, f => .wait reason (bind next f)

instance : Monad (Behaviour σ ω) where
  pure := Behaviour.pure
  bind := Behaviour.bind

/-- A request. -/
def request (query : Query) : Behaviour σ ω query.Reply := .ask query .pure

/-- An entry for the log. -/
def note (thread : Option ThreadId) (what : String) (detail : Json) : Behaviour σ ω Unit :=
  .log (.note thread what detail) (.pure ())

/-- Waits. -/
def await (reason : ω) : Behaviour σ ω Unit := .wait reason (.pure ())

/-- Changes the state and gives what it was before. -/
def updateState (change : σ → σ) : Behaviour σ ω σ := .update change .pure

end Behaviour

/-- What a script or a service says in the end. -/
abbrev Outcome := Except Failure Unit

/-! ## Scripts and services -/

/-- The code of a script: what it does when it runs, and what it does when it is aborted. -/
structure Script (σ : Type) where
  execute : Context → Behaviour σ Wait Outcome
  abort : Context → Behaviour σ Empty Unit

/-- What services are told. -/
inductive Notification where
  | coreInitialize
  | coreDestroy
  | created (thread : ThreadId)
  | willDestroy (thread : ThreadId)
  | before (thread : ThreadId) (instruction : Instruction)
  | after (thread : ThreadId) (instruction : Instruction)
  | error (thread : ThreadId) (error : ThreadError)

namespace Notification

/-- The name of the hook that a notification goes to. -/
def hook : Notification → String
  | .coreInitialize => "on_core_initialize"
  | .coreDestroy => "on_core_destroy"
  | .created _ => "on_thread_created"
  | .willDestroy _ => "on_thread_will_destroy"
  | .before _ _ => "on_before_script"
  | .after _ _ => "on_after_script"
  | .error _ _ => "on_thread_error"

/-- The thread that a notification is about. -/
def thread? : Notification → Option ThreadId
  | .coreInitialize => none
  | .coreDestroy => none
  | .created thread => some thread
  | .willDestroy thread => some thread
  | .before thread _ => some thread
  | .after thread _ => some thread
  | .error thread _ => some thread

end Notification

/-- The code of a service. -/
abbrev Service (σ : Type) := Notification → Behaviour σ Empty Outcome

/-- The code behind the names of scripts and services. -/
structure Plugins (σ : Type) where
  script : ScriptId → Script σ
  service : ServiceId → Service σ

end SentenceEngine
