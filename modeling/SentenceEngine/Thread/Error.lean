import SentenceEngine.Registry

/-!
# Errors of threads and of the engine

What goes wrong with a thread, and what a request to the engine answers when it fails. A failure of
a script or of a service is a chain of messages, the outermost first. Every error has a wording and
a code that names its kind.
-/

namespace SentenceEngine

/-- Why a script or a service failed: messages with their contexts, the outermost first. -/
structure Failure where
  chain : List String
deriving DecidableEq, Repr

namespace Failure

/-- A failure with one message. -/
def ofMessage (message : String) : Failure := ⟨[message]⟩

/-- Wraps a failure into a context. -/
def within (failure : Failure) (context : String) : Failure := ⟨context :: failure.chain⟩

/-- The messages of the chain in one line. -/
def message (failure : Failure) : String := ": ".intercalate failure.chain

end Failure

/-- What goes wrong with a thread that is created and run inside an event loop. -/
inductive ThreadError where
  | emptyProgram
  | unknownEntryLabel (label : String)
  | notRunning
  /-- A script that is no longer the one in flight asked for control. -/
  | superseded (name : String)
  /-- An instruction has no script. -/
  | dispatch (error : RegistryError)
  | script (handler : String) (failure : Failure)
deriving DecidableEq, Repr

/-- The wording of an error. -/
def ThreadError.message : ThreadError → String
  | .emptyProgram => "Program is empty"
  | .unknownEntryLabel label => "Entry label '" ++ label ++ "' not found"
  | .notRunning => "Thread is not running"
  | .superseded name => "Script '" ++ name ++ "' is no longer the running instruction"
  | .dispatch error => "Dispatch failed: " ++ error.message
  | .script handler failure => "Script '" ++ handler ++ "' failed: " ++ failure.message

/-- What a request to the engine answers when it fails. -/
inductive EngineError where
  | registry (error : RegistryError)
  | thread (error : ThreadError)
  | validation (error : ValidationError)
  | configuration (text : String)
deriving DecidableEq

namespace EngineError

/-- What stands in front of the wording of the inner error. -/
def heading : EngineError → String
  | .registry _ => "Registry error: "
  | .thread _ => "Thread error: "
  | .validation _ => "Validation error: "
  | .configuration _ => "Configuration error: "

/-- The wording of the inner error. -/
def inner : EngineError → String
  | .registry error => error.message
  | .thread error => error.message
  | .validation error => error.message
  | .configuration text => text

/-- The wording of an error. -/
def message (error : EngineError) : String := error.heading ++ error.inner

end EngineError

/-! ## Codes -/

/-- The kind of an error in a program. -/
def ProgramError.code : ProgramError → String
  | .invalidSentence _ => "Program.InvalidSentence"
  | .missingHandler => "Program.MissingHandler"
  | .invalidPayload _ _ => "Program.InvalidPayload"

/-- The kind of a violation. -/
def Violation.code : Violation → String
  | .typeMismatch _ _ => "Validation.TypeMismatch"
  | .tooShort _ _ => "Validation.TooShort"
  | .tooLong _ _ => "Validation.TooLong"
  | .belowMinimum _ _ => "Validation.BelowMinimum"
  | .aboveMaximum _ _ => "Validation.AboveMaximum"
  | .missingField => "Validation.MissingField"
  | .unexpectedKey _ => "Validation.UnexpectedKey"
  | .unresolvedLabel _ => "Validation.UnresolvedLabel"
  | .unresolvedReference _ => "Validation.UnresolvedReference"
  | .noAlternative _ => "Validation.NoAlternative"
  | .tooDeep => "Validation.TooDeep"
  | .invalidSentence _ => "Validation.InvalidSentence"
  | .unknownHandler _ => "Validation.UnknownHandler"

/-- The kind of an error of a registry. -/
def RegistryError.code : RegistryError → String
  | .duplicateScript _ => "Registry.DuplicateScript"
  | .missingSchema _ => "Registry.MissingSchema"
  | .duplicateService => "Registry.DuplicateService"
  | .unknownScript _ => "Registry.UnknownScript"

/-- The kind of an error of a thread. -/
def ThreadError.code : ThreadError → String
  | .emptyProgram => "Thread.EmptyProgram"
  | .unknownEntryLabel _ => "Thread.UnknownEntryLabel"
  | .notRunning => "Thread.NotRunning"
  | .superseded _ => "Thread.Superseded"
  | .dispatch _ => "Thread.Dispatch"
  | .script _ _ => "Thread.Script"

/-- The kind of an error is that of the inner error. -/
def EngineError.code : EngineError → String
  | .registry error => error.code
  | .thread error => error.code
  | .validation error => error.violation.code
  | .configuration _ => "Config"

end SentenceEngine
