import SentenceEngine.CommandLine.Request
import SentenceEngine.Config.File
import SentenceEngine.Engine.Step
import SentenceEngine.Json.Printer
import SentenceEngine.Scripts.Builtin

/-!
# Carrying out requests

An engine with the built-in scripts runs or checks one program. What is printed and the exit code
depend on the words of the command line and on the content of files, and on nothing else.
-/

namespace SentenceEngine.CommandLine

/-- What is printed, and the exit code. -/
structure Transcript where
  exit : Nat
  stdout : String
  stderr : String
deriving DecidableEq, Repr

namespace Transcript

/-- Success, with something to print. -/
def success (text : String) : Transcript := ⟨0, text, ""⟩

/-- A failure, after something was printed. -/
def failure (printed : String) (error : CausedError) : Transcript := ⟨1, printed, error.report⟩

/-- What is said instead of carrying out a request. -/
def ofHalt : Halt → Transcript
  | .help page => success page
  | .idle page => ⟨2, "", page⟩
  | .misuse error => ⟨2, "", error.report⟩

end Transcript

/-! ## The engine -/

/-- What a service has seen of a thread: its last variables, and its failure if there was one. -/
structure Sighting where
  vars : Members
  failure : Option String

/-- A service that keeps the last variables and the failure of the threads that it sees. -/
def watcher : Service Sighting
  | .willDestroy thread =>
    .ask (.vars thread) fun vars => .update (fun seen => { seen with vars }) fun _ => .succeed
  | .error _ error =>
    .update (fun seen => { seen with failure := some error.message }) fun _ => .succeed
  | _ => .succeed

/-- The built-in scripts, and the watcher as the only service. -/
def plugins : Plugins Sighting := ⟨Scripts.code, fun _ => watcher⟩

/-- An engine with the built-in scripts. -/
def engine (config : CoreConfig) : Engine Sighting :=
  Scripts.builtin.foldl (fun e entry => (e.registerScript entry.1 entry.2).2)
    (.new ⟨[], none⟩ config)

/-- An error of the engine has the inner error as its cause, unless it is only a text. -/
def causedBy (error : EngineError) : CausedError :=
  match error with
  | .configuration _ => .bare error.message
  | error => ⟨error.message, some error.inner⟩

/-! ## Commands -/

/-- What a new thread is to have over the settings of the engine. -/
def RunRequest.overrides (request : RunRequest) (program : Sentence) : ThreadConfig :=
  let config := request.vars.foldl (fun config entry => config.withVar entry.1 entry.2)
    (ThreadConfig.ofProgram program)
  match request.entryLabel with
  | some label => config.withEntryLabel label
  | none => config

/-- Runs a program in an engine that one service watches, up to the end of the engine. -/
def runProgram (e : Engine Sighting) (overrides : ThreadConfig) :
    Except EngineError (ThreadId × Sighting) := do
  let m : Machine Sighting := ⟨{ e with services := [0] }, []⟩
  let (_, m) := m.serve plugins (.core .initializeCore)
  match m.serve plugins (.core (.createThread (some overrides))) with
  | (some (.ok thread), m) =>
    let m := m.runTasks plugins Machine.patience
    let (_, m) := m.serve plugins (.core .destroyCore)
    .ok (thread, m.engine.host)
  | (some (.error error), _) => .error error
  | (none, m) => .ok (0, m.engine.host)

/-- Carries out a request to run a program. -/
def RunRequest.perform (request : RunRequest) (config : CoreConfig) (content : FileContent)
    (threadName : ThreadId → String) : Transcript :=
  match Sentence.load request.program content with
  | .error error => .failure "" error
  | .ok program =>
    match runProgram (engine config) (request.overrides program) with
    | .error error => .failure "" (causedBy error)
    | .ok (thread, seen) =>
      let printed := (Json.object seen.vars).pretty ++ "\n"
      match seen.failure with
      | some failure =>
        .failure printed (.bare ("thread " ++ threadName thread ++ " failed: " ++ failure))
      | none => .success printed

/-- The report about a valid program. -/
def reportText (report : ValidationReport) : String :=
  "Program is valid\nLabels:\n" ++
    String.join (report.labels.map fun label => "  " ++ label ++ "\n") ++
    String.join (report.warnings.map fun warning => "warning: " ++ warning.message ++ "\n")

/-- Carries out a request to check a program. -/
def performCheck (path : String) (config : CoreConfig) (content : FileContent) : Transcript :=
  match Sentence.load path content with
  | .error error => .failure "" error
  | .ok program =>
    match ((engine config).validate program).1 with
    | .error error => .failure "" (causedBy (.validation error))
    | .ok report => .success (reportText report)

/-! ## Requests -/

/-- The settings of a request. -/
def Request.settings (request : Request) (read : String → FileContent) :
    Except CausedError CoreConfig :=
  match request.config with
  | some path => CoreConfig.load path (read path)
  | none => .ok .empty

/-- Carries out a request. -/
def Request.perform (request : Request) (read : String → FileContent)
    (threadName : ThreadId → String) : Transcript :=
  match request.settings read with
  | .error error => .failure "" error
  | .ok config =>
    match request.command with
    | .run run => run.perform config (read run.program) threadName
    | .check path => performCheck path config (read path)

/-- The files that a request reads. -/
def Request.files (request : Request) : List String :=
  request.config.toList ++
    match request.command with
    | .run run => [run.program]
    | .check path => [path]

/-- Carries out what the words of a command line ask for. -/
def perform (words : List String) (read : String → FileContent) (threadName : ThreadId → String) :
    Transcript :=
  match Request.read words with
  | .ok request => request.perform read threadName
  | .error halt => .ofHalt halt

end SentenceEngine.CommandLine
