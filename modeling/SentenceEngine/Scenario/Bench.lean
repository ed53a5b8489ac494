import SentenceEngine.Engine.Step
import SentenceEngine.Scenario.Cast

/-!
# The bench

An engine with the scripts and services of a scenario, under the hands of an outside caller: a
request is served at once, and tasks run only when the caller lets them.
-/

namespace SentenceEngine

namespace LogEntry

/-- The value of an entry: the thread that it is about, what happened, and the particulars. -/
def toJson : LogEntry → Json
  | .note thread what detail =>
    .array [.ofOption (thread.map Json.ofNat), .string what, detail]
  | .warning text particulars =>
    .array [.null, .string "warn", .array [.string text, .object particulars]]

/-- Every entry with the thread that it belongs to; a warning belongs to the entry before it. -/
def withThreads : Option ThreadId → List LogEntry → List (Option ThreadId × LogEntry)
  | _, [] => []
  | _, .note thread what detail :: rest =>
    (thread, .note thread what detail) :: withThreads thread rest
  | last, .warning text particulars :: rest =>
    (last, .warning text particulars) :: withThreads last rest

/-- Whether entries about one thread come before entries about another one. -/
def threadLe : Option ThreadId → Option ThreadId → Bool
  | none, _ => true
  | some _, none => false
  | some a, some b => a ≤ b

/-- The entries thread by thread, those about none first; each group keeps its order. -/
def groupByThread (entries : List LogEntry) : List LogEntry :=
  ((withThreads none entries).mergeSort fun a b => threadLe a.1 b.1).map (·.2)

end LogEntry

namespace Scenario

/-- An engine with a scenario's scripts and services. -/
abbrev Bench := Machine Stage

namespace Bench

/-- A bench with nothing registered. -/
def new (config : CoreConfig) : Bench := ⟨.new ⟨[]⟩ config, []⟩

/-- Serves a request and the work that it leaves. -/
def ask (bench : Bench) (query : Query) : query.Reply × Bench := Machine.serve plugins bench query

/-- Runs tasks until none is ready. -/
def settle (bench : Bench) : Bench := Machine.runTasks plugins Machine.patience bench

/-- Gives out permits under a tag. -/
def release (bench : Bench) (tag : String) (count : Nat) : Bench :=
  { bench with engine := bench.engine.givePermits tag count }

/-- Lets go of the engine itself. -/
def dropCore (bench : Bench) : Bench :=
  { bench with engine := { bench.engine with alive := false } }

/-- Adds a service, which takes the next number. It is not registered yet. -/
def addPlayer (bench : Bench) (player : Player) : ServiceId × Bench :=
  let players := bench.engine.host.players
  (players.length, { bench with engine := { bench.engine with host := ⟨players ++ [player]⟩ } })

/-- The entries that were written to the log, the first one first, and the bench with an empty
log. -/
def takeLog (bench : Bench) : List LogEntry × Bench :=
  (bench.engine.log.reverse, { bench with engine := { bench.engine with log := [] } })

/-- Whether every active thread has terminated. -/
def allEnded (bench : Bench) : Bool :=
  bench.engine.active.all fun id => bench.engine.look id true (·.ended)

/-- Registers scripts one after the other, up to the first that is refused. -/
def registerScripts (bench : Bench) : List (String × Factory) → Except EngineError Bench
  | [] => .ok bench
  | (name, factory) :: rest => do
    match bench.ask (.core (.registerScript name factory)) with
    | (some (.error error), _) => .error error
    | (_, bench) => registerScripts bench rest

/-- Registers services one after the other. -/
def registerPlayers (bench : Bench) : List Player → Except EngineError Bench
  | [] => .ok bench
  | player :: rest => do
    let (id, bench) := bench.addPlayer player
    match bench.ask (.core (.registerService id)) with
    | (some (.error error), _) => .error error
    | (_, bench) => registerPlayers bench rest

end Bench
end Scenario
end SentenceEngine
