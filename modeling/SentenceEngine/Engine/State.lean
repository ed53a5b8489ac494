import SentenceEngine.Engine.Behaviour
import SentenceEngine.Validation.Pass

/-!
# The state of the engine

The engine holds the registries, the default configuration of threads, and the threads themselves.
Beside them stand the tasks that are ready to run, first in first out, the scripts that wait, and
the permits that are left.
-/

namespace SentenceEngine

/-- Something that is ready to run. -/
inductive Task (σ : Type) where
  /-- The first run of a thread. -/
  | start (thread : ThreadId)
  /-- A dispatched script that has not begun. -/
  | begin (script : Instance)
  /-- A script that need not wait any longer. -/
  | resume (context : Context) (rest : Behaviour σ Wait Outcome)

/-- Whether a task is the first run of a thread. -/
def Task.isStartOf {σ : Type} (id : ThreadId) : Task σ → Bool
  | .start thread => thread == id
  | .begin _ => false
  | .resume _ _ => false

/-- A script that waits. -/
structure Suspended (σ : Type) where
  reason : Wait
  context : Context
  rest : Behaviour σ Wait Outcome

/-- The task of a script that need not wait any longer. -/
def Suspended.wake {σ : Type} (s : Suspended σ) : Task σ := .resume s.context s.rest

/-- The state of the engine. -/
structure Engine (σ : Type) where
  /-- The state of the scripts and services. -/
  host : σ
  scripts : Registry
  services : ServiceSet
  /-- What threads start with. -/
  defaults : ThreadConfig
  /-- Whether the default program passed a validation. -/
  validated : Bool
  initialized : Bool
  /-- Whether anyone still holds the engine itself; threads go on without it. -/
  alive : Bool
  /-- All threads ever created, by number. -/
  threads : List ThreadState
  /-- The threads that belong to the engine, the oldest first. -/
  active : List ThreadId
  /-- What is ready to run, the first to run first. -/
  queue : List (Task σ)
  /-- What waits, the longest first. -/
  suspended : List (Suspended σ)
  /-- The permits that nobody has taken, by tag. -/
  permits : Dictionary Nat
  /-- The log, the latest entry first. -/
  log : List LogEntry

namespace Engine

variable {σ : Type}

/-- An engine without scripts and services. -/
def new (host : σ) (config : CoreConfig) : Engine σ where
  host
  scripts := .empty
  services := []
  defaults := config.thread
  validated := false
  initialized := false
  alive := true
  threads := []
  active := []
  queue := []
  suspended := []
  permits := []
  log := []

/-! ## Threads -/

/-- A thread by its number. -/
def thread? (e : Engine σ) (id : ThreadId) : Option ThreadState := e.threads[id]?

/-- Puts a thread into the place of its earlier state. -/
def setThread (e : Engine σ) (t : ThreadState) : Engine σ :=
  { e with threads := e.threads.set t.id t }

/-- Changes a thread. -/
def modifyThread (e : Engine σ) (id : ThreadId) (f : ThreadState → ThreadState) : Engine σ :=
  match e.thread? id with
  | some t => e.setThread (f t)
  | none => e

/-- The services that a thread was created with. -/
def servicesOf (e : Engine σ) (id : ThreadId) : ServiceSet :=
  ((e.thread? id).map (·.services)).getD []

/-- Reads something off a thread. -/
def look {α : Type} (e : Engine σ) (id : ThreadId) (absent : α) (f : ThreadState → α) : α :=
  ((e.thread? id).map f).getD absent

/-! ## The log -/

/-- Adds an entry to the log. -/
def write (e : Engine σ) (entry : LogEntry) : Engine σ := { e with log := entry :: e.log }

/-- Adds a warning to the log. -/
def warn (e : Engine σ) (text : String) (particulars : List (String × Json)) : Engine σ :=
  e.write (.warning text (.ofEntries particulars))

/-- The warning about a label that is declared again. -/
def warnDuplicate (e : Engine σ) (duplicate : DuplicateLabel) : Engine σ :=
  e.warn "duplicate label"
    [("label", .string duplicate.label), ("path", .string duplicate.path.text)]

/-- The warning about a service that failed. -/
def warnHook (e : Engine σ) (notification : Notification) (failure : Failure) : Engine σ :=
  e.warn "service hook failed"
    [("hook", .string notification.hook), ("error", .string failure.message)]

/-- The warning about a script that has another name already. -/
def warnAlias (e : Engine σ) (name existing : String) : Engine σ :=
  e.warn "script factory registered under another name"
    [("name", .string name), ("existing", .string existing)]

/-! ## Tasks -/

/-- Puts a task at the end of the queue. -/
def enqueue (e : Engine σ) (task : Task σ) : Engine σ := { e with queue := e.queue ++ [task] }

/-- Takes the first run of a thread out of the queue, if it can still be aborted. -/
def dropStart (e : Engine σ) (id : ThreadId) : Engine σ :=
  if e.look id false (·.startPending) then
    let e := { e with queue := e.queue.filter fun task => !task.isStartOf id }
    e.modifyThread id fun t => { t with startPending := false }
  else e

/-- Lets the scripts that wait for their cancellation and meet a condition go on. -/
def wakeCancelled (e : Engine σ) (meant : Context → Bool) : Engine σ :=
  let wakes (s : Suspended σ) : Bool := s.reason == .cancellation && meant s.context
  { e with
    queue := e.queue ++ (e.suspended.filter wakes).map (·.wake)
    suspended := e.suspended.filter (fun s => !wakes s) }

/-- Tells a script to stop. -/
def cancel (e : Engine σ) (context : Context) : Engine σ :=
  let e := e.modifyThread context.thread fun t =>
    { t with cancelled := context.ticket :: t.cancelled }
  e.wakeCancelled (fun c => c.thread == context.thread && c.ticket == context.ticket)

/-- Lets everyone go on who waits for the end of a thread, and takes it out of the active ones. -/
def release (e : Engine σ) (id : ThreadId) : Engine σ :=
  let e := e.modifyThread id fun t => { t with ended := true }
  let e := e.wakeCancelled (fun c => c.thread == id)
  { e with active := e.active.filter (· ≠ id) }

/-- Hands one permit each to a number of scripts that wait for it, those first that have waited
longest. -/
def handPermits (e : Engine σ) (tag : String) : Nat → Engine σ
  | 0 => e
  | n + 1 =>
    let wants (s : Suspended σ) : Bool := s.reason == .permit tag
    match e.suspended.find? wants with
    | some s => handPermits { e.enqueue s.wake with suspended := e.suspended.eraseP wants } tag n
    | none => e

/-- Keeps a number of permits for scripts to come. -/
def keepPermits (e : Engine σ) (tag : String) (count : Nat) : Engine σ :=
  { e with permits := e.permits.insert tag ((e.permits.find? tag).getD 0 + count) }

/-- Gives out a number of permits: to the scripts that wait for one, and the rest is kept. -/
def givePermits (e : Engine σ) (tag : String) (count : Nat) : Engine σ :=
  let waiting := e.suspended.countP (·.reason == .permit tag)
  (e.handPermits tag (min count waiting)).keepPermits tag (count - waiting)

/-- Takes a permit that is left. -/
def takePermit? (e : Engine σ) (tag : String) : Option (Engine σ) :=
  match e.permits.find? tag with
  | some (n + 1) => some { e with permits := e.permits.insert tag n }
  | _ => none

end Engine
end SentenceEngine
