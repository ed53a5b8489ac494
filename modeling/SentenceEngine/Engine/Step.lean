import SentenceEngine.Engine.State

/-!
# The machine

Requests can come while others are being served: scripts, services and abort hooks all call back
into the engine. The machine therefore keeps a stack of what is still to be done, and a step takes
the top of it. A request answers at once and leaves the rest of its work on the stack, above the
code that asked for it; the code goes on when that work is done.

Tasks run one after the other, each until it waits or ends; what a script's end brings about belongs
to its task.

**Deliberate scope limits** (documented, not hidden): there is one event loop, and all requests are
made inside of it. Nothing acts on the engine while an item of work is done, and outside callers act
between two tasks only; several workers that act on one engine at a time are not modelled. A thread
that is to be created where no event loop is there to run its scripts is refused before anything is
looked at, and this refusal is left out.
-/

namespace SentenceEngine

/-! ## Work -/

/-- One item of work on the stack. -/
inductive Work (σ : Type) where
  /-- The code of a script. -/
  | script (context : Context) (code : Behaviour σ Wait Outcome)
  /-- The code of a service that was told something. -/
  | hook (notification : Notification) (code : Behaviour σ Empty Outcome)
  /-- The code of an abort hook. -/
  | abortHook (context : Context) (code : Behaviour σ Empty Unit)
  /-- Tells services something, one after the other. -/
  | notify (services : ServiceSet) (notification : Notification)
  /-- Tells the services that are registered by then. -/
  | announce (notification : Notification)
  /-- Tells a script to stop, and runs its abort hook. -/
  | abort (script : Instance)
  /-- Does what the cursor machine of a thread came to. -/
  | arrive (thread : ThreadId) (arrival : Arrival)
  /-- Makes a task of a dispatched script. -/
  | spawn (script : Instance)
  /-- Goes on after a script that ended well, if it is still in flight. -/
  | complete (context : Context)
  /-- Reports a fatal error and destroys the thread. -/
  | fail (thread : ThreadId) (error : ThreadError)
  /-- Destroys a thread if it runs. -/
  | destroy (thread : ThreadId)
  /-- Takes everything away from a thread whose services were told. -/
  | clear (thread : ThreadId)
  /-- Ends a thread for everyone. -/
  | release (thread : ThreadId)
  /-- Makes a task of the first run of a thread. -/
  | start (thread : ThreadId)
  /-- Lets the engine be initialized again. -/
  | reopen

/-- A reply, the work that the request leaves, and the engine after it. -/
structure Response (σ ρ : Type) where
  reply : ρ
  todo : List (Work σ)
  engine : Engine σ

namespace Engine

variable {σ : Type}

/-- A request that leaves no work. -/
def respond {ρ : Type} (e : Engine σ) (reply : ρ) : Response σ ρ := ⟨reply, [], e⟩

/-- Work for a thread that moved. -/
def advanceWork (id : ThreadId) (advance : Advance) : List (Work σ) :=
  match advance.aborted with
  | some script => [.abort script, .arrive id advance.arrival]
  | none => [.arrive id advance.arrival]

/-! ## Requests about threads -/

/-- Hands control of a thread to a program. A first run that was still to come is given up. -/
def transfer (e : Engine σ) (id : ThreadId) (caller : Option Context) (program : Sequence)
    (entry : Option String) : Response σ (Except ThreadError Unit) :=
  match e.thread? id with
  | none => e.respond (.error .notRunning)
  | some t =>
    match t.transfer caller program entry with
    | .error error => e.respond (.error error)
    | .ok (advance, t) => ⟨.ok (), advanceWork id advance, (e.setThread t).dropStart id⟩

/-- Destroys a thread that runs. -/
def destroyThread (e : Engine σ) (id : ThreadId) : Response σ (Except ThreadError Unit) :=
  if e.look id false (·.isRunning) then ⟨.ok (), [.destroy id], e⟩
  else e.respond (.error .notRunning)

/-! ## Requests to the engine -/

/-- Validates a program against the registered scripts. -/
def validate (e : Engine σ) (program : Sentence) :
    Except ValidationError ValidationReport × Engine σ :=
  let examination := examine e.scripts.fields? program
  (examination.result, examination.duplicates.foldl warnDuplicate e)

/-- Lays a configuration over the defaults. A program in it has to be valid. -/
def configure (e : Engine σ) (config : ThreadConfig) : Except EngineError Unit × Engine σ :=
  match config.sentences with
  | none => (.ok (), { e with defaults := e.defaults.merge config })
  | some program =>
    match e.validate program with
    | (.error error, e) => (.error (.validation error), e)
    | (.ok _, e) => (.ok (), { e with defaults := e.defaults.merge config, validated := true })

/-- Validates the program of a new thread, unless it is the default program and known to be valid. -/
def validateFor (e : Engine σ) (program : Sentence) (replaced : Bool) :
    Except EngineError Unit × Engine σ :=
  if replaced || !e.validated then
    match e.validate program with
    | (.error error, e) => (.error (.validation error), e)
    | (.ok _, e) => (.ok (), if replaced then e else { e with validated := true })
  else (.ok (), e)

/-- Adds a thread to those that exist and are active. -/
def addThread (e : Engine σ) (t : ThreadState) : Engine σ :=
  { e with threads := e.threads ++ [t], active := e.active ++ [t.id] }

/-- Creates a thread from the defaults with `overrides` over them. -/
def createThread (e : Engine σ) (overrides : Option ThreadConfig) :
    Response σ (Except EngineError ThreadId) :=
  let overrides := overrides.getD .empty
  let config := e.defaults.merge overrides
  match config.sentences with
  | none => e.respond (.error (.thread .emptyProgram))
  | some program =>
    match e.validateFor program overrides.sentences.isSome with
    | (.error error, e) => e.respond (.error error)
    | (.ok _, e) =>
      let id := e.threads.length
      match ThreadState.create id e.scripts e.services program.asSequence (config.vars.getD [])
          config.entryLabel with
      | .error error => e.respond (.error (.thread error))
      | .ok t => ⟨.ok id, [.notify e.services (.created id), .start id], e.addThread t⟩

/-- Registers a script. A second name for scripts of one origin is allowed, with a warning. -/
def registerScript (e : Engine σ) (name : String) (factory : Factory) :
    Except EngineError Unit × Engine σ :=
  match e.scripts.register name factory with
  | .error error => (.error (.registry error), e)
  | .ok scripts =>
    let warned := match e.scripts.existing? factory.origin with
      | some existing => e.warnAlias name existing
      | none => e
    (.ok (), { warned with scripts })

/-- Registers a service. -/
def registerService (e : Engine σ) (service : ServiceId) : Except EngineError Unit × Engine σ :=
  match e.services.register service with
  | .error error => (.error (.registry error), e)
  | .ok services => (.ok (), { e with services })

/-- Serves a request to the engine. -/
def answerCore (e : Engine σ) : (query : CoreQuery) → Response σ query.Reply
  | .threads => e.respond e.active
  | .createThread overrides => e.createThread overrides
  | .destroyAll => ⟨(), e.active.map .destroy, e⟩
  | .destroyCore => ⟨(), e.active.map .destroy ++ [.announce .coreDestroy, .reopen], e⟩
  | .initializeCore =>
    if e.initialized then e.respond (.error (.configuration "core is already initialized"))
    else ⟨.ok (), [.announce .coreInitialize], { e with initialized := true }⟩
  | .configure config => let (reply, e) := e.configure config; e.respond reply
  | .validate program =>
    let (reply, e) := e.validate program
    e.respond (reply.mapError .validation)
  | .registerScript name factory =>
    let (reply, e) := e.registerScript name factory
    e.respond reply
  | .registerService service => let (reply, e) := e.registerService service; e.respond reply
  | .scriptNames => e.respond e.scripts.names
  | .aliases name => e.respond (e.scripts.aliases name)

/-- Serves a request. -/
def answer (e : Engine σ) : (query : Query) → Response σ query.Reply
  | .isRunning id => e.respond (e.look id false (·.isRunning))
  | .hasEnded id => e.respond (e.look id true (·.ended))
  | .getVar id name => e.respond (e.look id .null (·.getVar name))
  | .vars id => e.respond (e.look id [] (·.vars))
  | .position id => e.respond (e.look id [] (·.position))
  | .isCancelled context =>
    e.respond (e.look context.thread true (·.isCancelled context.ticket))
  | .setVar id name value => (e.modifyThread id (·.setVar name value)).respond ()
  | .execute id program entry => e.transfer id none program entry
  | .transfer context program entry => e.transfer context.thread (some context) program entry
  | .destroy id => e.destroyThread id
  | .hasCore => e.respond e.alive
  | .core query =>
    if e.alive then
      let response := e.answerCore query
      ⟨some response.reply, response.todo, response.engine⟩
    else e.respond none

/-! ## Code -/

/-- What a step of code comes to. -/
inductive CodeStep (σ ω α : Type) where
  | done (value : α)
  | next (todo : List (Work σ)) (code : Behaviour σ ω α) (engine : Engine σ)
  | blocked (reason : ω) (rest : Behaviour σ ω α)

/-- A step of code. -/
def stepCode {ω α : Type} (e : Engine σ) : Behaviour σ ω α → CodeStep σ ω α
  | .pure value => .done value
  | .ask query next =>
    let response := e.answer query
    .next response.todo (next response.reply) response.engine
  | .log entry next => .next [] next (e.write entry)
  | .update change next => .next [] (next e.host) { e with host := change e.host }
  | .wait reason rest => .blocked reason rest

end Engine

/-! ## Steps -/

/-- The engine, and what is still to be done before anything else runs, the next item first. -/
structure Machine (σ : Type) where
  engine : Engine σ
  stack : List (Work σ)

namespace Machine

variable {σ : Type}

/-- What follows when a script ends. An end after the thread is gone is not reported; a failure
counts only while the script is in flight. -/
def settle (e : Engine σ) (context : Context) : Outcome → List (Work σ) × Engine σ
  | .ok _ =>
    if e.look context.thread false (·.isRunning) then
      ([.notify (e.servicesOf context.thread) (.after context.thread context.instruction),
        .complete context], e)
    else ([], e)
  | .error failure =>
    if e.look context.thread false (·.isCurrent context.ticket) then
      ([.fail context.thread (.script context.name failure)],
        e.modifyThread context.thread fun t => { t with inFlight := none })
    else ([], e)

/-- What follows when a script waits: it goes on at once if what it waits for is there. -/
def suspend (e : Engine σ) (context : Context) (rest : Behaviour σ Wait Outcome) :
    Wait → List (Work σ) × Engine σ
  | .permit tag =>
    match e.takePermit? tag with
    | some e => ([.script context rest], e)
    | none => ([], { e with suspended := e.suspended ++ [⟨.permit tag, context, rest⟩] })
  | .cancellation =>
    if e.look context.thread true (·.isCancelled context.ticket) then ([.script context rest], e)
    else ([], { e with suspended := e.suspended ++ [⟨.cancellation, context, rest⟩] })

/-- What an item of work brings about: more work, which comes next, and a new state. -/
def perform (plugins : Plugins σ) (e : Engine σ) : Work σ → List (Work σ) × Engine σ
  | .script context code =>
    match e.stepCode code with
    | .done outcome => settle e context outcome
    | .next todo code e => (todo ++ [.script context code], e)
    | .blocked reason rest => suspend e context rest reason
  | .hook notification code =>
    match e.stepCode code with
    | .done (.ok _) => ([], e)
    | .done (.error failure) => ([], e.warnHook notification failure)
    | .next todo code e => (todo ++ [.hook notification code], e)
    | .blocked reason _ => nomatch reason
  | .abortHook context code =>
    match e.stepCode code with
    | .done _ => ([], e)
    | .next todo code e => (todo ++ [.abortHook context code], e)
    | .blocked reason _ => nomatch reason
  | .notify [] _ => ([], e)
  | .notify (service :: services) notification =>
    ([.hook notification (plugins.service service notification), .notify services notification], e)
  | .announce notification => ([.notify e.services notification], e)
  | .abort script =>
    ([.abortHook script.context ((plugins.script script.script).abort script.context)],
      e.cancel script.context)
  | .arrive _ .idle => ([], e)
  | .arrive id .exhausted => ([.destroy id], e)
  | .arrive id (.fatal error) => ([.fail id error], e)
  | .arrive id (.dispatch script) =>
    ([.notify (e.servicesOf id) (.before id script.context.instruction), .spawn script], e)
  | .spawn script => ([], e.enqueue (.begin script))
  | .complete context =>
    match e.thread? context.thread with
    | none => ([], e)
    | some t =>
      if t.isCurrent context.ticket then
        let (advance, t) := t.complete
        (Engine.advanceWork context.thread advance, e.setThread t)
      else ([], e)
  | .fail id error => ([.notify (e.servicesOf id) (.error id error), .destroy id], e)
  | .destroy id =>
    if e.look id false (·.isRunning) then
      ([.notify (e.servicesOf id) (.willDestroy id), .clear id],
        e.modifyThread id fun t => { t with phase := .destroying })
    else ([], e)
  | .clear id =>
    let script := e.look id none (·.inFlight)
    ((script.map Work.abort).toList ++ [.release id],
      (e.dropStart id).modifyThread id (·.clear))
  | .release id => ([], e.release id)
  | .start id =>
    ([], (e.enqueue (.start id)).modifyThread id fun t =>
      if t.isRunning && !t.started then { t with startPending := true } else t)
  | .reopen => ([], { e with initialized := false })

/-- One step of the work on the stack; nothing when there is none. -/
def step? (plugins : Plugins σ) (m : Machine σ) : Option (Machine σ) :=
  match m.stack with
  | [] => none
  | work :: rest =>
    let (todo, engine) := perform plugins m.engine work
    some ⟨engine, todo ++ rest⟩

/-- Takes up a task of an engine that has nothing else to do. -/
def take (plugins : Plugins σ) (e : Engine σ) : Task σ → Machine σ
  | .start id =>
    match e.thread? id with
    | none => ⟨e, []⟩
    | some t =>
      let (advance, t) := t.resume
      ⟨e.setThread t, Engine.advanceWork id advance⟩
  | .begin script =>
    ⟨e, [.script script.context ((plugins.script script.script).execute script.context)]⟩
  | .resume context rest => ⟨e, [.script context rest]⟩

/-- Takes the first task that is ready, once nothing else is to be done. -/
def nextTask? (plugins : Plugins σ) (m : Machine σ) : Option (Machine σ) :=
  match m.stack, m.engine.queue with
  | [], task :: queue => some (take plugins { m.engine with queue } task)
  | _, _ => none

/-! ## Runs -/

/-- Works off the stack. The first argument bounds the number of steps. -/
def drain (plugins : Plugins σ) : Nat → Machine σ → Machine σ
  | 0, m => m
  | fuel + 1, m =>
    match m.step? plugins with
    | some m => drain plugins fuel m
    | none => m

/-- Runs tasks until none is ready. The first argument bounds the number of steps. -/
def runTasks (plugins : Plugins σ) : Nat → Machine σ → Machine σ
  | 0, m => m
  | fuel + 1, m =>
    match m.step? plugins with
    | some m => runTasks plugins fuel m
    | none =>
      match m.nextTask? plugins with
      | some m => runTasks plugins fuel m
      | none => m

/-- A request from outside: its reply, and the machine with the work that it leaves. -/
def ask (m : Machine σ) (query : Query) : query.Reply × Machine σ :=
  let response := m.engine.answer query
  (response.reply, ⟨response.engine, response.todo ++ m.stack⟩)

/-- More steps than anything that comes to an end takes. -/
def patience : Nat := 1000000000000

/-- A request from outside, together with the work that it leaves. -/
def serve (plugins : Plugins σ) (m : Machine σ) (query : Query) : query.Reply × Machine σ :=
  let (reply, m) := m.ask query
  (reply, m.drain plugins patience)

end Machine
end SentenceEngine
