import SentenceEngine.Scenario.Action

/-!
# The scripts and services of a scenario

Scripts:

* `record` writes its tag to the log.
* `transfer` hands control to a program.
* `act` does what its payload says.
* `run` writes its name and its payload to the log; it stands for any other script.

Services: the recorder writes down everything it is told, a meddler answers some of it with
actions, and a silent service does nothing.
-/

namespace SentenceEngine.Scenario

/-! ## Services -/

/-- The hooks that a meddler can answer. -/
inductive HookKind where
  | coreInitialize | coreDestroy | created | willDestroy | before | after | error
deriving DecidableEq, Repr

namespace HookKind

/-- The written name. -/
def name : HookKind → String
  | .coreInitialize => "core_initialize"
  | .coreDestroy => "core_destroy"
  | .created => "created"
  | .willDestroy => "will_destroy"
  | .before => "before"
  | .after => "after"
  | .error => "error"

/-- The kind of a notification. -/
def ofNotification : Notification → HookKind
  | .coreInitialize => .coreInitialize
  | .coreDestroy => .coreDestroy
  | .created _ => .created
  | .willDestroy _ => .willDestroy
  | .before _ _ => .before
  | .after _ _ => .after
  | .error _ _ => .error

end HookKind

/-- The handler that a notification names. -/
def handler? : Notification → Option String
  | .before _ instruction => some instruction.handler
  | .after _ instruction => some instruction.handler
  | .coreInitialize => none
  | .coreDestroy => none
  | .created _ => none
  | .willDestroy _ => none
  | .error _ _ => none

/-- A service that answers one hook with actions, some number of times. -/
structure Meddler where
  hook : String
  /-- Only notifications that name this handler are answered. -/
  handler : Option String
  /-- How many more times it answers. -/
  left : Nat
  actions : List Action

/-- Reads a meddler. -/
def Meddler.ofJson (value : Json) : Meddler where
  hook := Action.text (value.member "on")
  handler := (value.member "handler").asString?
  left := match value.member "times" with
    | .number (.integer times _ _) => if times < 0 then 1 else times.toNat
    | _ => 1
  actions := Action.listOfJson (value.member "do")

/-- Whether a meddler answers a notification. -/
def Meddler.answers (meddler : Meddler) (notification : Notification) : Bool :=
  meddler.hook == (HookKind.ofNotification notification).name && 0 < meddler.left &&
    (meddler.handler.isNone || meddler.handler == handler? notification)

/-- A service of a scenario. -/
inductive Player where
  | recorder
  | meddler (meddler : Meddler)
  | silent

/-- What the scripts and services of a scenario remember: the services by number. -/
structure Stage where
  players : List Player

/-- Counts an answer of a meddler. -/
def Stage.countAnswer (service : ServiceId) (stage : Stage) : Stage :=
  match stage.players[service]? with
  | some (.meddler meddler) =>
    ⟨stage.players.set service (.meddler { meddler with left := meddler.left - 1 })⟩
  | _ => stage

/-- What is written down about a notification. -/
def recorded : Notification → Behaviour Stage Empty Json
  | .coreInitialize => do
    pure (.ofStrings ((← Behaviour.request (.core .scriptNames)).getD []))
  | .coreDestroy => do
    pure (.ofNat ((← Behaviour.request (.core .threads)).getD []).length)
  | .created thread => do
    pure (.array ((← Behaviour.request (.position thread)).map (·.toJson)))
  | .willDestroy thread => do pure (.object (← Behaviour.request (.vars thread)))
  | .before thread instruction => do
    let position ← Behaviour.request (.position thread)
    pure (.array [.string instruction.handler, .array (position.map (·.toJson))])
  | .after _ instruction => pure (.string instruction.handler)
  | .error _ error => pure (.array [.string error.code, .string error.message])

/-- Writes down what it is told. -/
def recorder : Service Stage := fun notification => do
  let detail ← recorded notification
  Behaviour.note notification.thread? (HookKind.ofNotification notification).name detail
  pure (.ok ())

/-- Does actions about a thread; about none, the only thing to do is to fail. -/
def meddle (thread : Option ThreadId) (actions : List Action) : Doing Stage Empty Unit :=
  match thread with
  | some thread => Actor.performAll ⟨thread, none, none⟩ actions
  | none =>
    match actions with
    | .fail message contexts :: _ => throw (contexts.foldl Failure.within (.ofMessage message))
    | _ :: _ => Doing.fail "unknown action"
    | [] => pure ()

/-- Answers a notification as the service of a number does. -/
def service (id : ServiceId) : Service Stage := fun notification => do
  let stage ← Behaviour.updateState fun stage => stage
  match stage.players[id]? with
  | some .recorder => recorder notification
  | some (.meddler meddler) =>
    if meddler.answers notification then
      let _ ← Behaviour.updateState (Stage.countAnswer id)
      Behaviour.note notification.thread? "hook" (.string meddler.hook)
      (meddle notification.thread? meddler.actions).run
    else pure (.ok ())
  | some .silent => pure (.ok ())
  | none => pure (.ok ())

/-! ## Scripts -/

/-- A parameter, null when it is absent. -/
def param (context : Context) (key : String) : Json := (context.instruction.param? key).getD .null

/-- A script of a scenario: its abort hook writes to the log. -/
def scripted (execute : Context → Doing Stage Wait Unit) : Script Stage where
  execute context := (execute context).run
  abort context := .note context.thread "abort" (.string context.name)

/-- Writes its tag to the log. -/
def record : Script Stage :=
  scripted fun context =>
    ExceptT.lift (Behaviour.note context.thread "record" (param context "tag"))

/-- Hands control to a program. -/
def transfer : Script Stage :=
  scripted fun context => do
    let program ← Doing.program (param context "body")
    match ← Doing.request (.transfer context program (param context "entry").asString?) with
    | .ok _ => pure ()
    | .error error => Doing.fail error.message

/-- Does what its payload says. -/
def act : Script Stage :=
  scripted fun context =>
    Actor.performAll ⟨context.thread, some context, some Behaviour.await⟩
      (Action.listOfJson (param context "do"))

/-- Writes its name and its payload to the log. -/
def run : Script Stage :=
  scripted fun context =>
    ExceptT.lift (Behaviour.note context.thread "run"
      (.array [.string context.name, .object context.instruction.params]))

/-- The code of the scripts of a scenario, the built-in ones among them. -/
def script (id : ScriptId) : Script Stage :=
  if id = "record" then record
  else if id = "transfer" then transfer
  else if id = "act" then act
  else if id = "run" then run
  else Scripts.code id

/-- All code of a scenario. -/
def plugins : Plugins Stage := ⟨script, service⟩

/-- A factory for a script of a scenario; all of them have one origin. -/
def factory (id : ScriptId) (fields : Fields) : Factory := ⟨"scenario", some fields, id⟩

/-- The scripts that every scenario has. -/
def scripts : List (String × Factory) :=
  [("record", factory "record" (.ofEntries [("tag", .string)])),
    ("transfer", factory "transfer"
      (.ofEntries [("body", .sentences), ("entry", Schema.string.asOptional)])),
    ("act", factory "act"
      (.ofEntries [("do", (Schema.array (.array .any)).asOptional)]))]

end SentenceEngine.Scenario
