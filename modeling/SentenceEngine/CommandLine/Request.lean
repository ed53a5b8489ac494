import SentenceEngine.CommandLine.Words
import SentenceEngine.Json.Reader

/-!
# Requests on the command line

There are two: to run a program to its end, and to check one without running it. Settings for the
engine may be named in front of either.
-/

namespace SentenceEngine.CommandLine

/-- The name that the program goes by. -/
def programName : String := "strand-cli"

/-- A program to run, and what it starts with. -/
structure RunRequest where
  program : String
  entryLabel : Option String
  /-- Initial variables, the first one first. -/
  vars : List (String × Json)

/-- What to do. -/
inductive Command where
  | run (request : RunRequest)
  | check (program : String)

/-- What to do, and under which settings. -/
structure Request where
  config : Option String
  command : Command

/-! ## Help -/

/-- The page about everything. -/
def helpPage : String := "\n".intercalate [
  "Run JSON sentence-tree programs as logical threads",
  "",
  "Usage: " ++ programName ++ " [OPTIONS] <COMMAND>",
  "",
  "Commands:",
  "  run    Run a program until it finishes",
  "  check  Validate a program and list its labels",
  "  help   Print this message or the help of the given subcommand(s)",
  "",
  "Options:",
  "  -c, --config <CONFIG>  Core configuration file (JSON)",
  "  -h, --help             Print help",
  ""]

/-- The page about running. -/
def runPage : String := "\n".intercalate [
  "Run a program until it finishes",
  "",
  "Usage: " ++ programName ++ " run [OPTIONS] <PROGRAM>",
  "",
  "Arguments:",
  "  <PROGRAM>  Program file (JSON sentence tree)",
  "",
  "Options:",
  "      --entry-label <ENTRY_LABEL>  Direct label to start at",
  "      --var <VARS>                 Initial variable as NAME=JSON (bare text is taken as a string)",
  "  -h, --help                       Print help",
  ""]

/-- The page about checking. -/
def checkPage : String := "\n".intercalate [
  "Validate a program and list its labels",
  "",
  "Usage: " ++ programName ++ " check <PROGRAM>",
  "",
  "Arguments:",
  "  <PROGRAM>  Program file (JSON sentence tree)",
  "",
  "Options:",
  "  -h, --help  Print help",
  ""]

/-- The page about help. -/
def helpHelpPage : String := "\n".intercalate [
  "Print this message or the help of the given subcommand(s)",
  "",
  "Usage: " ++ programName ++ " help [COMMAND]...",
  "",
  "Arguments:",
  "  [COMMAND]...  Print help for the subcommand(s)",
  ""]

/-- The page of a command. -/
def commandPage? : String → Option String
  | "run" => some runPage
  | "check" => some checkPage
  | "help" => some helpHelpPage
  | _ => none

/-- The page that is asked for by the name of a command; no command has commands of its own. -/
def readHelp : List String → Halt
  | [] => .help helpPage
  | name :: more =>
    match commandPage? name, more with
    | none, _ => .misuse (.unknownCommand name)
    | some page, [] => .help page
    | some _, word :: _ => .misuse (.unknownCommand word)

/-! ## Arguments -/

/-- A path, which may not be empty. -/
def checkPath (argument value : String) : Except UsageError String :=
  if value = "" then .error (.missingValue argument) else .ok value

/-- Puts a value into a place that holds one only. -/
def storeOnce (argument : String) (value : String) : Option String → Except UsageError (Option String)
  | some _ => .error (.repeated argument)
  | none => .ok (some value)

/-- A variable as `NAME=JSON`. What is no JSON stands for itself. -/
def readVariable (argument text : String) : Except UsageError (String × Json) :=
  match splitAtEquals text with
  | (_, none) => .error (.invalidValue text argument ("expected NAME=VALUE, got '" ++ text ++ "'"))
  | (name, some value) =>
    if name = "" then
      .error (.invalidValue text argument ("variable name is empty in '" ++ text ++ "'"))
    else match Json.read value with
      | .ok json => .ok (name, json)
      | .error _ => .ok (name, .string value)

/-- The file of the settings. -/
def configArgument : Argument (Option String) where
  name := "--config <CONFIG>"
  store value config := do
    storeOnce "--config <CONFIG>" value config *> some <$> checkPath "--config <CONFIG>" value

/-- What may follow the name of the program. -/
def topGrammar : Grammar (Option String) where
  help := helpPage
  options := [⟨"config", some 'c', configArgument⟩]
  positionals := []
  commands := ["run", "check", "help"]

/-- The arguments of a command that are known so far. -/
structure CommandValues where
  program : Option String
  entryLabel : Option String
  vars : List (String × Json)

/-- No arguments. -/
def CommandValues.none : CommandValues := ⟨.none, .none, []⟩

/-- The file of the program. -/
def programArgument : Argument CommandValues where
  name := "<PROGRAM>"
  store value values := do .ok { values with program := ← checkPath "<PROGRAM>" value }

/-- The label to start at. -/
def entryLabelArgument : Argument CommandValues where
  name := "--entry-label <ENTRY_LABEL>"
  store value values := do
    .ok { values with
      entryLabel := ← storeOnce "--entry-label <ENTRY_LABEL>" value values.entryLabel }

/-- An initial variable; there may be several. -/
def varArgument : Argument CommandValues where
  name := "--var <VARS>"
  store value values := do
    .ok { values with vars := values.vars ++ [← readVariable "--var <VARS>" value] }

/-- What may follow `run`. -/
def runGrammar : Grammar CommandValues where
  help := runPage
  options := [⟨"entry-label", none, entryLabelArgument⟩, ⟨"var", none, varArgument⟩]
  positionals := [programArgument]
  commands := []

/-- What may follow `check`. -/
def checkGrammar : Grammar CommandValues where
  help := checkPage
  options := []
  positionals := [programArgument]
  commands := []

/-! ## Reading -/

/-- Reads the words of a command, which needs a program. -/
def readCommand (grammar : Grammar CommandValues) (make : String → CommandValues → Command)
    (words : List String) : Except Halt Command := do
  match ← grammar.read (grammar.start .none) words with
  | .complete values =>
    match values.program with
    | some program => .ok (make program values)
    | none => .error (.misuse (.missingArguments [programArgument.name]))
  | .command name _ _ => .error (.misuse (.unknownCommand name))

/-- Reads a command by its name. -/
def Command.read (name : String) (words : List String) : Except Halt Command :=
  match name with
  | "run" =>
    readCommand runGrammar
      (fun program values => .run ⟨program, values.entryLabel, values.vars⟩) words
  | "check" => readCommand checkGrammar (fun program _ => .check program) words
  | "help" => .error (readHelp words)
  | name => .error (.misuse (.unknownCommand name))

/-- Reads the words that follow the name of the program. An argument in front of a command is
checked after those of the command. -/
def Request.read (words : List String) : Except Halt Request := do
  match ← topGrammar.read (topGrammar.start none) words with
  | .complete none => .error (.idle helpPage)
  | .complete (some _) => .error (.misuse (.missingCommand programName))
  | .command name words progress =>
    let command ← Command.read name words
    let progress ← progress.settle.mapError .misuse
    .ok ⟨progress.values, command⟩

end SentenceEngine.CommandLine
