import SentenceEngine.Text.Terminal

/-!
# The words of a command line

A command has arguments: options, which are named, and positional arguments, which are told by their
order. Each takes one value. The value of an option is attached to it (`--name=value`, `-nvalue`,
`-n=value`) or is the next word. After the word `--` every word is positional.

The value of an argument is checked when the next argument is met, or at the end, unless it is
attached to its option. A word that nothing takes is reported at once, whatever is still unchecked.
-/

namespace SentenceEngine.CommandLine

/-- What is wrong with a command line. -/
inductive UsageError where
  | unknownCommand (word : String)
  | unexpectedArgument (word : String)
  /-- A value is attached to an option that takes none. -/
  | unexpectedValue (value argument : String)
  | missingValue (argument : String)
  | invalidValue (value argument reason : String)
  | repeated (argument : String)
  | missingArguments (arguments : List String)
  | missingCommand (program : String)
deriving DecidableEq, Repr

/-- A part of a message in a style, between single quotes. -/
def mention (style : Text.Style) (text : String) : String := "'" ++ Text.styled style text ++ "'"

/-- The wording of an error on a terminal. -/
def UsageError.message : UsageError → String
  | .unknownCommand word => "unrecognized subcommand " ++ mention .invalid word
  | .unexpectedArgument word => "unexpected argument " ++ mention .invalid word ++ " found"
  | .unexpectedValue value argument =>
    "unexpected value " ++ mention .invalid value ++ " for " ++ mention .literal argument ++
      " found; no more were expected"
  | .missingValue argument =>
    "a value is required for " ++ mention .invalid argument ++ " but none was supplied"
  | .invalidValue value argument reason =>
    "invalid value " ++ mention .invalid value ++ " for " ++ mention .literal argument ++ ": " ++
      reason
  | .repeated argument =>
    "the argument " ++ mention .invalid argument ++ " cannot be used multiple times"
  | .missingArguments arguments =>
    "the following required arguments were not provided:" ++
      String.join (arguments.map fun argument => "\n  " ++ Text.styled .valid argument)
  | .missingCommand program =>
    mention .invalid program ++ " requires a subcommand but one was not provided"

/-- What is printed about an error, without the styles of a terminal. -/
def UsageError.report (error : UsageError) : String :=
  Text.unstyled (Text.styled .error "error:" ++ " " ++ error.message ++
    "\n\nFor more information, try " ++ mention .literal "--help" ++ ".\n")

/-- Why the words of a command line are not carried out. -/
inductive Halt where
  /-- Someone asked for a help page. -/
  | help (page : String)
  /-- There is nothing to do; a help page may be of use. -/
  | idle (page : String)
  | misuse (error : UsageError)
deriving DecidableEq, Repr

/-- One word by its form. -/
inductive Word where
  | escape
  | long (name : String) (value : Option String)
  | short (letter : Char) (rest : String)
  | plain (text : String)
deriving DecidableEq, Repr

/-- A text before and after its first equals sign. -/
def splitAtEquals (text : String) : String × Option String :=
  match text.toList.span (· ≠ '=') with
  | (front, []) => (String.ofList front, none)
  | (front, _ :: back) => (String.ofList front, some (String.ofList back))

/-- The form of a word. -/
def Word.ofString (text : String) : Word :=
  match text.toList with
  | ['-', '-'] => .escape
  | '-' :: '-' :: rest =>
    let (name, value) := splitAtEquals (String.ofList rest)
    .long name value
  | '-' :: letter :: rest => .short letter (String.ofList rest)
  | _ => .plain text

/-! ## Commands -/

/-- An argument of a command whose values are collected in an `α`. -/
structure Argument (α : Type) where
  /-- The name in messages. -/
  name : String
  /-- Checks a value and puts it into the collection. -/
  store : String → α → Except UsageError α

/-- An argument that is named. -/
structure NamedOption (α : Type) where
  long : String
  short : Option Char
  argument : Argument α

/-- What may follow the name of a command. -/
structure Grammar (α : Type) where
  help : String
  options : List (NamedOption α)
  positionals : List (Argument α)
  /-- The words that name another command, to which the words after them belong. -/
  commands : List String

/-- How far the words of a command have been read. -/
structure Progress (α : Type) where
  values : α
  /-- The argument that was met last and is not checked yet, with its value if that is known. -/
  pending : Option (Argument α × Option String)
  /-- The positional arguments that have no value yet. -/
  positionals : List (Argument α)
  /-- Whether every word from here on is positional. -/
  escaped : Bool

/-- What the words of a command come to. -/
inductive Reading (α : Type) where
  | complete (values : α)
  /-- Another command begins; the argument before it may not be checked yet. -/
  | command (name : String) (words : List String) (progress : Progress α)

namespace Progress

variable {α : Type}

/-- Whether an option still has to get its value. -/
def awaitsValue (p : Progress α) : Bool :=
  match p.pending with
  | some (_, none) => !p.escaped
  | _ => false

/-- Puts a value into the collection. -/
def store (p : Progress α) (argument : Argument α) (value : String) :
    Except UsageError (Progress α) := do
  .ok { p with values := ← argument.store value p.values }

/-- Checks the argument that was met last. -/
def settle (p : Progress α) : Except UsageError (Progress α) :=
  match p.pending with
  | none => .ok p
  | some (argument, none) => .error (.missingValue argument.name)
  | some (argument, some value) => { p with pending := none }.store argument value

end Progress

namespace Grammar

variable {α : Type}

/-- Takes an option with or without an attached value. -/
def takeOption (p : Progress α) (argument : Argument α) :
    Option String → Except UsageError (Progress α)
  | some value => do (← p.settle).store argument value
  | none => do .ok { ← p.settle with pending := some (argument, none) }

/-- The request for the help page, once the argument before it is checked. -/
def takeHelp (g : Grammar α) (p : Progress α) : Halt :=
  match p.settle with
  | .ok _ => .help g.help
  | .error error => .misuse error

/-- Takes an option by its name. -/
def takeLong (g : Grammar α) (p : Progress α) (name : String) (value : Option String) :
    Except Halt (Progress α) :=
  match g.options.find? (·.long == name) with
  | some option => (takeOption p option.argument value).mapError .misuse
  | none =>
    if name = "help" then
      match value with
      | some value => .error (.misuse (.unexpectedValue value "--help"))
      | none => .error (g.takeHelp p)
    else .error (.misuse (.unexpectedArgument ("--" ++ name)))

/-- Takes an option by its letter. What follows the letter is the value; one equals sign in front
of it does not count. -/
def takeShort (g : Grammar α) (p : Progress α) (letter : Char) (rest : String) :
    Except Halt (Progress α) :=
  match g.options.find? (·.short == some letter) with
  | some option =>
    let value := match rest.toList with
      | [] => none
      | '=' :: value => some (String.ofList value)
      | value => some (String.ofList value)
    (takeOption p option.argument value).mapError .misuse
  | none =>
    if letter = 'h' then .error (g.takeHelp p)
    else .error (.misuse (.unexpectedArgument (String.ofList ['-', letter])))

/-- Takes a positional argument. -/
def takePlain (g : Grammar α) (p : Progress α) (word : String) : Except Halt (Progress α) :=
  match p.positionals with
  | argument :: positionals =>
    p.settle.mapError .misuse |>.map fun p =>
      { p with pending := some (argument, some word), positionals }
  | [] =>
    if g.commands.isEmpty || (p.escaped && g.commands.contains word) then
      .error (.misuse (.unexpectedArgument word))
    else .error (.misuse (.unknownCommand word))

/-- Reads the words of a command. -/
def read (g : Grammar α) : Progress α → List String → Except Halt (Reading α)
  | p, [] => p.settle.mapError .misuse |>.map fun p => .complete p.values
  | p, word :: words =>
    if p.escaped then do read g (← g.takePlain p word) words
    else if !p.awaitsValue && g.commands.contains word then .ok (.command word words p)
    else match Word.ofString word with
      | .escape => read g { p with escaped := true } words
      | .long name value => do read g (← g.takeLong p name value) words
      | .short letter rest => do read g (← g.takeShort p letter rest) words
      | .plain text =>
        match p.pending with
        | some (argument, none) => read g { p with pending := some (argument, some text) } words
        | _ => do read g (← g.takePlain p text) words

/-- The progress before the first word. -/
def start (g : Grammar α) (values : α) : Progress α := ⟨values, none, g.positionals, false⟩

end Grammar
end SentenceEngine.CommandLine
