import SentenceEngine.Config.Basic
import SentenceEngine.Json.Reader

/-!
# Configurations in JSON text

A configuration is read along its text, so what is wrong first in the text is reported first,
whether the text is no JSON or a value has the wrong shape. Members that a configuration does not
know are skipped, and a known member may not come twice.
-/

namespace SentenceEngine.ConfigText

/-- Why a text is no configuration. -/
inductive Error where
  | text (error : Json.ReadError)
  | data (error : DecodeError)
deriving DecidableEq

/-- The wording of an error. -/
def Error.message : Error → String
  | .text error => error.message
  | .data error => error.message

/-- Takes typed data from the front of a text. -/
abbrev Reader (α : Type) := List Char → Except Error (α × List Char)

/-- A step that looks at the text only. -/
def onText {α : Type} (result : Except Json.ReadError α) : Except Error α := result.mapError .text

/-- A step that looks at a value that was read. -/
def onData {α : Type} (result : Except DecodeError α) : Except Error α := result.mapError .data

/-- The error of a value of the wrong kind. Strings, numbers and names are read to be named in it. -/
def mismatch {α : Type} (wanted : Wanted) (text : List Char) : Except Error α :=
  match text with
  | '[' :: _ => .error (.data (.invalidType .sequence wanted))
  | '{' :: _ => .error (.data (.invalidType .map wanted))
  | text => do
    let (value, _) ← onText (Json.readValue text.length 0 text)
    .error (.data (value.mismatch wanted))

/-- The text after blanks, which has to go on. -/
def start (text : List Char) : Except Error (List Char) :=
  match Json.skipBlanks text with
  | [] => .error (.text .endInValue)
  | text => .ok text

/-- Takes something, or a null in its place. -/
def orNull {α : Type} (read : Reader α) : Reader (Option α) := fun text =>
  match Json.skipBlanks text with
  | 'n' :: rest => do .ok (none, ← onText (Json.readIdent ['u', 'l', 'l'] rest))
  | text => do
    let (value, rest) ← read text
    .ok (some value, rest)

/-- Takes a string. -/
def readString : Reader String := fun text => do
  match ← start text with
  | '"' :: rest => onText (Json.readString (rest.length + 1) [] rest)
  | text => mismatch .string text

/-- Takes the members of an object. -/
def readMembers (depth : Nat) : Reader Members := fun text => do
  match ← start text with
  | '{' :: rest =>
    match depth with
    | 0 => .error (.text .tooDeep)
    | depth + 1 =>
      let size := rest.length + 1
      onText (Json.readMembers size (Json.readValue size depth) size true [] rest)
  | text => mismatch .map text

/-- Takes a program: any value, which then has to be one. -/
def readSentence (depth : Nat) : Reader Sentence := fun text => do
  let (value, rest) ← onText (Json.readValue text.length depth text)
  .ok (← onData (ThreadConfig.decodeSentence value), rest)

/-- Takes the members of a record up to its closing bracket. `member` takes the value of a known
key and puts it into the record, or is nothing for an unknown key. -/
def readFields {α : Type} (member : String → Option (α → Reader α)) :
    Nat → Bool → List String → α → Reader α
  | 0, _, _, _, _ => .error (.text .endInObject)
  | size + 1, first, seen, record, text => do
    match ← onText (Json.nextMember first text) with
    | .close rest => .ok (record, rest)
    | .entry text =>
      let (key, rest) ← onText (Json.readString (text.length + 1) [] text)
      match member key with
      | some read =>
        if key ∈ seen then .error (.data (.duplicateField key))
        else
          let (record, rest) ← read record (← onText (Json.readColon rest))
          readFields member size false (key :: seen) record rest
      | none =>
        let rest ← onText (Json.skipValue (← onText (Json.readColon rest)))
        readFields member size false seen record rest

/-- Takes the parts of a record that is written as a list, up to its closing bracket. Parts at the
end may be missing. -/
def readParts {α : Type} : List (α → Reader α) → Bool → α → Reader α
  | [], _, record, text => do .ok (record, ← onText (Json.closeList text))
  | part :: parts, first, record, text => do
    match ← onText (Json.nextItem first text) with
    | .close rest => .ok (record, rest)
    | .entry text =>
      let (record, rest) ← part record text
      readParts parts false record rest

/-- Takes a record with named parts in the order of their declaration. -/
def readRecord {α : Type} (name : String) (parts : Nat → List (String × (α → Reader α)))
    (empty : α) (depth : Nat) : Reader α := fun text => do
  match ← start text with
  | '[' :: rest =>
    match depth with
    | 0 => .error (.text .tooDeep)
    | depth + 1 => readParts ((parts depth).map (·.2)) true empty rest
  | '{' :: rest =>
    match depth with
    | 0 => .error (.text .tooDeep)
    | depth + 1 =>
      readFields (fun key => (parts depth).lookup key) (rest.length + 1) true [] empty rest
  | text => mismatch (.struct name) text

/-- The parts of a thread's configuration. -/
def threadParts (depth : Nat) : List (String × (ThreadConfig → Reader ThreadConfig)) :=
  [("vars", fun config text => do
      let (vars, rest) ← orNull (readMembers depth) text
      .ok ({ config with vars }, rest)),
    ("sentences", fun config text => do
      let (sentences, rest) ← orNull (readSentence depth) text
      .ok ({ config with sentences }, rest)),
    ("entry_label", fun config text => do
      let (entryLabel, rest) ← orNull readString text
      .ok ({ config with entryLabel }, rest))]

/-- The parts of the settings. -/
def coreParts (depth : Nat) : List (String × (CoreConfig → Reader CoreConfig)) :=
  [("thread", fun _ text => do
      let (thread, rest) ← readRecord "ThreadConfig" threadParts .empty depth text
      .ok (⟨thread⟩, rest))]

/-- Reads a whole text as settings. -/
def read (text : String) : Except Error CoreConfig := do
  let (config, rest) ← readRecord "CoreConfig" coreParts .empty Json.maxDepth text.toList
  onText (Json.readEnd rest)
  .ok config

end SentenceEngine.ConfigText
