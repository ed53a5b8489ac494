import SentenceEngine.Json.Decoding
import SentenceEngine.Sentence

/-!
# Configurations

What a thread starts with: variables, a program, a label to start at. Each part may be left open.
A configuration lies over another one: its variables are added, and its program and its label
replace those below when it has them.
-/

namespace SentenceEngine

/-- The parts that a thread is made of. -/
structure ThreadConfig where
  vars : Option Members
  sentences : Option Sentence
  entryLabel : Option String
deriving DecidableEq

/-- The settings of an engine: what every thread starts with. -/
structure CoreConfig where
  thread : ThreadConfig
deriving DecidableEq

namespace ThreadConfig

/-- Everything is left open. -/
def empty : ThreadConfig := ⟨none, none, none⟩

instance : Inhabited ThreadConfig := ⟨empty⟩

/-- Only a program. -/
def ofProgram (program : Sentence) : ThreadConfig := { empty with sentences := some program }

/-- Adds or replaces a variable. -/
def withVar (config : ThreadConfig) (name : String) (value : Json) : ThreadConfig :=
  { config with vars := some ((config.vars.getD []).insert name value) }

/-- Sets the label to start at. -/
def withEntryLabel (config : ThreadConfig) (label : String) : ThreadConfig :=
  { config with entryLabel := some label }

/-- The variables of a configuration with those of another one over them. -/
def mergeVars (base : Option Members) : Option Members → Option Members
  | some vars => some ((base.getD []).merge vars)
  | none => base

/-- Lays `overrides` over a configuration. -/
def merge (config overrides : ThreadConfig) : ThreadConfig where
  vars := mergeVars config.vars overrides.vars
  sentences := overrides.sentences <|> config.sentences
  entryLabel := overrides.entryLabel <|> config.entryLabel

/-! ## JSON -/

/-- A program inside a configuration. -/
def decodeSentence (value : Json) : Except DecodeError Sentence :=
  (Sentence.ofJson value).mapError fun e => .other e.message

/-- Reads a part that may be absent. -/
def decodePart {α : Type} (decode : Json → Except DecodeError α) :
    Option Json → Except DecodeError (Option α)
  | some value => Json.decodeOption decode value
  | none => .ok none

/-- Reads a configuration: an object, or a list of its parts in the order of their declaration. -/
def decode : Json → Except DecodeError ThreadConfig
  | .object members => do
    let entryLabel ← decodePart Json.decodeString (Dictionary.find? members "entry_label")
    let sentences ← decodePart decodeSentence (Dictionary.find? members "sentences")
    let vars ← decodePart Json.decodeMembers (Dictionary.find? members "vars")
    .ok ⟨vars, sentences, entryLabel⟩
  | .array items => do
    let vars ← decodePart Json.decodeMembers items[0]?
    let sentences ← decodePart decodeSentence items[1]?
    let entryLabel ← decodePart Json.decodeString items[2]?
    if 3 < items.length then .error (.tooManyItems items.length)
    .ok ⟨vars, sentences, entryLabel⟩
  | value => .error (value.mismatch (.struct "ThreadConfig"))

/-- Writes the parts that are there. -/
def toJson (config : ThreadConfig) : Json :=
  let part (key : String) (value : Option Json) : List (String × Json) :=
    (value.map fun v => (key, v)).toList
  Json.ofEntries
    (part "vars" (config.vars.map .object) ++ part "sentences" (config.sentences.map (·.toJson)) ++
      part "entry_label" (config.entryLabel.map .string))

end ThreadConfig

namespace CoreConfig

/-- Threads start with nothing. -/
def empty : CoreConfig := ⟨.empty⟩

/-- Reads the settings: an object, or a list of its parts. -/
def decode : Json → Except DecodeError CoreConfig
  | .object members =>
    match Dictionary.find? members "thread" with
    | some value => (ThreadConfig.decode value).map CoreConfig.mk
    | none => .ok empty
  | .array items => do
    let thread ← match items[0]? with
      | some value => ThreadConfig.decode value
      | none => .ok .empty
    if 1 < items.length then .error (.tooManyItems items.length)
    .ok ⟨thread⟩
  | value => .error (value.mismatch (.struct "CoreConfig"))

/-- Writes the settings. -/
def toJson (config : CoreConfig) : Json := Json.ofEntries [("thread", config.thread.toJson)]

end CoreConfig
end SentenceEngine
