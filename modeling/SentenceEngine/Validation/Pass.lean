import SentenceEngine.Validation.Failure

/-!
# The validation pass

One pass over a program, depth first and from left to right. The labels that stand directly in a
sequence are declared before anything in the sequence is looked into; a string that has to name a
label is compared with the labels declared so far. The parameters of an instruction are checked
against the fields that its script asks for, in the order of their keys, and a program inside a
parameter is part of the same pass.

A candidate among alternatives that fails leaves the labels and the warnings as it found them. That
a duplicate was met at all is still noticed.
-/

namespace SentenceEngine

/-- Where to find the fields that a script asks for. -/
abbrev SchemaLookup := String → Option Fields

/-- Puts a string into its place in an increasing list. -/
def insertLabel (label : String) : List String → List String
  | [] => [label]
  | l :: rest => if label < l then label :: l :: rest else l :: insertLabel label rest

/-- What a pass has collected. -/
structure Pass where
  /-- The labels declared so far, in increasing order. -/
  labels : List String
  /-- The repeated declarations among those that count, in order. -/
  warnings : List DuplicateLabel
  /-- All repeated declarations that were met, in order. -/
  notices : List DuplicateLabel

/-- The start of a pass. -/
def Pass.start : Pass := ⟨[], [], []⟩

/-- A step of a pass, which may fail. What it collected up to then is kept. -/
abbrev Check := ExceptT ValidationError (StateM Pass)

namespace Check

/-- Fails at a place inside an instruction. -/
def fail (handler : String) (path : Path) (violation : Violation) : Check Unit :=
  throw ⟨path, handler, violation⟩

/-- Declares a label. A repeated declaration is only recorded. -/
def declare (path : Path) (label : String) : Check Unit :=
  modify fun pass =>
    if label ∈ pass.labels then
      { pass with
        warnings := pass.warnings ++ [⟨label, path⟩], notices := pass.notices ++ [⟨label, path⟩] }
    else { pass with labels := insertLabel label pass.labels }

/-- Takes the labels and the warnings back to where they were before a failed candidate. -/
def rollBack (before after : Pass) : Pass :=
  { after with labels := before.labels, warnings := after.warnings.take before.warnings.length }

/-- Whether a step succeeds; if it does not, it leaves no trace but notices. -/
def succeeds (step : Check Unit) : Check Bool := fun before =>
  match step before with
  | (.ok _, after) => (.ok true, after)
  | (.error _, after) => (.ok false, rollBack before after)

/-- Checks a value against a schema at a place. -/
abbrev Checker := Schema → Path → Json → Check Unit

/-! ## Plain values -/

/-- Fails because of the kind of a value. -/
def mismatch (handler : String) (path : Path) (expected : Json.Kind) (value : Json) : Check Unit :=
  fail handler path (.typeMismatch expected value.kind)

/-- The length of a string lies within its bounds, and it names a label if it has to. -/
def checkString (handler : String) (path : Path) (minLength maxLength : Option Nat)
    (labelReference : Bool) (text : String) : Check Unit := do
  let length := text.length
  if let some min := minLength then
    if length < min then fail handler path (.tooShort min length)
  if let some max := maxLength then
    if max < length then fail handler path (.tooLong max length)
  if labelReference then
    if text ∉ (← get).labels then fail handler path (.unresolvedLabel text)

/-- A number lies within its bounds, compared as doubles. -/
def checkNumber (handler : String) (path : Path) (min max : Option Double) (value : Double) :
    Check Unit := do
  if let some min := min then
    if value.below min then fail handler path (.belowMinimum min value)
  if let some max := max then
    if max.below value then fail handler path (.aboveMaximum max value)

/-! ## Lists, objects and alternatives -/

/-- Every item of a list matches. -/
def checkItems (check : Path → Json → Check Unit) (path : Path) : Nat → List Json → Check Unit
  | _, [] => pure ()
  | position, item :: rest => do
    check (path.item position) item
    checkItems check path (position + 1) rest

/-- Every field is there and matches, or may be absent. -/
def checkFields (check : Checker) (handler : String) (path : Path) (members : Members) :
    List (String × Schema) → Check Unit
  | [] => pure ()
  | (key, schema) :: rest => do
    match members.find? key with
    | some value => check schema (path.field key) value
    | none => if schema.isOptional then pure () else fail handler (path.field key) .missingField
    checkFields check handler path members rest

/-- Every member that is no field matches `rest`, or there may be others. -/
def checkOthers (check : Checker) (handler : String) (path : Path) (fields : Fields)
    (rest : Option Schema) (dynamicKeys : Bool) : List (String × Json) → Check Unit
  | [] => pure ()
  | (key, value) :: others => do
    if !fields.hasKey key then
      match rest with
      | some schema => check schema (path.field key) value
      | none => if !dynamicKeys then fail handler path (.unexpectedKey key)
    checkOthers check handler path fields rest dynamicKeys others

/-- Whether one of the candidates matches. -/
def someCandidate (check : Schema → Check Unit) : List Schema → Check Bool
  | [] => pure false
  | candidate :: rest => do
    if ← succeeds (check candidate) then pure true else someCandidate check rest

/-! ## Values -/

/-- Checks a value against a schema around which the schemas `enclosing` are nested, innermost
first. The first argument is the number of schemas that may still be nested, `analyze` takes a
program inside the value into the pass. -/
def check (analyze : Path → Sentence → Check Unit) (handler : String) :
    Nat → List Schema → Checker
  | 0, _ => fun _ path _ => fail handler path .tooDeep
  | depth + 1, enclosing => fun schema path value =>
    let inner : Checker := check analyze handler depth (schema :: enclosing)
    match schema.kind with
    | .any => pure ()
    | .string minLength maxLength labelReference =>
      match value with
      | .string text => checkString handler path minLength maxLength labelReference text
      | value => mismatch handler path .string value
    | .number min max =>
      match value with
      | .number number => checkNumber handler path min max number.toDouble
      | value => mismatch handler path .number value
    | .boolean =>
      match value with
      | .bool _ => pure ()
      | value => mismatch handler path .boolean value
    | .null =>
      match value with
      | .null => pure ()
      | value => mismatch handler path .null value
    | .array content =>
      match value with
      | .array items => checkItems (inner content) path 0 items
      | value => mismatch handler path .array value
    | .object fields rest dynamicKeys =>
      match value with
      | .object members => do
        checkFields inner handler path members fields
        checkOthers inner handler path fields rest dynamicKeys members
      | value => mismatch handler path .object value
    | .sentences =>
      match Sentence.ofJson value with
      | .ok sentence => analyze path sentence
      | .error error => fail handler path (.invalidSentence error)
    | .alternatives candidates => do
      if !candidates.isEmpty then
        if !(← someCandidate (inner · path value) candidates) then
          fail handler path (.noAlternative (candidates.map (·.kind.tag)))
    | .reference target =>
      match enclosing.find? (·.name? == some target) with
      | some schema => inner schema path value
      | none => fail handler path (.unresolvedReference target)

/-! ## Programs -/

/-- Declares the labels that stand directly in a sequence. -/
def declareDirect (path : Path) : Nat → List Sentence → Check Unit
  | _, [] => pure ()
  | position, .label text :: rest => do
    declare (path.item position) text
    declareDirect path (position + 1) rest
  | position, _ :: rest => declareDirect path (position + 1) rest

/-- Looks into the sentences of a sequence whose own labels are declared. -/
def analyzeItems (instruction : Path → Instruction → Check Unit) (path : Path) :
    Nat → List Sentence → Check Unit
  | _, [] => pure ()
  | position, .label _ :: rest => analyzeItems instruction path (position + 1) rest
  | position, .instruction i :: rest => do
    instruction (path.item position) i
    analyzeItems instruction path (position + 1) rest
  | position, .sequence items :: rest => do
    declareDirect (path.item position) 0 items
    analyzeItems instruction (path.item position) 0 items
    analyzeItems instruction path (position + 1) rest

/-- Takes a program into the pass; `instruction` checks one instruction. -/
def analyze (instruction : Path → Instruction → Check Unit) (path : Path) : Sentence → Check Unit
  | .label text => declare path text
  | .instruction i => instruction path i
  | .sequence items => do
    declareDirect path 0 items
    analyzeItems instruction path 0 items

/-- Checks an instruction. The first argument bounds how deep instructions stand inside the
parameters of instructions. -/
def checkInstruction (lookup : SchemaLookup) : Nat → Path → Instruction → Check Unit
  | 0, path, i => fail i.handler path .tooDeep
  | nesting + 1, path, i =>
    match lookup i.handler with
    | some fields =>
      checkFields (check (analyze (checkInstruction lookup nesting)) i.handler maxSchemaDepth [])
        i.handler path i.params fields
    | none => fail i.handler path (.unknownHandler i.handler)

end Check

/-! ## Nesting -/

mutual
/-- How many lists and objects are nested in a value. -/
def Json.height : Json → Nat
  | .array items => Json.itemsHeight items + 1
  | .object members => Json.membersHeight members + 1
  | .null => 0
  | .bool _ => 0
  | .number _ => 0
  | .string _ => 0

/-- The greatest height among items. -/
def Json.itemsHeight : List Json → Nat
  | [] => 0
  | item :: rest => max (Json.height item) (Json.itemsHeight rest)

/-- The greatest height among members. -/
def Json.membersHeight : List (String × Json) → Nat
  | [] => 0
  | (_, value) :: rest => max (Json.height value) (Json.membersHeight rest)
end

mutual
/-- A bound on how deep instructions stand inside the parameters of instructions. -/
def Sentence.nesting : Sentence → Nat
  | .label _ => 0
  | .instruction i => Json.membersHeight i.params + 1
  | .sequence items => Sentence.itemsNesting items

/-- The greatest bound among the sentences of a sequence. -/
def Sentence.itemsNesting : List Sentence → Nat
  | [] => 0
  | item :: rest => max (Sentence.nesting item) (Sentence.itemsNesting rest)
end

/-! ## Validation -/

/-- The pass over a program. -/
def Pass.over (lookup : SchemaLookup) (program : Sentence) : Except ValidationError Unit × Pass :=
  Check.analyze (Check.checkInstruction lookup program.nesting) .root program Pass.start

/-- What a validation says, and every repeated declaration that it met on the way. -/
structure Examination where
  result : Except ValidationError ValidationReport
  duplicates : List DuplicateLabel

/-- Validates a program and keeps account of repeated declarations. -/
def examine (lookup : SchemaLookup) (program : Sentence) : Examination :=
  match Pass.over lookup program with
  | (.ok _, pass) => ⟨.ok ⟨pass.labels, pass.warnings⟩, pass.notices⟩
  | (.error error, pass) => ⟨.error error, pass.notices⟩

/-- Validates a program. -/
def validate (lookup : SchemaLookup) (program : Sentence) :
    Except ValidationError ValidationReport :=
  (examine lookup program).result

end SentenceEngine
