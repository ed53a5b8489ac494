import SentenceEngine.Schema.Basic
import SentenceEngine.Sentence
import SentenceEngine.Validation.Path

/-!
# Findings of a validation

A failure says what is wrong at which place inside which instruction. A warning concerns a label
that is declared more than once and does not make the program invalid. A report lists the labels
and the warnings of a valid program.
-/

namespace SentenceEngine

/-- The greatest number of schema nodes that may be nested around a value. -/
def maxSchemaDepth : Nat := 256

/-- What is wrong with a value or an instruction. -/
inductive Violation where
  | typeMismatch (expected found : Json.Kind)
  | tooShort (min length : Nat)
  | tooLong (max length : Nat)
  | belowMinimum (min value : Double)
  | aboveMaximum (max value : Double)
  | missingField
  | unexpectedKey (key : String)
  | unresolvedLabel (label : String)
  | unresolvedReference (target : String)
  | noAlternative (tried : List SchemaTag)
  | tooDeep
  | invalidSentence (error : ProgramError)
  | unknownHandler (handler : String)
deriving DecidableEq

/-- The wording of a violation. -/
def Violation.message : Violation → String
  | .typeMismatch expected found => "expected " ++ expected.name ++ ", found " ++ found.name
  | .tooShort min length =>
    "string of length " ++ toString length ++ " is shorter than " ++ toString min
  | .tooLong max length =>
    "string of length " ++ toString length ++ " is longer than " ++ toString max
  | .belowMinimum min value =>
    Layout.message.write value ++ " is below the minimum " ++ Layout.message.write min
  | .aboveMaximum max value =>
    Layout.message.write value ++ " is above the maximum " ++ Layout.message.write max
  | .missingField => "required field is missing"
  | .unexpectedKey key => "unexpected key '" ++ key ++ "'"
  | .unresolvedLabel label => "label '" ++ label ++ "' is not declared"
  | .unresolvedReference target => "schema reference '" ++ target ++ "' does not resolve"
  | .noAlternative tried =>
    "no alternative matched (tried " ++ ", ".intercalate (tried.map (·.name)) ++ ")"
  | .tooDeep => "schema nesting exceeds " ++ toString maxSchemaDepth ++ " levels"
  | .invalidSentence error => error.message
  | .unknownHandler handler => "no script is registered as '" ++ handler ++ "'"

/-- A violation, its place, and the handler of the innermost instruction around it. -/
structure ValidationError where
  path : Path
  handler : String
  violation : Violation
deriving DecidableEq

/-- The wording of a failure. -/
def ValidationError.message (e : ValidationError) : String :=
  e.violation.message ++ " at " ++ e.path.text ++ " in '" ++ e.handler ++ "' instruction"

/-- A label that was declared before, and the place where it is declared again. -/
structure DuplicateLabel where
  label : String
  path : Path
deriving DecidableEq

/-- The wording of a warning. -/
def DuplicateLabel.message (w : DuplicateLabel) : String :=
  "label '" ++ w.label ++ "' at " ++ w.path.text ++ " is already declared"

/-- The findings about a valid program: its labels in increasing order, and the warnings. -/
structure ValidationReport where
  labels : List String
  warnings : List DuplicateLabel
deriving DecidableEq

end SentenceEngine
