/-!
# Errors with a cause

An error that came up on the way to something else is told in the words of what was wanted, with
the cause behind it.
-/

namespace SentenceEngine

/-- An error, and what caused it if that has words of its own. -/
structure CausedError where
  message : String
  cause : Option String
deriving DecidableEq, Repr

namespace CausedError

/-- An error without a cause. -/
def bare (message : String) : CausedError := ⟨message, none⟩

/-- The error and its cause in one line. -/
def line (e : CausedError) : String :=
  match e.cause with
  | some cause => e.message ++ ": " ++ cause
  | none => e.message

/-- A text with every line indented by four spaces. -/
def indented (text : String) : String :=
  "    " ++ String.ofList (text.toList.flatMap fun c => if c = '\n' then "\n    ".toList else [c])

/-- The error as a report, with the cause in a paragraph of its own. -/
def report (e : CausedError) : String :=
  match e.cause with
  | some cause => "Error: " ++ e.message ++ "\n\nCaused by:\n" ++ indented cause ++ "\n"
  | none => "Error: " ++ e.message ++ "\n"

end CausedError
end SentenceEngine
