import SentenceEngine.CausedError
import SentenceEngine.Config.Text
import SentenceEngine.Text.Quoted

/-!
# Files

Configurations and programs come from files. What the outside says about a file is its content, or
why it cannot be read.
-/

namespace SentenceEngine

/-- Why a file has no content. -/
inductive FileProblem where
  | notFound
  | notADirectory
  | isADirectory
  | nameTooLong
  | other (text : String)
deriving DecidableEq, Repr

/-- The wording of a problem. -/
def FileProblem.message : FileProblem → String
  | .notFound => "No such file or directory (os error 2)"
  | .notADirectory => "Not a directory (os error 20)"
  | .isADirectory => "Is a directory (os error 21)"
  | .nameTooLong => "File name too long (os error 36)"
  | .other text => text

/-- What a file holds. -/
abbrev FileContent := Except FileProblem String

/-- The text of a file, which was opened for some purpose. -/
def FileContent.text (content : FileContent) (purpose path : String) : Except CausedError String :=
  content.mapError fun problem =>
    ⟨"Failed to read " ++ purpose ++ ": " ++ Text.quoted path, some problem.message⟩

/-- The error of a file whose text is not what it is for. -/
def unreadable (purpose path cause : String) : CausedError :=
  ⟨"Failed to parse " ++ purpose ++ ": " ++ Text.quoted path, some cause⟩

/-- Reads settings from a file. -/
def CoreConfig.load (path : String) (content : FileContent) : Except CausedError CoreConfig := do
  let text ← content.text "config file" path
  (ConfigText.read text).mapError fun e => unreadable "config file" path e.message

/-- Reads a program from a file. -/
def Sentence.load (path : String) (content : FileContent) : Except CausedError Sentence := do
  let text ← content.text "program" path
  let value ← (Json.read text).mapError fun e => unreadable "program" path e.message
  (Sentence.ofJson value).mapError fun e => .bare e.message

end SentenceEngine
