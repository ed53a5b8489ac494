/-!
# Paths

Where in a program something stands: a list of steps from the root, each an index or a key.
-/

namespace SentenceEngine

/-- One step into a value. -/
inductive PathStep where
  | index (position : Nat)
  | key (name : String)
deriving DecidableEq, Repr

/-- The steps from the root, the last one first. -/
structure Path where
  reversed : List PathStep
deriving DecidableEq, Repr

namespace Path

/-- The root. -/
def root : Path := ⟨[]⟩

/-- The item at a position of the list at a path. -/
def item (path : Path) (position : Nat) : Path := ⟨.index position :: path.reversed⟩

/-- The member of the object at a path. -/
def field (path : Path) (name : String) : Path := ⟨.key name :: path.reversed⟩

/-- The steps from the root, the first one first. -/
def steps (path : Path) : List PathStep := path.reversed.reverse

/-- The text of a step: an index in brackets, a key after a dot. -/
def stepText : PathStep → String
  | .index position => "[" ++ toString position ++ "]"
  | .key name => "." ++ name

/-- The text of a path; the root is a dollar sign. -/
def text (path : Path) : String := "$" ++ String.join (path.steps.map stepText)

end Path
end SentenceEngine
