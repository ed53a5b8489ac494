import SentenceEngine.Sentence

/-!
# Frames

A frame is one activation of a sequence. Its cursor holds an index for every depth, the outermost
first; all but the last lead into nested sequences. Nested sequences extend the cursor of the same
frame, while a program that a script transfers control to gets a frame of its own on top.

The cursor machine moves over labels, into sequences and out of them until it reaches an
instruction or the end of the bottom frame.
-/

namespace SentenceEngine

/-- What a cursor points at. -/
inductive Position where
  | label
  | scope
  | instruction (instruction : Instruction)
  /-- Past the last sentence of the innermost scope. -/
  | finish
deriving DecidableEq

/-- One activation of a sequence. -/
structure Frame where
  sequence : Sequence
  /-- One index for every depth, the outermost first. -/
  cursor : List Nat
  /-- Whether the frame below goes on after its current instruction when this one ends, and does
  not run it. -/
  stepsCaller : Bool
deriving DecidableEq

namespace Frame

/-! ## Cursors -/

/-- What an index path leads to. -/
def resolve : Sequence → List Nat → Position
  | _, [] => .finish
  | scope, index :: deeper =>
    match scope[index]? with
    | none => .finish
    | some (.label _) => .label
    | some (.instruction i) => .instruction i
    | some (.sequence inner) =>
      match deeper with
      | [] => .scope
      | deeper => resolve inner deeper

/-- Adds one to the last index. -/
def bumpLast : List Nat → List Nat
  | [] => []
  | [index] => [index + 1]
  | index :: deeper => index :: bumpLast deeper

/-- A frame at a position of a sequence. -/
def new (sequence : Sequence) (start : Nat) (stepsCaller : Bool) : Frame :=
  ⟨sequence, [start], stepsCaller⟩

/-- What the cursor points at. -/
def position (frame : Frame) : Position := resolve frame.sequence frame.cursor

/-- Goes to the next sentence of the innermost scope. -/
def advance (frame : Frame) : Frame := { frame with cursor := bumpLast frame.cursor }

/-- Enters the sequence under the cursor. -/
def descend (frame : Frame) : Frame := { frame with cursor := frame.cursor ++ [0] }

/-- Leaves the innermost scope and steps past it; nothing when the scope is the whole frame. -/
def ascend? (frame : Frame) : Option Frame :=
  if frame.cursor.length ≤ 1 then none
  else some { frame with cursor := bumpLast frame.cursor.dropLast }

/-! ## The cursor machine -/

mutual
/-- How many moves a sentence takes: one for a label or an instruction, and for a sequence the moves
inside it, one into it and one out of it. -/
def moves : Sentence → Nat
  | .label _ => 1
  | .instruction _ => 1
  | .sequence items => itemsMoves items + 2

/-- How many moves the sentences of a scope take. -/
def itemsMoves : List Sentence → Nat
  | [] => 0
  | item :: rest => moves item + itemsMoves rest
end

/-- A bound on the moves of the cursor machine over a stack of frames, the top one first. -/
def movesLeft : List Frame → Nat
  | [] => 1
  | frame :: below => itemsMoves frame.sequence + 1 + movesLeft below

/-- Where the cursor machine stops. -/
inductive Stop where
  | instruction (instruction : Instruction)
  /-- The program is exhausted. -/
  | finish
  /-- The bound on the number of moves was met. -/
  | stuck
deriving DecidableEq

/-- Moves the cursor of the top frame on. The first argument bounds the number of moves. -/
def seekWithin : Nat → List Frame → Stop × List Frame
  | 0, frames => (.stuck, frames)
  | _ + 1, [] => (.finish, [])
  | moves + 1, frame :: below =>
    match frame.position with
    | .label => seekWithin moves (frame.advance :: below)
    | .scope => seekWithin moves (frame.descend :: below)
    | .instruction i => (.instruction i, frame :: below)
    | .finish =>
      match frame.ascend? with
      | some frame => seekWithin moves (frame :: below)
      | none =>
        match below with
        | [] => (.finish, [frame])
        | caller :: below =>
          seekWithin moves ((if frame.stepsCaller then caller.advance else caller) :: below)

/-- Moves on to the next instruction, or to the end of the program. -/
def seek (frames : List Frame) : Stop × List Frame := seekWithin (movesLeft frames) frames

end Frame

/-- What can be seen of a frame: its cursor, and how many sentences it has at its root. -/
structure FrameView where
  cursor : List Nat
  length : Nat
deriving DecidableEq, Repr

/-- The view of a frame. -/
def Frame.view (frame : Frame) : FrameView := ⟨frame.cursor, frame.sequence.length⟩

/-- The value of a view. -/
def FrameView.toJson (view : FrameView) : Json :=
  Json.ofEntries
    [("cursor", .array (view.cursor.map Json.ofNat)), ("len", Json.ofNat view.length)]

end SentenceEngine
