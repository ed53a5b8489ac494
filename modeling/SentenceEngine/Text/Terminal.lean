/-!
# Terminal text

Text for a terminal has control sequences among its characters: they set colours, move the cursor
or carry data for the device. Text that goes elsewhere keeps what a terminal would show. The
sequences are dropped, whether a style or a quoted word put them there, and so are the single
controls except those that are blanks.

A run of characters that are shown is taken as a whole: once it has begun, characters other than
controls belong to it, even if a line break inside an unfinished sequence began it.
-/

namespace SentenceEngine.Text

/-- How a part of a text stands out on a terminal. -/
inductive Style where
  | error
  | invalid
  | literal
  | valid
deriving DecidableEq, Repr

/-- The parameters of the control sequence that begins a style. -/
def Style.parameters : Style → String
  | .error => "1;31"
  | .invalid => "33"
  | .literal => "1"
  | .valid => "32"

/-- A text in a style, between the control sequence that begins it and the one that ends it. -/
def styled (style : Style) (text : String) : String :=
  "\x1b[" ++ style.parameters ++ "m" ++ text ++ "\x1b[0m"

/-! ## Control sequences -/

/-- Where a terminal stands inside a control sequence. -/
inductive Sequencing where
  /-- Not inside a sequence. -/
  | ground
  /-- After the escape character. -/
  | escape
  /-- After the escape character and characters that announce a final one. -/
  | announced
  /-- In the parameters of a control sequence. -/
  | parameters
  /-- At the beginning of a device control string. -/
  | device
  /-- In the parameters of a device control string. -/
  | deviceParameters
  /-- After characters that announce the final one of a device control string's parameters. -/
  | deviceAnnounced
  /-- In data for the device. -/
  | data
  /-- In a command for the operating system. -/
  | command
deriving DecidableEq, Repr

/-- Whether a character is one of a range of code points. -/
def lies (c : Char) (first last : Nat) : Bool := first ≤ c.toNat && c.toNat ≤ last

/-- Whether a character beyond ASCII ends data: one of the bytes of its encoding is 0x9C. The bytes
after the first hold six bits each, and the first is never that byte. -/
def endsData (c : Char) : Bool :=
  let n := c.toNat
  0x80 ≤ n && (n % 64 == 0x1C || (0x800 ≤ n && n / 64 % 64 == 0x1C) ||
    (0x10000 ≤ n && n / 4096 % 64 == 0x1C))

namespace Sequencing

/-- Where a character leads. -/
def next (state : Sequencing) (c : Char) : Sequencing :=
  if c = '\x18' || c = '\x1a' then .ground
  else if c = '\x1b' then .escape
  else match state with
    | .ground => .ground
    | .escape =>
      if lies c 0x20 0x2F then .announced
      else if c = '[' then .parameters
      else if c = ']' then .command
      else if c = 'P' then .device
      else if c = 'X' || c = '^' || c = '_' then .data
      else if lies c 0x30 0x7E then .ground
      else .escape
    | .announced => if lies c 0x30 0x7E then .ground else .announced
    | .parameters => if lies c 0x40 0x7E then .ground else .parameters
    | .device =>
      if lies c 0x20 0x2F then .deviceAnnounced
      else if lies c 0x30 0x3F then .deviceParameters
      else if lies c 0x40 0x7E then .data
      else .device
    | .deviceParameters =>
      if lies c 0x20 0x2F then .deviceAnnounced
      else if lies c 0x3C 0x7E then .data
      else .deviceParameters
    | .deviceAnnounced => if lies c 0x30 0x7E then .data else .deviceAnnounced
    | .data => if endsData c then .ground else .data
    | .command => if c = '\x07' then .ground else .command

/-- Whether a single control that comes here takes effect. -/
def heedsControls : Sequencing → Bool
  | .ground | .escape | .announced | .parameters => true
  | _ => false

end Sequencing

/-! ## Dropping them -/

/-- The controls that are blanks. -/
def isBlankControl (c : Char) : Bool := c = '\t' || c = '\n' || c = '\x0c' || c = '\r'

/-- Whether a character is no control. -/
def isGraphic (c : Char) : Bool := 0x20 ≤ c.toNat && c.toNat ≠ 0x7F

/-- Whether the character before is shown, and where in a control sequence the text stands; inside of
a run of shown characters this is where the run began. -/
structure Showing where
  shown : Bool
  state : Sequencing
deriving DecidableEq, Repr

namespace Showing

/-- Outside of a run a character is shown when it stands in no sequence; blank controls are shown in
the middle of some. Inside of a run all but other controls are shown. -/
def next (s : Showing) (c : Char) : Showing :=
  if s.shown && (isGraphic c || isBlankControl c) then
    ⟨true, if c.toNat < 0x80 then s.state else .ground⟩
  else
    ⟨(s.state == .ground && isGraphic c) || (s.state.heedsControls && isBlankControl c),
      s.state.next c⟩

/-- The characters that are shown. -/
def chars (s : Showing) : List Char → List Char
  | [] => []
  | c :: rest =>
    let s := s.next c
    if s.shown then c :: s.chars rest else s.chars rest

end Showing

/-- A text without control sequences. -/
def unstyled (text : String) : String := String.ofList (Showing.chars ⟨false, .ground⟩ text.toList)

end SentenceEngine.Text
