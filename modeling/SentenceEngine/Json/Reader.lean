import SentenceEngine.Json.Basic
import SentenceEngine.Number.Reading

/-!
# Reading JSON text

A reader takes what it needs from the front of the text and says why it stops. Nesting is bounded
by a number of levels, and a bound on the length of the text keeps each loop finite; a bound that
is at least the length of the text is never met.

A value can also be skipped. Skipping looks at the shape of the text only: it has no limit on
nesting and does not ask whether a number is in range.
-/

namespace SentenceEngine.Json

/-! ## Errors -/

/-- Why a text is not JSON. -/
inductive ReadError where
  | endInList
  | endInObject
  | endInString
  | endInValue
  | expectedColon
  | expectedListCommaOrEnd
  | expectedObjectCommaOrEnd
  | expectedIdent
  | expectedValue
  | invalidEscape
  | invalidNumber
  | numberOutOfRange
  | controlCharacter
  | keyMustBeAString
  | loneSurrogate
  | endOfHexEscape
  | trailingComma
  | trailingCharacters
  | tooDeep
deriving DecidableEq, Repr

/-- The wording of an error. -/
def ReadError.message : ReadError → String
  | .endInList => "EOF while parsing a list"
  | .endInObject => "EOF while parsing an object"
  | .endInString => "EOF while parsing a string"
  | .endInValue => "EOF while parsing a value"
  | .expectedColon => "expected `:`"
  | .expectedListCommaOrEnd => "expected `,` or `]`"
  | .expectedObjectCommaOrEnd => "expected `,` or `\x7d`"
  | .expectedIdent => "expected ident"
  | .expectedValue => "expected value"
  | .invalidEscape => "invalid escape"
  | .invalidNumber => "invalid number"
  | .numberOutOfRange => "number out of range"
  | .controlCharacter => "control character (\\u0000-\\u001F) found while parsing a string"
  | .keyMustBeAString => "key must be a string"
  | .loneSurrogate => "lone leading surrogate in hex escape"
  | .endOfHexEscape => "unexpected end of hex escape"
  | .trailingComma => "trailing comma"
  | .trailingCharacters => "trailing characters"
  | .tooDeep => "recursion limit exceeded"

/-- Takes something from the front of a text. -/
abbrev Reader (α : Type) := List Char → Except ReadError (α × List Char)

/-- The four characters that may stand between tokens. -/
def isBlank (c : Char) : Bool := c == ' ' || c == '\n' || c == '\t' || c == '\r'

/-- The text after leading blanks. -/
def skipBlanks (text : List Char) : List Char := text.dropWhile isBlank

/-- Takes an exact text, the rest of a name whose first letter is known. -/
def readIdent : List Char → List Char → Except ReadError (List Char)
  | [], text => .ok text
  | _ :: _, [] => .error .endInValue
  | c :: rest, d :: text => if c = d then readIdent rest text else .error .expectedIdent

/-! ## Strings -/

/-- The value of a hexadecimal digit. -/
def hexDigit? (c : Char) : Option Nat :=
  if c.isDigit then some (c.toNat - '0'.toNat)
  else if 'a' ≤ c ∧ c ≤ 'f' then some (c.toNat - 'a'.toNat + 10)
  else if 'A' ≤ c ∧ c ≤ 'F' then some (c.toNat - 'A'.toNat + 10)
  else none

/-- Takes four hexadecimal digits. Fewer than four bytes of text are an end of the text. -/
def readHex (text : List Char) : Except ReadError (Nat × List Char) :=
  match text with
  | a :: b :: c :: d :: rest =>
    match hexDigit? a, hexDigit? b, hexDigit? c, hexDigit? d with
    | some a, some b, some c, some d => .ok (((a * 16 + b) * 16 + c) * 16 + d, rest)
    | _, _, _, _ => .error .invalidEscape
  | short =>
    if (String.ofList short).utf8ByteSize < 4 then .error .endInString else .error .invalidEscape

/-- The character that a short escape stands for. -/
def shortEscape? : Char → Option Char
  | '"' => some '"'
  | '\\' => some '\\'
  | '/' => some '/'
  | 'b' => some '\x08'
  | 'f' => some '\x0c'
  | 'n' => some '\n'
  | 'r' => some '\r'
  | 't' => some '\t'
  | _ => none

/-- Takes the digits after `\u`; a leading surrogate needs its partner in a second escape. -/
def readUnicode (text : List Char) : Except ReadError (Char × List Char) := do
  let (first, rest) ← readHex text
  if 0xDC00 ≤ first ∧ first ≤ 0xDFFF then .error .loneSurrogate
  else if first < 0xD800 ∨ 0xDBFF < first then .ok (Char.ofNat first, rest)
  else
    match rest with
    | [] => .error .endInString
    | '\\' :: [] => .error .endInString
    | '\\' :: 'u' :: rest =>
      let (second, rest) ← readHex rest
      if second < 0xDC00 ∨ 0xDFFF < second then .error .loneSurrogate
      else .ok (Char.ofNat (0x10000 + (first - 0xD800) * 0x400 + (second - 0xDC00)), rest)
    | _ => .error .endOfHexEscape

/-- Takes an escape after its backslash. -/
def readEscape : List Char → Except ReadError (Char × List Char)
  | [] => .error .endInString
  | 'u' :: rest => readUnicode rest
  | c :: rest =>
    match shortEscape? c with
    | some value => .ok (value, rest)
    | none => .error .invalidEscape

/-- Takes a string after its opening quote. The first argument bounds its length. -/
def readString : Nat → List Char → Reader String
  | 0, _, _ => .error .endInString
  | _ + 1, _, [] => .error .endInString
  | _ + 1, taken, '"' :: rest => .ok (String.ofList taken.reverse, rest)
  | size + 1, taken, '\\' :: rest => do
    let (c, rest) ← readEscape rest
    readString size (c :: taken) rest
  | size + 1, taken, c :: rest =>
    if c.toNat < 0x20 then .error .controlCharacter else readString size (c :: taken) rest

/-! ## Numbers -/

/-- Takes the digits at the front of a text. -/
def spanDigits (text : List Char) : List Char × List Char := text.span Char.isDigit

/-- Takes an exponent after its letter. -/
def readExponent (text : List Char) : Except ReadError (Int × List Char) :=
  let (negative, text) := match text with
    | '+' :: rest => (false, rest)
    | '-' :: rest => (true, rest)
    | other => (false, other)
  match spanDigits text with
  | ([], []) => .error .endInValue
  | ([], _ :: _) => .error .invalidNumber
  | (digits, rest) =>
    let value := digits.foldl (fun n c => n * 10 + Number.digit c) 0
    .ok (if negative then -(value : Int) else value, rest)

/-- Takes an exponent, if there is one. -/
def readExponent? : Reader (Option Int)
  | 'e' :: rest | 'E' :: rest => do
    let (exponent, rest) ← readExponent rest
    .ok (some exponent, rest)
  | text => .ok (none, text)

/-- Takes a number after its sign. -/
def readNumber (negative : Bool) : Reader Number := fun text => do
  let (integer, rest) ← match spanDigits text with
    | ([], []) => .error .endInValue
    | ([], _ :: _) => .error .invalidNumber
    | ('0' :: _ :: _, _) => .error .invalidNumber
    | (digits, rest) => .ok (digits, rest)
  let (fraction, rest) ← match rest with
    | '.' :: rest =>
      match spanDigits rest with
      | ([], []) => .error .endInValue
      | ([], _ :: _) => .error .invalidNumber
      | (digits, rest) => .ok (some digits, rest)
    | rest => .ok (none, rest)
  let (exponent, rest) ← readExponent? rest
  match Number.ofDigits? negative integer fraction exponent with
  | some value => .ok (value, rest)
  | none => .error .numberOutOfRange

/-! ## Lists and objects -/

/-- What comes next inside brackets: an entry, or the end. The text starts at the entry, or after
the closing bracket. -/
inductive Next where
  | entry (text : List Char)
  | close (text : List Char)

/-- Looks for the next item of a list. -/
def nextItem (first : Bool) (text : List Char) : Except ReadError Next :=
  match skipBlanks text with
  | [] => .error .endInList
  | ']' :: rest => .ok (.close rest)
  | c :: rest =>
    if first then .ok (.entry (c :: rest))
    else if c = ',' then
      match skipBlanks rest with
      | [] => .error .endInValue
      | ']' :: _ => .error .trailingComma
      | rest => .ok (.entry rest)
    else .error .expectedListCommaOrEnd

/-- Looks for the next member of an object; an entry starts inside the quotes of its key. -/
def nextMember (first : Bool) (text : List Char) : Except ReadError Next :=
  match skipBlanks text with
  | [] => .error .endInObject
  | '}' :: rest => .ok (.close rest)
  | c :: rest =>
    if first then
      if c = '"' then .ok (.entry rest) else .error .keyMustBeAString
    else if c = ',' then
      match skipBlanks rest with
      | [] => .error .endInValue
      | '"' :: rest => .ok (.entry rest)
      | '}' :: _ => .error .trailingComma
      | _ :: _ => .error .keyMustBeAString
    else .error .expectedObjectCommaOrEnd

/-- Takes the closing bracket of a list in which no further item is wanted. -/
def closeList (text : List Char) : Except ReadError (List Char) :=
  match skipBlanks text with
  | [] => .error .endInList
  | ']' :: rest => .ok rest
  | ',' :: rest =>
    match skipBlanks rest with
    | ']' :: _ => .error .trailingComma
    | _ => .error .trailingCharacters
  | _ :: _ => .error .trailingCharacters

/-- Takes the colon after a key. -/
def readColon (text : List Char) : Except ReadError (List Char) :=
  match skipBlanks text with
  | [] => .error .endInObject
  | ':' :: rest => .ok rest
  | _ :: _ => .error .expectedColon

/-- Takes the items of a list up to its closing bracket. The first argument bounds their number. -/
def readItems (item : Reader Json) : Nat → Bool → Reader (List Json)
  | 0, _, _ => .error .endInList
  | size + 1, first, text => do
    match ← nextItem first text with
    | .close rest => .ok ([], rest)
    | .entry text =>
      let (value, rest) ← item text
      let (values, rest) ← readItems item size false rest
      .ok (value :: values, rest)

/-- Takes the members of an object up to its closing bracket; of two members with one key the later
one counts. The bounds are on the length of a key and on the number of members. -/
def readMembers (limit : Nat) (item : Reader Json) : Nat → Bool → Members → Reader Members
  | 0, _, _, _ => .error .endInObject
  | size + 1, first, members, text => do
    match ← nextMember first text with
    | .close rest => .ok (members, rest)
    | .entry text =>
      let (key, rest) ← readString limit [] text
      let rest ← readColon rest
      let (value, rest) ← item rest
      readMembers limit item size false (members.insert key value) rest

/-- Takes a value nested at most `depth` levels deep from a text of at most `size` characters. -/
def readValue (size : Nat) : Nat → Reader Json
  | depth, text =>
    match skipBlanks text with
    | [] => .error .endInValue
    | 'n' :: rest => do .ok (.null, ← readIdent ['u', 'l', 'l'] rest)
    | 't' :: rest => do .ok (.bool true, ← readIdent ['r', 'u', 'e'] rest)
    | 'f' :: rest => do .ok (.bool false, ← readIdent ['a', 'l', 's', 'e'] rest)
    | '"' :: rest => do
      let (text, rest) ← readString (size + 1) [] rest
      .ok (.string text, rest)
    | '-' :: rest => do
      let (value, rest) ← readNumber true rest
      .ok (.number value, rest)
    | '[' :: rest =>
      match depth with
      | 0 => .error .tooDeep
      | depth + 1 => do
        let (items, rest) ← readItems (readValue size depth) (size + 1) true rest
        .ok (.array items, rest)
    | '{' :: rest =>
      match depth with
      | 0 => .error .tooDeep
      | depth + 1 => do
        let (members, rest) ←
          readMembers (size + 1) (readValue size depth) (size + 1) true [] rest
        .ok (.object members, rest)
    | c :: rest =>
      if c.isDigit then do
        let (value, rest) ← readNumber false (c :: rest)
        .ok (.number value, rest)
      else .error .expectedValue

/-- Nothing but blanks may follow a document. -/
def readEnd (text : List Char) : Except ReadError Unit :=
  match skipBlanks text with
  | [] => .ok ()
  | _ :: _ => .error .trailingCharacters

/-- Lists and objects may be nested this deep in a document. -/
def maxDepth : Nat := 127

/-- Reads a document whose nesting is bounded by `depth`. -/
def readWithin (depth : Nat) (text : List Char) : Except ReadError Json := do
  let (value, rest) ← readValue text.length depth text
  readEnd rest
  .ok value

/-- Reads a document. -/
def read (text : String) : Except ReadError Json := readWithin maxDepth text.toList

/-- Reads a document of any nesting. -/
def readNested (text : String) : Except ReadError Json :=
  readWithin text.toList.length text.toList

/-! ## Skipping -/

/-- Passes over an escape after its backslash. -/
def skipEscape : List Char → Except ReadError (List Char)
  | [] => .error .endInString
  | 'u' :: rest => (readHex rest).map (·.2)
  | c :: rest => if (shortEscape? c).isSome then .ok rest else .error .invalidEscape

/-- Passes over a string after its opening quote. The first argument bounds its length. -/
def skipString : Nat → List Char → Except ReadError (List Char)
  | 0, _ => .error .endInString
  | _ + 1, [] => .error .endInString
  | _ + 1, '"' :: rest => .ok rest
  | size + 1, '\\' :: rest => do skipString size (← skipEscape rest)
  | size + 1, c :: rest =>
    if c.toNat < 0x20 then .error .controlCharacter else skipString size rest

/-- Passes over an exponent, if there is one. -/
def skipExponent (text : List Char) : Except ReadError (List Char) :=
  match text with
  | 'e' :: rest | 'E' :: rest =>
    let rest := match rest with
      | '+' :: rest | '-' :: rest => rest
      | rest => rest
    match spanDigits rest with
    | ([], _) => .error .invalidNumber
    | (_, rest) => .ok rest
  | text => .ok text

/-- Passes over a number after its sign. -/
def skipNumber (text : List Char) : Except ReadError (List Char) :=
  match spanDigits text with
  | ([], _) => .error .invalidNumber
  | ('0' :: _ :: _, _) => .error .invalidNumber
  | (_, '.' :: rest) =>
    match spanDigits rest with
    | ([], _) => .error .invalidNumber
    | (_, rest) => skipExponent rest
  | (_, rest) => skipExponent rest

/-- Passes over a key and its colon. -/
def skipKey (text : List Char) : Except ReadError (List Char) :=
  match skipBlanks text with
  | [] => .error .endInObject
  | '"' :: rest => do readColon (← skipString (rest.length + 1) rest)
  | _ :: _ => .error .keyMustBeAString

/-- Passes over the items of a list up to its closing bracket. -/
def skipItems (item : List Char → Except ReadError (List Char)) :
    Nat → Bool → List Char → Except ReadError (List Char)
  | 0, _, _ => .error .endInList
  | size + 1, first, text =>
    match skipBlanks text with
    | [] => .error .endInList
    | ']' :: rest => .ok rest
    | c :: rest =>
      if first then do skipItems item size false (← item (c :: rest))
      else if c = ',' then do skipItems item size false (← item rest)
      else .error .expectedListCommaOrEnd

/-- Passes over the members of an object up to its closing bracket. -/
def skipMembers (item : List Char → Except ReadError (List Char)) :
    Nat → Bool → List Char → Except ReadError (List Char)
  | 0, _, _ => .error .endInObject
  | size + 1, first, text =>
    match skipBlanks text with
    | [] => .error .endInObject
    | '}' :: rest => .ok rest
    | c :: rest =>
      if first then do
        skipMembers item size false (← item (← skipKey (c :: rest)))
      else if c = ',' then do
        skipMembers item size false (← item (← skipKey rest))
      else .error .expectedObjectCommaOrEnd

/-- Passes over a value nested at most `depth` levels deep in a text of at most `size` characters. -/
def skipWithin (size : Nat) : Nat → List Char → Except ReadError (List Char)
  | depth, text =>
    match skipBlanks text with
    | [] => .error .endInValue
    | 'n' :: rest => readIdent ['u', 'l', 'l'] rest
    | 't' :: rest => readIdent ['r', 'u', 'e'] rest
    | 'f' :: rest => readIdent ['a', 'l', 's', 'e'] rest
    | '"' :: rest => skipString (size + 1) rest
    | '-' :: rest => skipNumber rest
    | '[' :: rest =>
      match depth with
      | 0 => .error .tooDeep
      | depth + 1 => skipItems (skipWithin size depth) (size + 1) true rest
    | '{' :: rest =>
      match depth with
      | 0 => .error .tooDeep
      | depth + 1 => skipMembers (skipWithin size depth) (size + 1) true rest
    | c :: rest => if c.isDigit then skipNumber (c :: rest) else .error .expectedValue

/-- Passes over one value of any nesting. -/
def skipValue (text : List Char) : Except ReadError (List Char) :=
  skipWithin text.length text.length text

end SentenceEngine.Json
