import SentenceEngine.Json.Basic

/-!
# Writing JSON text

A value on one line, or indented by two spaces a level. Strings escape the quote, the backslash
and the control characters, and nothing else.
-/

namespace SentenceEngine.Json

/-- The two digits of a byte in lower case. -/
def hexByte (n : Nat) : List Char := [Nat.digitChar (n / 16), Nat.digitChar (n % 16)]

/-- A character inside a string. -/
def escape (c : Char) : List Char :=
  match c with
  | '"' => ['\\', '"']
  | '\\' => ['\\', '\\']
  | '\x08' => ['\\', 'b']
  | '\x0c' => ['\\', 'f']
  | '\n' => ['\\', 'n']
  | '\r' => ['\\', 'r']
  | '\t' => ['\\', 't']
  | c => if c.toNat < 0x20 then ['\\', 'u', '0', '0'] ++ hexByte c.toNat else [c]

/-- A string between quotes. -/
def quoted (text : String) : String :=
  "\"" ++ String.ofList (text.toList.flatMap escape) ++ "\""

/-- The text of a value without members. -/
def scalarText : Json → String
  | .null => "null"
  | .bool true => "true"
  | .bool false => "false"
  | .number value => value.text
  | .string text => quoted text
  | .array _ => "[]"
  | .object _ => "\x7b\x7d"

mutual
/-- A value on one line, without blanks. -/
def compact : Json → String
  | .array items => "[" ++ compactItems true items ++ "]"
  | .object members => "\x7b" ++ compactMembers true members ++ "\x7d"
  | value => scalarText value

/-- Items after the opening bracket; the first needs no comma. -/
def compactItems (first : Bool) : List Json → String
  | [] => ""
  | item :: rest => (if first then "" else ",") ++ compact item ++ compactItems false rest

/-- Members after the opening bracket; the first needs no comma. -/
def compactMembers (first : Bool) : List (String × Json) → String
  | [] => ""
  | (key, value) :: rest =>
    (if first then "" else ",") ++ quoted key ++ ":" ++ compact value ++ compactMembers false rest
end

/-- A new line at a level of indentation. -/
def newLine (level : Nat) : String := String.ofList ('\n' :: List.replicate (2 * level) ' ')

mutual
/-- A value with one entry a line; empty lists and objects stay closed. -/
def prettyAt (level : Nat) : Json → String
  | .array (item :: items) =>
    "[" ++ newLine (level + 1) ++ prettyAt (level + 1) item ++ prettyItems (level + 1) items ++
      newLine level ++ "]"
  | .object ((key, value) :: members) =>
    "\x7b" ++ newLine (level + 1) ++ quoted key ++ ": " ++ prettyAt (level + 1) value ++
      prettyMembers (level + 1) members ++ newLine level ++ "\x7d"
  | value => scalarText value

/-- The items after the first. -/
def prettyItems (level : Nat) : List Json → String
  | [] => ""
  | item :: rest => "," ++ newLine level ++ prettyAt level item ++ prettyItems level rest

/-- The members after the first. -/
def prettyMembers (level : Nat) : List (String × Json) → String
  | [] => ""
  | (key, value) :: rest =>
    "," ++ newLine level ++ quoted key ++ ": " ++ prettyAt level value ++ prettyMembers level rest
end

/-- A value indented by two spaces a level. -/
def pretty (value : Json) : String := prettyAt 0 value

end SentenceEngine.Json
