import SentenceEngine.Json.Basic
import SentenceEngine.Text.Quoted

/-!
# Reading typed data out of JSON

What can go wrong when a value is read as data of a fixed shape, and readers for simple shapes.
-/

namespace SentenceEngine

/-- What stands where something else is expected. -/
inductive Found where
  | null
  | boolean (value : Bool)
  | integer (value : Int)
  | double (value : Double)
  | string (text : String)
  | sequence
  | map
deriving DecidableEq

/-- The wording of what was found. -/
def Found.text : Found → String
  | .null => "null"
  | .boolean value => "boolean `" ++ (if value then "true" else "false") ++ "`"
  | .integer value => "integer `" ++ toString value ++ "`"
  | .double value => "floating point `" ++ Layout.json.write value ++ "`"
  | .string text => "string " ++ Text.quoted text
  | .sequence => "sequence"
  | .map => "map"

/-- What a value turns out to be. -/
def Found.ofJson : Json → Found
  | .null => .null
  | .bool value => .boolean value
  | .number (.integer value _ _) => .integer value
  | .number (.double value) => .double value
  | .string text => .string text
  | .array _ => .sequence
  | .object _ => .map

/-- What is expected of a value. -/
inductive Wanted where
  | string
  | boolean
  | map
  | sequence
  | double
  | size
  | variant
  | variantIndex (count : Nat)
  | struct (name : String)
deriving DecidableEq, Repr

/-- The wording of what is expected. -/
def Wanted.text : Wanted → String
  | .string => "a string"
  | .boolean => "a boolean"
  | .map => "a map"
  | .sequence => "a sequence"
  | .double => "f64"
  | .size => "usize"
  | .variant => "variant identifier"
  | .variantIndex count => "variant index 0 <= i < " ++ toString count
  | .struct name => "struct " ++ name

/-- Why a value is not data of the expected shape. -/
inductive DecodeError where
  | missingField (name : String)
  | duplicateField (name : String)
  | invalidType (found : Found) (wanted : Wanted)
  | invalidValue (found : Found) (wanted : Wanted)
  | unknownVariant (name : String) (known : List String)
  | tooManyItems (length : Nat)
  /-- The words of another rule that the value breaks. -/
  | other (message : String)
deriving DecidableEq

/-- The wording of an error. -/
def DecodeError.message : DecodeError → String
  | .missingField name => "missing field `" ++ name ++ "`"
  | .duplicateField name => "duplicate field `" ++ name ++ "`"
  | .invalidType found wanted => "invalid type: " ++ found.text ++ ", expected " ++ wanted.text
  | .invalidValue found wanted => "invalid value: " ++ found.text ++ ", expected " ++ wanted.text
  | .unknownVariant name known =>
    "unknown variant `" ++ name ++ "`, expected one of " ++
      ", ".intercalate (known.map fun k => "`" ++ k ++ "`")
  | .tooManyItems length =>
    "invalid length " ++ toString length ++ ", expected fewer elements in array"
  | .other message => message

namespace Json

/-- The error of a value of the wrong kind. -/
def mismatch (value : Json) (wanted : Wanted) : DecodeError :=
  .invalidType (Found.ofJson value) wanted

/-- A string. -/
def decodeString : Json → Except DecodeError String
  | .string text => .ok text
  | value => .error (value.mismatch .string)

/-- A truth value. -/
def decodeBool : Json → Except DecodeError Bool
  | .bool value => .ok value
  | value => .error (value.mismatch .boolean)

/-- The members of an object. -/
def decodeMembers : Json → Except DecodeError Members
  | .object members => .ok members
  | value => .error (value.mismatch .map)

/-- A number, rounded to a double. -/
def decodeDouble : Json → Except DecodeError Double
  | .number value => .ok value.toDouble
  | value => .error (value.mismatch .double)

/-- A natural number of 64 bits. -/
def decodeSize : Json → Except DecodeError Nat
  | .number (.integer value lower upper) =>
    if value < 0 then
      .error (.invalidValue (Found.ofJson (.number (.integer value lower upper))) .size)
    else .ok value.toNat
  | value => .error (value.mismatch .size)

/-- Null is absent. -/
def decodeOption {α : Type} (decode : Json → Except DecodeError α) :
    Json → Except DecodeError (Option α)
  | .null => .ok none
  | value => (decode value).map some

end Json
end SentenceEngine
