import SentenceEngine.Schema.Basic
import SentenceEngine.Json.Decoding

/-!
# Schemas as JSON

A schema is written as an object with its tag under `type`. Whatever has its default value is left
out. Reading looks at `name` and `optional` first, then at the tag, and then at the members that
the tag knows, in the order of their keys; members that it does not know are ignored.
-/

namespace SentenceEngine.Schema

/-! ## Writing -/

/-- A member that is written only when its flag is set. -/
def flagEntry (key : String) (flag : Bool) : List (String × Json) :=
  if flag then [(key, .bool true)] else []

/-- A member that is written only when it has a value. -/
def optionEntry {α : Type} (key : String) (encode : α → Json) : Option α → List (String × Json)
  | none => []
  | some value => [(key, encode value)]

mutual
/-- The value of a schema. -/
def toJson : Schema → Json
  | .node optional name kind =>
    Json.ofEntries (flagEntry "optional" optional ++ optionEntry "name" .string name ++
      ("type", .string kind.tag.name) :: kindEntries kind)

/-- The members that belong to a kind. -/
def kindEntries : SchemaKind → List (String × Json)
  | .string minLength maxLength labelReference =>
    optionEntry "minLength" Json.ofNat minLength ++ optionEntry "maxLength" Json.ofNat maxLength ++
      flagEntry "label_reference" labelReference
  | .number min max =>
    optionEntry "min" (fun d => .number (.double d)) min ++
      optionEntry "max" (fun d => .number (.double d)) max
  | .array content => [("content", toJson content)]
  | .object fields rest dynamicKeys =>
    (if fields.isEmpty then [] else [("content", .object (fieldsToJson fields))]) ++
      restEntry rest ++ flagEntry "allow_dynamic_keys" dynamicKeys
  | .alternatives candidates => [("schema", .array (candidatesToJson candidates))]
  | .reference target => [("reference_name", .string target)]
  | .any => []
  | .boolean => []
  | .null => []
  | .sentences => []

/-- The member for the other keys of an object. -/
def restEntry : Option Schema → List (String × Json)
  | none => []
  | some schema => [("value", toJson schema)]

/-- The values of named schemas. -/
def fieldsToJson : List (String × Schema) → List (String × Json)
  | [] => []
  | (key, schema) :: rest => (key, toJson schema) :: fieldsToJson rest

/-- The values of a list of schemas. -/
def candidatesToJson : List Schema → List Json
  | [] => []
  | schema :: rest => toJson schema :: candidatesToJson rest
end

/-! ## Reading -/

/-- Reads a member, if it is there. -/
def decodeAt {α : Type} (members : Members) (key : String) (decode : Json → Except DecodeError α) :
    Except DecodeError (Option α) :=
  match members.find? key with
  | some value => (decode value).map some
  | none => .ok none

/-- Reads a member, if it is there and not null. -/
def decodeOptionAt {α : Type} (members : Members) (key : String)
    (decode : Json → Except DecodeError α) : Except DecodeError (Option α) := do
  .ok (← decodeAt members key (Json.decodeOption decode)).join

/-- A tag is given by its name, or by its number in the list of tags. -/
def decodeTag : Json → Except DecodeError SchemaTag
  | .string text =>
    match SchemaTag.all.find? (·.name == text) with
    | some tag => .ok tag
    | none => .error (.unknownVariant text (SchemaTag.all.map (·.name)))
  | .number (.integer value lower upper) =>
    let found := Found.ofJson (.number (.integer value lower upper))
    if value < 0 then .error (.invalidType found .variant)
    else match SchemaTag.all[value.toNat]? with
      | some tag => .ok tag
      | none => .error (.invalidValue found (.variantIndex SchemaTag.all.length))
  | value => .error (value.mismatch .variant)

mutual
/-- The schema that a value stands for. -/
def decode : Json → Except DecodeError Schema
  | .object members => do
    let name ← decodeOptionAt members "name" Json.decodeString
    let optional ← decodeAt members "optional" Json.decodeBool
    let some tag ← decodeAt members "type" decodeTag | .error (.missingField "type")
    let kind : SchemaKind ← match tag with
      | .any => .ok .any
      | .string => do
        let labelReference ← decodeAt members "label_reference" Json.decodeBool
        let maxLength ← decodeOptionAt members "maxLength" Json.decodeSize
        let minLength ← decodeOptionAt members "minLength" Json.decodeSize
        .ok (.string minLength maxLength (labelReference.getD false))
      | .number => do
        let max ← decodeOptionAt members "max" Json.decodeDouble
        let min ← decodeOptionAt members "min" Json.decodeDouble
        .ok (.number min max)
      | .boolean => .ok .boolean
      | .null => .ok .null
      | .array => do
        let some content ← decodeSchemaAt "content" members | .error (.missingField "content")
        .ok (.array content)
      | .object => do
        let dynamicKeys ← decodeAt members "allow_dynamic_keys" Json.decodeBool
        let fields ← decodeFieldsAt "content" members
        let rest ← decodeRestAt "value" members
        .ok (.object fields rest (dynamicKeys.getD false))
      | .sentences => .ok .sentences
      | .alternatives => do .ok (.alternatives (← decodeCandidatesAt "schema" members))
      | .reference => do
        let some target ← decodeAt members "reference_name" Json.decodeString
          | .error (.missingField "reference_name")
        .ok (.reference target)
    .ok (.node (optional.getD false) name kind)
  | value => .error (value.mismatch (.struct "Schema"))

/-- The schema under a key, if it is there. -/
def decodeSchemaAt (wanted : String) : List (String × Json) → Except DecodeError (Option Schema)
  | [] => .ok none
  | (key, value) :: rest =>
    if key = wanted then do .ok (some (← decode value)) else decodeSchemaAt wanted rest

/-- The schema under a key, if it is there and not null. -/
def decodeRestAt (wanted : String) : List (String × Json) → Except DecodeError (Option Schema)
  | [] => .ok none
  | (key, value) :: rest =>
    if key = wanted then
      match value with
      | .null => .ok none
      | value => do .ok (some (← decode value))
    else decodeRestAt wanted rest

/-- The named schemas under a key, none if it is absent. -/
def decodeFieldsAt (wanted : String) : List (String × Json) → Except DecodeError Fields
  | [] => .ok []
  | (key, value) :: rest =>
    if key = wanted then
      match value with
      | .object members => decodeFields members
      | value => .error (value.mismatch .map)
    else decodeFieldsAt wanted rest

/-- The list of schemas under a key, empty if it is absent. -/
def decodeCandidatesAt (wanted : String) :
    List (String × Json) → Except DecodeError (List Schema)
  | [] => .ok []
  | (key, value) :: rest =>
    if key = wanted then
      match value with
      | .array items => decodeCandidates items
      | value => .error (value.mismatch .sequence)
    else decodeCandidatesAt wanted rest

/-- Named schemas. -/
def decodeFields : List (String × Json) → Except DecodeError Fields
  | [] => .ok []
  | (key, value) :: rest => do
    let schema ← decode value
    .ok ((key, schema) :: (← decodeFields rest))

/-- A list of schemas. -/
def decodeCandidates : List Json → Except DecodeError (List Schema)
  | [] => .ok []
  | value :: rest => do
    let schema ← decode value
    .ok (schema :: (← decodeCandidates rest))
end

/-- The named schemas that an object stands for. -/
def decodeDictionary : Json → Except DecodeError Fields
  | .object members => decodeFields members
  | value => .error (value.mismatch .map)

end SentenceEngine.Schema
