import SentenceEngine.Dictionary
import SentenceEngine.Number.Double

/-!
# Schemas

A schema describes a value by its kind. A node may be optional and may have a name; a reference
node stands for the nearest enclosing node of a name, which is how shapes describe themselves.
-/

namespace SentenceEngine

mutual
/-- A node of a description: whether the value may be absent, a name for references, a kind. -/
inductive Schema where
  | node (optional : Bool) (name : Option String) (kind : SchemaKind)

/-- What a node asks of a value. -/
inductive SchemaKind where
  /-- Any value. -/
  | any
  /-- A string with inclusive bounds on its length, perhaps the name of a label. -/
  | string (minLength maxLength : Option Nat) (labelReference : Bool)
  /-- A number with inclusive bounds. -/
  | number (min max : Option Double)
  /-- A truth value. -/
  | boolean
  /-- The null value. -/
  | null
  /-- A list whose items all match. -/
  | array (content : Schema)
  /-- An object with named fields; other keys match `rest`, or are free if `dynamicKeys` is set. -/
  | object (fields : List (String × Schema)) (rest : Option Schema) (dynamicKeys : Bool)
  /-- A program. -/
  | sentences
  /-- The first candidate that matches; without candidates, any value. -/
  | alternatives (candidates : List Schema)
  /-- The nearest enclosing node of this name. -/
  | reference (target : String)
end

/-- The schemas of named fields. -/
abbrev Fields := Dictionary Schema

/-- The names that tell the kinds of schemas apart. -/
inductive SchemaTag where
  | any | string | number | boolean | null | array | object | sentences | alternatives | reference
deriving DecidableEq, Repr

namespace SchemaTag

/-- The written name. -/
def name : SchemaTag → String
  | .any => "any"
  | .string => "string"
  | .number => "number"
  | .boolean => "boolean"
  | .null => "null"
  | .array => "array"
  | .object => "object"
  | .sentences => "sentences"
  | .alternatives => "alternatives"
  | .reference => "reference"

/-- All tags, in the order in which they are listed and numbered. -/
def all : List SchemaTag :=
  [.any, .string, .number, .boolean, .null, .array, .object, .sentences, .alternatives, .reference]

end SchemaTag

/-- The tag of a kind. -/
def SchemaKind.tag : SchemaKind → SchemaTag
  | .any => .any
  | .string .. => .string
  | .number .. => .number
  | .boolean => .boolean
  | .null => .null
  | .array _ => .array
  | .object .. => .object
  | .sentences => .sentences
  | .alternatives _ => .alternatives
  | .reference _ => .reference

namespace Schema

/-- Whether the value may be absent. -/
def isOptional : Schema → Bool
  | .node optional _ _ => optional

/-- The name for references. -/
def name? : Schema → Option String
  | .node _ name _ => name

/-- The kind of the node. -/
def kind : Schema → SchemaKind
  | .node _ _ kind => kind

instance : Inhabited Schema := ⟨.node false none .any⟩

/-! ## Plain nodes -/

/-- A required node without a name. -/
def ofKind (kind : SchemaKind) : Schema := .node false none kind

/-- Any value. -/
def any : Schema := ofKind .any

/-- A string of any length. -/
def string : Schema := ofKind (.string none none false)

/-- A number without bounds. -/
def number : Schema := ofKind (.number none none)

/-- A truth value. -/
def boolean : Schema := ofKind .boolean

/-- The null value. -/
def null : Schema := ofKind .null

/-- A list with items of one shape. -/
def array (content : Schema) : Schema := ofKind (.array content)

/-- An object without any fields. -/
def object : Schema := ofKind (.object [] none false)

/-- A program. -/
def sentences : Schema := ofKind .sentences

/-- The first candidate that matches. -/
def alternatives (candidates : List Schema) : Schema := ofKind (.alternatives candidates)

/-- The nearest enclosing node of a name. -/
def reference (target : String) : Schema := ofKind (.reference target)

/-! ## Refinements

A refinement for one kind leaves nodes of the other kinds as they are. -/

/-- Changes the kind of a node. -/
def mapKind (schema : Schema) (f : SchemaKind → SchemaKind) : Schema :=
  .node schema.isOptional schema.name? (f schema.kind)

/-- Lets the value be absent. -/
def asOptional (schema : Schema) : Schema := .node true schema.name? schema.kind

/-- Gives the node a name. -/
def named (schema : Schema) (name : String) : Schema :=
  .node schema.isOptional (some name) schema.kind

/-- The least length of a string. -/
def withMinLength (schema : Schema) (length : Nat) : Schema :=
  schema.mapKind fun
    | .string _ maxLength labelReference => .string (some length) maxLength labelReference
    | kind => kind

/-- The greatest length of a string. -/
def withMaxLength (schema : Schema) (length : Nat) : Schema :=
  schema.mapKind fun
    | .string minLength _ labelReference => .string minLength (some length) labelReference
    | kind => kind

/-- Asks a string to name a label. -/
def asLabelReference (schema : Schema) : Schema :=
  schema.mapKind fun
    | .string minLength maxLength _ => .string minLength maxLength true
    | kind => kind

/-- The least number. -/
def withMin (schema : Schema) (bound : Double) : Schema :=
  schema.mapKind fun
    | .number _ max => .number (some bound) max
    | kind => kind

/-- The greatest number. -/
def withMax (schema : Schema) (bound : Double) : Schema :=
  schema.mapKind fun
    | .number min _ => .number min (some bound)
    | kind => kind

/-- A named field of an object. -/
def withField (schema : Schema) (key : String) (field : Schema) : Schema :=
  schema.mapKind fun
    | .object fields rest dynamicKeys =>
      .object (Dictionary.insert fields key field) rest dynamicKeys
    | kind => kind

/-- The shape of an object's other members. -/
def withRest (schema : Schema) (rest : Schema) : Schema :=
  schema.mapKind fun
    | .object fields _ dynamicKeys => .object fields (some rest) dynamicKeys
    | kind => kind

/-- Lets an object have other members of any shape. -/
def withDynamicKeys (schema : Schema) : Schema :=
  schema.mapKind fun
    | .object fields rest _ => .object fields rest true
    | kind => kind

end Schema
end SentenceEngine
