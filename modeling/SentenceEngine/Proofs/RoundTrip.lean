import SentenceEngine.Schema.Equality
import SentenceEngine.Schema.Json
import SentenceEngine.Proofs.Unfolding
import SentenceEngine.Proofs.Tidiness
import Mathlib.Data.List.Forall2

/-!
# Schemas survive being written

A schema is written as an object from which everything that has its default value is left out. A
reader sees only the members, in the order of their keys, so writing must not use a key twice, and
what is left out must be what the reader supplies.

* `Schema.Regular`: the schemas that there are, lengths being numbers of 64 bits and fields standing
  in the order of their keys.
* `Schema.Reads`: which members make which node.
* `Schema.decode_toJson`: what is written is read back.
* `Schema.regular_decode`: what is read is regular, so it can be written and read back.
* `Schema.survives_writing`: both together.
-/

namespace SentenceEngine

/-! ## Regular schemas -/

/-- Lengths are numbers of 64 bits, and fields stand in the order of their keys. -/
def SchemaKind.Regular : SchemaKind → Prop
  | .string minLength maxLength _ =>
    (∀ length, minLength = some length → length < integerLimit) ∧
      ∀ length, maxLength = some length → length < integerLimit
  | .object fields _ _ => Dictionary.Sorted fields
  | _ => True

/-- All nodes of a schema are regular. -/
inductive Schema.Regular : Schema → Prop
  | node {optional : Bool} {name : Option String} {kind : SchemaKind} (hkind : kind.Regular)
      (hchildren : ∀ child ∈ kind.children, Regular child) : Regular (.node optional name kind)

/-- The keys that a kind of node knows besides those that all nodes know. -/
def SchemaTag.keys : SchemaTag → List String
  | .string => ["minLength", "maxLength", "label_reference"]
  | .number => ["min", "max"]
  | .array => ["content"]
  | .object => ["content", "value", "allow_dynamic_keys"]
  | .alternatives => ["schema"]
  | .reference => ["reference_name"]
  | .any | .boolean | .null | .sentences => []

theorem SchemaTag.nodup_keys {tag : SchemaTag} :
    (["optional", "name", "type"] ++ tag.keys).Nodup := by
  cases tag <;> decide

namespace Dictionary

variable {α : Type}

theorem find?_append {d e : Dictionary α} {key : String} :
    find? (d ++ e) key = (find? d key <|> find? e key) := by
  induction d with
  | nil => rfl
  | cons entry rest ih =>
    rcases entry with ⟨k, value⟩
    by_cases hkey : k = key
    · simp [find?, hkey]
    · simpa [find?, hkey] using ih

theorem keys_append {d e : Dictionary α} : keys (d ++ e) = keys d ++ keys e := List.map_append

end Dictionary

namespace Schema

open Dictionary (keys_append find?_append)
open Json (decodeString decodeBool decodeSize decodeDouble decodeOption)

/-! ## Reading members -/

/-- The list of schemas that a list stands for. -/
def decodeSequence : Json → Except DecodeError (List Schema)
  | .array items => decodeCandidates items
  | value => .error (value.mismatch .sequence)

section Members

variable {members : Members} {key : String}

theorem decodeAt_cons {α : Type} {decode : Json → Except DecodeError α} {k : String}
    {value : Json} : decodeAt ((k, value) :: members) key decode =
      if k = key then (decode value).map some else decodeAt members key decode := by
  by_cases hkey : k = key
  · simp only [decodeAt, Dictionary.find?, if_pos hkey]
  · simp only [decodeAt, Dictionary.find?, if_neg hkey]

theorem decodeOptionAt_cons {α : Type} {decode : Json → Except DecodeError α} {k : String}
    {value : Json} : decodeOptionAt ((k, value) :: members) key decode =
      if k = key then decodeOption decode value else decodeOptionAt members key decode := by
  rw [decodeOptionAt, decodeAt_cons]
  split
  · cases decodeOption decode value <;> rfl
  · rfl

theorem decodeSchemaAt_eq : decodeSchemaAt key members = decodeAt members key decode := by
  induction members with
  | nil => rfl
  | cons member rest ih =>
    rcases member with ⟨k, value⟩
    rw [decodeAt_cons, decodeSchemaAt, ih]
    cases decode value <;> rfl

theorem decodeRestAt_eq : decodeRestAt key members = decodeOptionAt members key decode := by
  induction members with
  | nil => rfl
  | cons member rest ih =>
    rcases member with ⟨k, value⟩
    rw [decodeOptionAt_cons, ← ih]
    cases value with
    | null => rfl -- null is as good as absent
    | bool | number | string | array | object =>
      simp only [decodeRestAt, decodeOption]
      cases decode _ <;> rfl

theorem decodeFieldsAt_eq :
    decodeFieldsAt key members = (decodeAt members key decodeDictionary).map (·.getD []) := by
  induction members with
  | nil => rfl
  | cons member rest ih =>
    rcases member with ⟨k, value⟩
    rw [decodeAt_cons]
    cases value with
    | object members =>
      rw [decodeFieldsAt, decodeDictionary, ih]
      cases decodeFields members <;> split <;> rfl
    | null | bool | number | string | array =>
      simp only [decodeFieldsAt, ih]
      split <;> rfl

theorem decodeCandidatesAt_eq :
    decodeCandidatesAt key members = (decodeAt members key decodeSequence).map (·.getD []) := by
  induction members with
  | nil => rfl
  | cons member rest ih =>
    rcases member with ⟨k, value⟩
    rw [decodeAt_cons]
    cases value with
    | array items =>
      rw [decodeCandidatesAt, decodeSequence, ih]
      cases decodeCandidates items <;> split <;> rfl
    | null | bool | number | string | object =>
      simp only [decodeCandidatesAt, ih]
      split <;> rfl

theorem decodeFields_eq_ok_iff {fields : Fields} :
    decodeFields members = .ok fields ↔
      List.Forall₂ (fun member field => member.1 = field.1 ∧ decode member.2 = .ok field.2)
        members fields := by
  induction members generalizing fields with
  | nil =>
    rw [decodeFields, List.forall₂_nil_left_iff, Except.ok.injEq, eq_comm]
  | cons member rest ih =>
    rcases member with ⟨k, value⟩
    rw [decodeFields, List.forall₂_cons_left_iff]
    constructor
    · intro h
      rcases exists_ok_of_bind h with ⟨schema, hschema, h⟩
      rcases exists_ok_of_bind h with ⟨others, hothers, h⟩
      exact ⟨(k, schema), others, ⟨rfl, hschema⟩, ih.1 hothers, (Except.ok.inj h).symm⟩
    · rintro ⟨⟨l, schema⟩, others, ⟨rfl, hschema⟩, hothers, rfl⟩
      rw [show decode value = .ok schema from hschema, ih.2 hothers]
      rfl

theorem decodeCandidates_eq_ok_iff {items : List Json} {candidates : List Schema} :
    decodeCandidates items = .ok candidates ↔
      List.Forall₂ (fun item candidate => decode item = .ok candidate) items candidates := by
  induction items generalizing candidates with
  | nil =>
    rw [decodeCandidates, List.forall₂_nil_left_iff, Except.ok.injEq, eq_comm]
  | cons item rest ih =>
    rw [decodeCandidates, List.forall₂_cons_left_iff]
    constructor
    · intro h
      rcases exists_ok_of_bind h with ⟨schema, hschema, h⟩
      rcases exists_ok_of_bind h with ⟨others, hothers, h⟩
      exact ⟨schema, others, hschema, ih.1 hothers, (Except.ok.inj h).symm⟩
    · rintro ⟨schema, others, hschema, hothers, rfl⟩
      rw [hschema, ih.2 hothers]
      rfl

end Members

/-! ## Reading nodes -/

/-- The members that a kind of node is read from. What is not there has its default. -/
inductive Reads (members : Members) : SchemaKind → Prop
  | any : Reads members .any
  | string {minLength maxLength : Option Nat} {labelReference : Option Bool}
      (hlabel : decodeAt members "label_reference" decodeBool = .ok labelReference)
      (hmax : decodeOptionAt members "maxLength" decodeSize = .ok maxLength)
      (hmin : decodeOptionAt members "minLength" decodeSize = .ok minLength) :
      Reads members (.string minLength maxLength (labelReference.getD false))
  | number {min max : Option Double} (hmax : decodeOptionAt members "max" decodeDouble = .ok max)
      (hmin : decodeOptionAt members "min" decodeDouble = .ok min) :
      Reads members (.number min max)
  | boolean : Reads members .boolean
  | null : Reads members .null
  | array {content : Schema} (hcontent : decodeAt members "content" decode = .ok (some content)) :
      Reads members (.array content)
  | object {fields : Option Fields} {rest : Option Schema} {dynamicKeys : Option Bool}
      (hdynamic : decodeAt members "allow_dynamic_keys" decodeBool = .ok dynamicKeys)
      (hfields : decodeAt members "content" decodeDictionary = .ok fields)
      (hrest : decodeOptionAt members "value" decode = .ok rest) :
      Reads members (.object (fields.getD []) rest (dynamicKeys.getD false))
  | sentences : Reads members .sentences
  | alternatives {candidates : Option (List Schema)}
      (hcandidates : decodeAt members "schema" decodeSequence = .ok candidates) :
      Reads members (.alternatives (candidates.getD []))
  | reference {target : String}
      (htarget : decodeAt members "reference_name" decodeString = .ok (some target)) :
      Reads members (.reference target)

/-- What a node is read from. -/
theorem decode_object_iff {members : Members} {schema : Schema} :
    decode (.object members) = .ok schema ↔
      ∃ name optional kind, decodeOptionAt members "name" decodeString = .ok name ∧
        decodeAt members "optional" decodeBool = .ok optional ∧
        decodeAt members "type" decodeTag = .ok (some kind.tag) ∧ Reads members kind ∧
        schema = .node (optional.getD false) name kind := by
  constructor
  · intro h
    rw [decode] at h
    rcases exists_ok_of_bind h with ⟨name, hname, h⟩
    rcases exists_ok_of_bind h with ⟨optional, hoptional, h⟩
    rcases exists_ok_of_bind h with ⟨tag, htag, h⟩
    cases tag with
    | none => cases h
    | some tag =>
      suffices hkind : ∃ kind, kind.tag = tag ∧ Reads members kind ∧
          schema = .node (optional.getD false) name kind by
        rcases hkind with ⟨kind, rfl, hreads, hschema⟩
        exact ⟨name, optional, kind, hname, hoptional, htag, hreads, hschema⟩
      -- the members of a kind are read in the order of their keys, not of its arguments
      cases tag with
      | any | boolean | null | sentences =>
        cases h
        exact ⟨_, rfl, by constructor, rfl⟩
      | string =>
        rcases exists_ok_of_bind h with ⟨label, hlabel, h⟩
        rcases exists_ok_of_bind h with ⟨max, hmax, h⟩
        rcases exists_ok_of_bind h with ⟨min, hmin, h⟩
        cases h
        exact ⟨_, rfl, .string hlabel hmax hmin, rfl⟩
      | number =>
        rcases exists_ok_of_bind h with ⟨max, hmax, h⟩
        rcases exists_ok_of_bind h with ⟨min, hmin, h⟩
        cases h
        exact ⟨_, rfl, .number hmax hmin, rfl⟩
      | array =>
        rcases exists_ok_of_bind h with ⟨content, hcontent, h⟩
        cases content with
        | none => cases h
        | some content =>
          cases h
          rw [decodeSchemaAt_eq] at hcontent
          exact ⟨_, rfl, .array hcontent, rfl⟩
      | object =>
        rcases exists_ok_of_bind h with ⟨dynamicKeys, hdynamic, h⟩
        rcases exists_ok_of_bind h with ⟨fields, hfields, h⟩
        rcases exists_ok_of_bind h with ⟨rest, hrest, h⟩
        cases h
        rw [decodeFieldsAt_eq] at hfields
        rw [decodeRestAt_eq] at hrest
        rcases exists_ok_of_map hfields with ⟨content, hcontent, rfl⟩
        exact ⟨_, rfl, .object hdynamic hcontent hrest, rfl⟩
      | alternatives =>
        rcases exists_ok_of_bind h with ⟨candidates, hcandidates, h⟩
        cases h
        rw [decodeCandidatesAt_eq] at hcandidates
        rcases exists_ok_of_map hcandidates with ⟨content, hcontent, rfl⟩
        exact ⟨_, rfl, .alternatives hcontent, rfl⟩
      | reference =>
        rcases exists_ok_of_bind h with ⟨target, htarget, h⟩
        cases target with
        | none => cases h
        | some target =>
          cases h
          exact ⟨_, rfl, .reference htarget, rfl⟩
  · rintro ⟨name, optional, kind, hname, hoptional, htag, hreads, rfl⟩
    rw [decode, hname, hoptional, htag]
    cases hreads with
    | any | boolean | null | sentences => rfl
    | string hlabel hmax hmin =>
      simp only [SchemaKind.tag, hlabel, hmax, hmin]
      rfl
    | number hmax hmin =>
      simp only [SchemaKind.tag, hmax, hmin]
      rfl
    | array hcontent =>
      simp only [SchemaKind.tag, decodeSchemaAt_eq, hcontent]
      rfl
    | object hdynamic hfields hrest =>
      simp only [SchemaKind.tag, decodeFieldsAt_eq, decodeRestAt_eq, hdynamic, hfields, hrest]
      rfl
    | alternatives hcandidates =>
      simp only [SchemaKind.tag, decodeCandidatesAt_eq, hcandidates]
      rfl
    | reference htarget =>
      simp only [SchemaKind.tag, htarget]
      rfl

/-! ## Written members

Every member is written under a condition: that there is a value, that a flag is set, that there are
fields. All of them say that the value is not what the reader supplies in its absence. -/

/-- A value, unless it is the default. -/
def unlessDefault {α : Type} [DecidableEq α] (default value : α) : Option α :=
  if value = default then none else some value

theorem getD_unlessDefault {α : Type} [DecidableEq α] (default value : α) :
    (unlessDefault default value).getD default = value := by
  unfold unlessDefault
  split
  next heq => exact heq.symm
  next => rfl

theorem eq_of_unlessDefault {α : Type} [DecidableEq α] {default value written : α}
    (h : unlessDefault default value = some written) : written = value := by
  unfold unlessDefault at h
  split at h
  · cases h
  · exact (Option.some.inj h).symm

section Entries

variable {key other : String} {α : Type} {encode : α → Json} {value : Option α}

theorem find?_optionEntry :
    Dictionary.find? (optionEntry key encode value) other =
      if key = other then value.map encode else none := by
  cases value <;> simp [optionEntry, Dictionary.find?]

theorem keys_optionEntry_sublist :
    (Dictionary.keys (optionEntry key encode value)).Sublist [key] := by
  cases value with
  | none => exact List.nil_sublist _
  | some a => exact List.Sublist.refl _

theorem flagEntry_eq {flag : Bool} :
    flagEntry key flag = optionEntry key .bool (unlessDefault false flag) := by
  cases flag <;> rfl

theorem restEntry_eq {rest : Option Schema} : restEntry rest = optionEntry "value" toJson rest := by
  cases rest <;> rfl

theorem fieldsToJson_eq {fields : Fields} :
    fieldsToJson fields = fields.map fun field => (field.1, toJson field.2) := by
  induction fields with
  | nil => rfl
  | cons field rest ih => rw [fieldsToJson, ih, List.map_cons]

theorem candidatesToJson_eq {candidates : List Schema} :
    candidatesToJson candidates = candidates.map toJson := by
  induction candidates with
  | nil => rfl
  | cons candidate rest ih => rw [candidatesToJson, ih, List.map_cons]

end Entries

/-- The members that belong to a kind, each with what is written under it if anything is. -/
theorem kindEntries_eq (kind : SchemaKind) :
    kindEntries kind = match kind with
      | .string minLength maxLength labelReference =>
        optionEntry "minLength" Json.ofNat minLength ++
          optionEntry "maxLength" Json.ofNat maxLength ++
            optionEntry "label_reference" .bool (unlessDefault false labelReference)
      | .number min max =>
        optionEntry "min" (fun d => .number (.double d)) min ++
          optionEntry "max" (fun d => .number (.double d)) max
      | .array content => optionEntry "content" toJson (some content)
      | .object fields rest dynamicKeys =>
        optionEntry "content" (fun fields => .object (fieldsToJson fields))
            (unlessDefault [] fields) ++
          optionEntry "value" toJson rest ++
            optionEntry "allow_dynamic_keys" .bool (unlessDefault false dynamicKeys)
      | .alternatives candidates =>
        optionEntry "schema" (fun candidates => .array (candidatesToJson candidates))
          (some candidates)
      | .reference target => optionEntry "reference_name" .string (some target)
      | .any | .boolean | .null | .sentences => [] := by
  cases kind with
  | string minLength maxLength labelReference => rw [kindEntries, flagEntry_eq]
  | object fields rest dynamicKeys =>
    rw [kindEntries, flagEntry_eq, restEntry_eq]
    cases fields <;> rfl
  | _ => rfl

theorem keys_kindEntries_sublist {kind : SchemaKind} :
    (Dictionary.keys (kindEntries kind)).Sublist kind.tag.keys := by
  rw [kindEntries_eq]
  cases kind with
  | any | boolean | null | sentences => exact List.Sublist.refl _
  | array | alternatives | reference => exact keys_optionEntry_sublist
  | number min max =>
    rw [keys_append]
    exact keys_optionEntry_sublist.append keys_optionEntry_sublist
  | string | object =>
    rw [keys_append, keys_append]
    exact (keys_optionEntry_sublist.append keys_optionEntry_sublist).append keys_optionEntry_sublist

/-- The members that a node is written as. -/
def nodeEntries (optional : Bool) (name : Option String) (kind : SchemaKind) :
    List (String × Json) :=
  optionEntry "optional" .bool (unlessDefault false optional) ++ optionEntry "name" .string name ++
    (optionEntry "type" (fun tag => .string tag.name) (some kind.tag) ++ kindEntries kind)

section Node

variable {optional : Bool} {name : Option String} {kind : SchemaKind}

theorem toJson_node :
    toJson (.node optional name kind) =
      .object (Dictionary.ofEntries (nodeEntries optional name kind)) := by
  rw [toJson, flagEntry_eq]
  rfl

/-- No key is used twice, so no member is lost to another one. -/
theorem nodup_keys_nodeEntries : (Dictionary.keys (nodeEntries optional name kind)).Nodup := by
  have hsublist : (Dictionary.keys (nodeEntries optional name kind)).Sublist
      (["optional", "name", "type"] ++ kind.tag.keys) := by
    rw [nodeEntries, keys_append, keys_append, keys_append]
    exact (keys_optionEntry_sublist.append keys_optionEntry_sublist).append
      (keys_optionEntry_sublist.append keys_kindEntries_sublist)
  exact hsublist.nodup SchemaTag.nodup_keys

theorem find?_ofEntries {key : String} :
    (Dictionary.ofEntries (nodeEntries optional name kind)).find? key =
      Dictionary.find? (nodeEntries optional name kind) key := by
  rw [Dictionary.ofEntries, Dictionary.find?_merge nodup_keys_nodeEntries]
  cases Dictionary.find? (nodeEntries optional name kind) key <;> rfl

theorem disjoint_keys {key : String} (hkey : key ∈ ["optional", "name", "type"]) :
    key ∉ kind.tag.keys := by
  intro hmem
  exact (List.nodup_append.1 SchemaTag.nodup_keys).2.2 key hkey key hmem rfl

/-- Under the keys of its kind a node is written as its kind is. -/
theorem find?_of_mem_keys {key : String} (hkey : key ∈ kind.tag.keys) :
    (Dictionary.ofEntries (nodeEntries optional name kind)).find? key =
      Dictionary.find? (kindEntries kind) key := by
  -- so the lookup goes past what all nodes have
  have hfresh : key ∉ ["optional", "name", "type"] := fun hmem => disjoint_keys hmem hkey
  simp only [List.mem_cons, List.not_mem_nil, or_false, not_or] at hfresh
  rcases hfresh with ⟨hoptional, hname, htype⟩
  rw [find?_ofEntries]
  simp [nodeEntries, find?_append, find?_optionEntry, Ne.symm hoptional, Ne.symm hname,
    Ne.symm htype]

theorem find?_kindEntries_eq_none {key : String} (hkey : key ∈ ["optional", "name", "type"]) :
    Dictionary.find? (kindEntries kind) key = none :=
  Dictionary.find?_eq_none.2 fun hmem => disjoint_keys hkey (keys_kindEntries_sublist.subset hmem)

theorem find?_optional :
    (Dictionary.ofEntries (nodeEntries optional name kind)).find? "optional" =
      (unlessDefault false optional).map .bool := by
  rw [find?_ofEntries, nodeEntries]
  simp [find?_append, find?_optionEntry, find?_kindEntries_eq_none]

theorem find?_name :
    (Dictionary.ofEntries (nodeEntries optional name kind)).find? "name" = name.map .string := by
  rw [find?_ofEntries, nodeEntries]
  simp [find?_append, find?_optionEntry, find?_kindEntries_eq_none]

theorem find?_type :
    (Dictionary.ofEntries (nodeEntries optional name kind)).find? "type" =
      (some kind.tag).map fun tag => .string tag.name := by
  rw [find?_ofEntries, nodeEntries]
  simp [find?_append, find?_optionEntry]

end Node

/-! ## What is written is read back -/

section Members

variable {members : Members} {key : String} {α : Type} {encode : α → Json}
  {decode : Json → Except DecodeError α} {value : Option α}

theorem decodeAt_of_find? (hfind : members.find? key = value.map encode)
    (hdecode : ∀ a, value = some a → decode (encode a) = .ok a) :
    decodeAt members key decode = .ok value := by
  cases value with
  | none => simp [decodeAt, hfind]
  | some a => simp [decodeAt, hfind, hdecode a rfl, Except.map]

theorem decodeOptionAt_of_find? (hfind : members.find? key = value.map encode)
    (hdecode : ∀ a, value = some a → decodeOption decode (encode a) = .ok (some a)) :
    decodeOptionAt members key decode = .ok value := by
  cases value with
  | none => simp [decodeOptionAt, decodeAt, hfind, bind, Except.bind]
  | some a => simp [decodeOptionAt, decodeAt, hfind, hdecode a rfl, bind, Except.bind, Except.map]

end Members

theorem decodeSize_ofNat {length : Nat} (h : length < integerLimit) :
    decodeOption decodeSize (Json.ofNat length) = .ok (some length) := by
  have hfits : leastInteger ≤ (length : Int) ∧ (length : Int) < integerLimit := by
    constructor
    · unfold leastInteger
      omega
    · exact Int.ofNat_lt.2 h
  have hnumber : Number.ofNat length = .integer length hfits.1 hfits.2 := by
    rw [Number.ofNat, Number.ofInt, dif_pos hfits]
  have hsign : ¬ (length : Int) < 0 := by omega
  rw [Json.ofNat, hnumber]
  simp only [decodeOption, decodeSize, if_neg hsign, Except.map, Int.toNat_natCast]

theorem decodeOption_toJson {schema : Schema} (h : decode (toJson schema) = .ok schema) :
    decodeOption decode (toJson schema) = .ok (some schema) := by
  cases schema
  rw [toJson_node] at h ⊢
  simp only [decodeOption, h, Except.map]

theorem decodeTag_name (tag : SchemaTag) : decodeTag (.string tag.name) = .ok tag := by
  cases tag <;> rfl

/-- A kind is read from members that are, under the keys it knows, what it is written as. -/
theorem reads_written {members : Members} {kind : SchemaKind} (hkind : kind.Regular)
    (hchildren : ∀ child ∈ kind.children, decode (toJson child) = .ok child)
    (hfind : ∀ key ∈ kind.tag.keys, members.find? key = Dictionary.find? (kindEntries kind) key) :
    Reads members kind := by
  rw [kindEntries_eq] at hfind
  cases kind with
  | any | boolean | null | sentences => constructor
  | string minLength maxLength labelReference =>
    have hmin : members.find? "minLength" = minLength.map Json.ofNat := by
      simpa [find?_append, find?_optionEntry] using
        hfind "minLength" (by simp [SchemaTag.keys, SchemaKind.tag])
    have hmax : members.find? "maxLength" = maxLength.map Json.ofNat := by
      simpa [find?_append, find?_optionEntry] using
        hfind "maxLength" (by simp [SchemaTag.keys, SchemaKind.tag])
    have hlabel : members.find? "label_reference" =
        (unlessDefault false labelReference).map .bool := by
      simpa [find?_append, find?_optionEntry] using
        hfind "label_reference" (by simp [SchemaTag.keys, SchemaKind.tag])
    rw [← getD_unlessDefault false labelReference]
    refine .string (decodeAt_of_find? hlabel ?_) (decodeOptionAt_of_find? hmax ?_)
      (decodeOptionAt_of_find? hmin ?_)
    · intro flag _
      rfl
    · intro length hlength
      exact decodeSize_ofNat (hkind.2 length hlength)
    · intro length hlength
      exact decodeSize_ofNat (hkind.1 length hlength)
  | number min max =>
    have hmin : members.find? "min" = min.map fun d => .number (.double d) := by
      simpa [find?_append, find?_optionEntry] using
        hfind "min" (by simp [SchemaTag.keys, SchemaKind.tag])
    have hmax : members.find? "max" = max.map fun d => .number (.double d) := by
      simpa [find?_append, find?_optionEntry] using
        hfind "max" (by simp [SchemaTag.keys, SchemaKind.tag])
    refine .number (decodeOptionAt_of_find? hmax ?_) (decodeOptionAt_of_find? hmin ?_)
    · intro bound _
      rfl
    · intro bound _
      rfl
  | array content =>
    have hcontent : members.find? "content" = (some content).map toJson := by
      simpa [find?_append, find?_optionEntry] using
        hfind "content" (by simp [SchemaTag.keys, SchemaKind.tag])
    refine .array (decodeAt_of_find? hcontent ?_)
    intro child hchild
    cases hchild
    exact hchildren content (List.mem_singleton_self _)
  | object fields rest dynamicKeys =>
    have hcontent : members.find? "content" =
        (unlessDefault [] fields).map fun fields => .object (fieldsToJson fields) := by
      simpa [find?_append, find?_optionEntry] using
        hfind "content" (by simp [SchemaTag.keys, SchemaKind.tag])
    have hrest : members.find? "value" = rest.map toJson := by
      simpa [find?_append, find?_optionEntry] using
        hfind "value" (by simp [SchemaTag.keys, SchemaKind.tag])
    have hdynamic : members.find? "allow_dynamic_keys" =
        (unlessDefault false dynamicKeys).map .bool := by
      simpa [find?_append, find?_optionEntry] using
        hfind "allow_dynamic_keys" (by simp [SchemaTag.keys, SchemaKind.tag])
    have hfields : decodeFields (fieldsToJson fields) = .ok fields := by
      rw [fieldsToJson_eq, decodeFields_eq_ok_iff, List.forall₂_map_left_iff, List.forall₂_same]
      intro field hfield
      exact ⟨rfl, hchildren field.2 (List.mem_append_left _ (List.mem_map_of_mem hfield))⟩
    -- what is left out is what the reader supplies
    rw [← getD_unlessDefault false dynamicKeys, ← getD_unlessDefault [] fields]
    refine .object (decodeAt_of_find? hdynamic ?_) (decodeAt_of_find? hcontent ?_)
      (decodeOptionAt_of_find? hrest ?_)
    · intro flag _
      rfl
    · intro written hwritten
      rw [eq_of_unlessDefault hwritten]
      exact hfields
    · intro child hchild
      exact decodeOption_toJson
        (hchildren child (List.mem_append_right _ (Option.mem_toList.2 hchild)))
  | alternatives candidates =>
    have hschema : members.find? "schema" =
        (some candidates).map fun candidates => .array (candidatesToJson candidates) := by
      simpa [find?_append, find?_optionEntry] using
        hfind "schema" (by simp [SchemaTag.keys, SchemaKind.tag])
    have hcandidates : decodeCandidates (candidatesToJson candidates) = .ok candidates := by
      rw [candidatesToJson_eq, decodeCandidates_eq_ok_iff, List.forall₂_map_left_iff,
        List.forall₂_same]
      exact hchildren
    -- unlike fields, candidates are written even when there are none
    change Reads members (.alternatives ((some candidates).getD []))
    refine .alternatives (decodeAt_of_find? hschema ?_)
    intro written hwritten
    cases hwritten
    exact hcandidates
  | reference target =>
    have htarget : members.find? "reference_name" = (some target).map .string := by
      simpa [find?_append, find?_optionEntry] using
        hfind "reference_name" (by simp [SchemaTag.keys, SchemaKind.tag])
    refine .reference (decodeAt_of_find? htarget ?_)
    intro text _
    rfl

/-- What is written is read back. -/
theorem decode_toJson {schema : Schema} (h : schema.Regular) :
    decode (toJson schema) = .ok schema := by
  induction h with
  | @node optional name kind hkind hchildren ih =>
    rw [toJson_node, decode_object_iff]
    refine ⟨name, unlessDefault false optional, kind, ?_, ?_, ?_, ?_, ?_⟩
    · refine decodeOptionAt_of_find? find?_name ?_
      intro text _
      rfl
    · refine decodeAt_of_find? find?_optional ?_
      intro flag _
      rfl
    · refine decodeAt_of_find? find?_type ?_
      intro tag _
      exact decodeTag_name tag
    · exact reads_written hkind ih fun key hkey => find?_of_mem_keys hkey
    · rw [getD_unlessDefault]

/-! ## What is written is tidy -/

theorem tidy_optionEntry {key : String} {α : Type} {encode : α → Json} {value : Option α}
    (h : ∀ a, value = some a → (encode a).Tidy) :
    ∀ entry ∈ optionEntry key encode value, entry.2.Tidy := by
  cases value with
  | none => exact List.forall_mem_nil _
  | some a => exact List.forall_mem_singleton.2 (h a rfl)

theorem tidy_kindEntries {kind : SchemaKind} (hkind : kind.Regular)
    (hchildren : ∀ child ∈ kind.children, (toJson child).Tidy) :
    ∀ entry ∈ kindEntries kind, entry.2.Tidy := by
  rw [kindEntries_eq]
  cases kind with
  | any | boolean | null | sentences => exact List.forall_mem_nil _
  | string minLength maxLength labelReference =>
    rw [List.forall_mem_append, List.forall_mem_append]
    exact ⟨⟨tidy_optionEntry fun _ _ => .number _, tidy_optionEntry fun _ _ => .number _⟩,
      tidy_optionEntry fun _ _ => .bool _⟩
  | number min max =>
    rw [List.forall_mem_append]
    exact ⟨tidy_optionEntry fun _ _ => .number _, tidy_optionEntry fun _ _ => .number _⟩
  | array content =>
    refine tidy_optionEntry ?_
    intro child hchild
    cases hchild
    exact hchildren content (List.mem_singleton_self _)
  | object fields rest dynamicKeys =>
    rw [List.forall_mem_append, List.forall_mem_append]
    refine ⟨⟨tidy_optionEntry ?_, tidy_optionEntry ?_⟩, tidy_optionEntry fun _ _ => .bool _⟩
    · intro written hwritten
      rw [eq_of_unlessDefault hwritten, fieldsToJson_eq]
      refine .object ?_ ?_
      · -- members stand in the order of the fields
        exact List.pairwise_map.2 hkind
      · intro key value hmem
        rcases List.mem_map.1 hmem with ⟨field, hfield, heq⟩
        cases heq
        exact hchildren field.2 (List.mem_append_left _ (List.mem_map_of_mem hfield))
    · intro child hchild
      exact hchildren child (List.mem_append_right _ (Option.mem_toList.2 hchild))
  | alternatives candidates =>
    refine tidy_optionEntry ?_
    intro written hwritten
    cases hwritten
    rw [candidatesToJson_eq]
    refine .array ?_
    intro value hmem
    rcases List.mem_map.1 hmem with ⟨candidate, hcandidate, rfl⟩
    exact hchildren candidate hcandidate
  | reference target => exact tidy_optionEntry fun _ _ => .string _

theorem tidy_toJson {schema : Schema} (h : schema.Regular) : (toJson schema).Tidy := by
  induction h with
  | node hkind _ ih =>
    rw [toJson_node]
    refine Json.tidy_empty.merge ?_
    rw [nodeEntries, List.forall_mem_append, List.forall_mem_append, List.forall_mem_append]
    exact ⟨⟨tidy_optionEntry fun _ _ => .bool _, tidy_optionEntry fun _ _ => .string _⟩,
      tidy_optionEntry fun _ _ => .string _, tidy_kindEntries hkind ih⟩

/-! ## What is read is regular -/

/-- What is read from a value, be it a schema, named schemas or a list of schemas, is regular. -/
structure ReadsRegular (value : Json) : Prop where
  schema : ∀ schema, decode value = .ok schema → schema.Regular
  fields : ∀ fields, decodeDictionary value = .ok fields →
    Dictionary.Sorted fields ∧ ∀ field ∈ fields, field.2.Regular
  candidates : ∀ candidates, decodeSequence value = .ok candidates →
    ∀ candidate ∈ candidates, candidate.Regular

section Members

variable {members : Members} {key : String} {α : Type} {decode : Json → Except DecodeError α}
  {a : α}

theorem exists_of_decodeAt (h : decodeAt members key decode = .ok (some a)) :
    ∃ value, (key, value) ∈ members ∧ decode value = .ok a := by
  unfold decodeAt at h
  split at h
  next value hfind =>
    rcases exists_ok_of_map h with ⟨_, hvalue, heq⟩
    cases heq
    exact ⟨value, Dictionary.mem_of_find? hfind, hvalue⟩
  next => cases h

theorem exists_of_decodeOptionAt (h : decodeOptionAt members key decode = .ok (some a)) :
    ∃ value, (key, value) ∈ members ∧ decode value = .ok a := by
  rcases exists_ok_of_bind h with ⟨read, hread, heq⟩
  cases read with
  | none => cases heq
  | some read =>
    cases heq
    rcases exists_of_decodeAt hread with ⟨value, hmem, hvalue⟩
    refine ⟨value, hmem, ?_⟩
    unfold decodeOption at hvalue
    split at hvalue
    · cases hvalue
    · rcases exists_ok_of_map hvalue with ⟨_, hvalue, heq⟩
      cases heq
      exact hvalue

end Members

theorem lt_of_decodeSize {value : Json} {length : Nat} (h : decodeSize value = .ok length) :
    length < integerLimit := by
  unfold decodeSize at h
  split at h
  next whole lower upper =>
    split at h
    · cases h
    · cases h
      omega
  next => cases h

/-- The keys that are read stand in the order in which they stand in the object. -/
theorem keys_decodeFields {members : Members} {fields : Fields}
    (h : decodeFields members = .ok fields) : fields.keys = members.keys := by
  rw [decodeFields_eq_ok_iff] at h
  induction h with
  | nil => rfl
  | cons hfirst _ ih => exact congrArg₂ _ hfirst.1.symm ih

/-- What stands in the second list has a partner in the first. -/
theorem exists_mem_of_forall₂ {α β : Type} {R : α → β → Prop} {xs : List α} {ys : List β}
    (h : List.Forall₂ R xs ys) {y : β} (hy : y ∈ ys) : ∃ x ∈ xs, R x y := by
  induction h with
  | nil => cases hy
  | @cons first second _ _ hfirst _ ih =>
    rcases List.mem_cons.1 hy with heq | hrest
    · exact ⟨first, List.mem_cons_self, heq ▸ hfirst⟩
    · rcases ih hrest with ⟨x, hx, hR⟩
      exact ⟨x, List.mem_cons_of_mem _ hx, hR⟩

/-- A kind is regular, and so are its children, when it is read from members from which only regular
schemas are read. -/
theorem Reads.regular {members : Members} {kind : SchemaKind} (h : Reads members kind)
    (hmembers : ∀ key value, (key, value) ∈ members → ReadsRegular value) :
    kind.Regular ∧ ∀ child ∈ kind.children, child.Regular := by
  cases h with
  | any | boolean | null | sentences | number | reference =>
    refine ⟨trivial, ?_⟩
    intro child hchild
    cases hchild
  | string _ hmax hmin =>
    refine ⟨⟨?_, ?_⟩, ?_⟩
    · rintro length rfl
      rcases exists_of_decodeOptionAt hmin with ⟨value, -, hvalue⟩
      exact lt_of_decodeSize hvalue
    · rintro length rfl
      rcases exists_of_decodeOptionAt hmax with ⟨value, -, hvalue⟩
      exact lt_of_decodeSize hvalue
    · intro child hchild
      cases hchild
  | array hcontent =>
    refine ⟨trivial, ?_⟩
    intro child hchild
    rcases exists_of_decodeAt hcontent with ⟨value, hmem, hvalue⟩
    rw [List.mem_singleton.1 hchild]
    exact (hmembers _ value hmem).schema _ hvalue
  | @object fields rest dynamicKeys _ hfields hrest =>
    have hregular : Dictionary.Sorted (fields.getD []) ∧
        ∀ field ∈ fields.getD [], field.2.Regular := by
      cases fields with
      | none => exact ⟨.nil, List.forall_mem_nil _⟩
      | some fields =>
        rcases exists_of_decodeAt hfields with ⟨value, hmem, hvalue⟩
        exact (hmembers _ value hmem).fields fields hvalue
    refine ⟨hregular.1, ?_⟩
    intro child hchild
    rcases List.mem_append.1 hchild with hfield | hrestChild
    · rcases List.mem_map.1 hfield with ⟨field, hmem, rfl⟩
      exact hregular.2 field hmem
    · rw [Option.mem_toList] at hrestChild
      cases hrestChild
      rcases exists_of_decodeOptionAt hrest with ⟨value, hmem, hvalue⟩
      exact (hmembers _ value hmem).schema child hvalue
  | @alternatives candidates hcandidates =>
    refine ⟨trivial, ?_⟩
    cases candidates with
    | none => exact List.forall_mem_nil _
    | some candidates =>
      rcases exists_of_decodeAt hcandidates with ⟨value, hmem, hvalue⟩
      exact (hmembers _ value hmem).candidates candidates hvalue

/-- What is read from a tidy value is regular: by induction on the value, whose members and items are
read as schemas, as named schemas or as lists of schemas. -/
theorem readsRegular_of_tidy {value : Json} (h : value.Tidy) : ReadsRegular value := by
  induction h with
  | null | bool | number | string =>
    constructor <;>
    · intro read hread
      cases hread
  | array _ ih =>
    constructor
    · intro schema h
      cases h
    · intro fields h
      cases h
    · intro candidates h candidate hcandidate
      rcases exists_mem_of_forall₂ (decodeCandidates_eq_ok_iff.1 h) hcandidate
        with ⟨item, hitem, hread⟩
      exact (ih item hitem).schema candidate hread
  | object hsorted _ ih =>
    constructor
    · intro schema h
      rcases decode_object_iff.1 h with ⟨name, optional, kind, -, -, -, hreads, rfl⟩
      rcases hreads.regular ih with ⟨hkind, hchildren⟩
      exact .node hkind hchildren
    · intro fields h
      constructor
      · rw [Dictionary.sorted_iff_keys, keys_decodeFields h, ← Dictionary.sorted_iff_keys]
        exact hsorted
      · intro field hfield
        rcases exists_mem_of_forall₂ (decodeFields_eq_ok_iff.1 h) hfield with ⟨member, hmem, hread⟩
        exact (ih member.1 member.2 hmem).schema field.2 hread.2
    · intro candidates h
      cases h

/-! ## Round trips -/

/-- Schemas survive being written. A regular schema is written as a tidy value, which is read back as
the same schema. What is read from any tidy value is regular; written and read again it is the same
schema, with the same written form. -/
theorem survives_writing {schema : Schema} (hschema : schema.Regular) {value : Json}
    (hvalue : value.Tidy) :
    (toJson schema).Tidy ∧ decode (toJson schema) = .ok schema ∧
      ∀ read, decode value = .ok read → read.Regular ∧
        ∃ again, decode (toJson read) = .ok again ∧ again = read ∧ toJson again = toJson read := by
  refine ⟨tidy_toJson hschema, decode_toJson hschema, ?_⟩
  intro read hread
  have hregular : read.Regular := (readsRegular_of_tidy hvalue).schema read hread
  exact ⟨hregular, read, decode_toJson hregular, rfl, rfl⟩

/-- A label and perhaps another such node; other members are numbers of at least three. -/
def chainForm : Json :=
  .object [("allow_dynamic_keys", .bool true),
    ("content", .object [
      ("label", .object [("label_reference", .bool true), ("minLength", .ofNat 1),
        ("type", .string "string")]),
      ("next", .object [("optional", .bool true), ("reference_name", .string "node"),
        ("type", .string "reference")])]),
    ("name", .string "node"), ("optional", .bool true), ("type", .string "object"),
    ("value", .object [("max", .null), ("min", .ofNat 3), ("type", .string "number")])]

theorem tidy_chainForm : chainForm.Tidy := by
  have hlabel := ((Json.tidy_empty.insert "type" (.string "string")).insert "minLength"
    (.number (Number.ofNat 1))).insert "label_reference" (.bool true)
  have hnext := ((Json.tidy_empty.insert "type" (.string "reference")).insert "reference_name"
    (.string "node")).insert "optional" (.bool true)
  have hvalue := ((Json.tidy_empty.insert "type" (.string "number")).insert "min"
    (.number (Number.ofNat 3))).insert "max" .null
  have hcontent := (Json.tidy_empty.insert "next" hnext).insert "label" hlabel
  exact (((((Json.tidy_empty.insert "value" hvalue).insert "type" (.string "object")).insert
    "optional" (.bool true)).insert "name" (.string "node")).insert "content" hcontent).insert
      "allow_dynamic_keys" (.bool true)

/-- The bound is a whole number, which is read as a double and written as one, and the null is not
written again. -/
theorem survives_writing_chainForm :
    let chain : Schema :=
      ((((object.named "node").asOptional.withField "label"
        (string.withMinLength 1).asLabelReference).withField "next"
          (reference "node").asOptional).withRest (number.withMin (Double.ofInt 3))).withDynamicKeys
    chain.Regular ∧ chainForm.Tidy ∧ decode chainForm = .ok chain ∧ toJson chain ≠ chainForm ∧
      ∃ again, decode (toJson chain) = .ok again ∧ again = chain ∧ toJson again = toJson chain := by
  intro chain
  have hread : decode chainForm = .ok chain := rfl
  have hregular : chain.Regular := (readsRegular_of_tidy tidy_chainForm).schema chain hread
  have hsurvives := survives_writing hregular tidy_chainForm
  exact ⟨hregular, tidy_chainForm, hread, by decide, (hsurvives.2.2 chain hread).2⟩

end Schema
end SentenceEngine
