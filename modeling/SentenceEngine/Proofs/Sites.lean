import SentenceEngine.Validation.Pass
import SentenceEngine.Proofs.Tidiness

/-!
# Where a validation looks

A validation follows the program, the parameters of its instructions, the members and items of
values and the programs inside them, as far as the schemas ask for it. What it comes to is told by
the steps that lead there. A candidate among alternatives is left out here: what is wrong with a
candidate is not told.

* `Reaches`: what a validation looks into, by the steps that lead there.
* `Place.follow?`: what stands in a program at the end of a list of steps.
* `Reaches.follow?`: the steps to what a validation looks into can be followed in the program.
-/

namespace SentenceEngine

/-! ## Places -/

/-- What a validation looks into: a sentence, or a value inside an instruction with this handler
that has to match a schema, around which the schemas `enclosing` are nested, innermost first. -/
inductive Site where
  | sentence (sentence : Sentence)
  | value (handler : String) (enclosing : List Schema) (schema : Schema) (value : Json)

/-- The steps from the root of a program to what a validation looks into. Schemas that only stand
for another one, and programs inside values, are at the place of the value. -/
inductive Reaches (lookup : SchemaLookup) (program : Sentence) : List PathStep → Site → Prop
  | root : Reaches lookup program [] (.sentence program)
  | item {steps : List PathStep} {items : Sequence} {position : Nat} {item : Sentence}
      (h : Reaches lookup program steps (.sentence (.sequence items)))
      (hitem : items[position]? = some item) :
      Reaches lookup program (steps ++ [.index position]) (.sentence item)
  | parameter {steps : List PathStep} {i : Instruction} {fields : Fields} {key : String}
      {schema : Schema} {value : Json}
      (h : Reaches lookup program steps (.sentence (.instruction i)))
      (hlookup : lookup i.handler = some fields) (hfield : (key, schema) ∈ fields)
      (hvalue : i.params.find? key = some value) :
      Reaches lookup program (steps ++ [.key key]) (.value i.handler [] schema value)
  | element {steps : List PathStep} {handler : String} {enclosing : List Schema}
      {schema content : Schema} {items : List Json} {position : Nat} {item : Json}
      (h : Reaches lookup program steps (.value handler enclosing schema (.array items)))
      (hkind : schema.kind = .array content) (hitem : items[position]? = some item) :
      Reaches lookup program (steps ++ [.index position])
        (.value handler (schema :: enclosing) content item)
  | field {steps : List PathStep} {handler : String} {enclosing : List Schema}
      {schema : Schema} {fields : Fields} {rest : Option Schema} {dynamicKeys : Bool}
      {members : Members} {key : String} {field : Schema} {value : Json}
      (h : Reaches lookup program steps (.value handler enclosing schema (.object members)))
      (hkind : schema.kind = .object fields rest dynamicKeys) (hfield : (key, field) ∈ fields)
      (hvalue : members.find? key = some value) :
      Reaches lookup program (steps ++ [.key key])
        (.value handler (schema :: enclosing) field value)
  | other {steps : List PathStep} {handler : String} {enclosing : List Schema}
      {schema other : Schema} {fields : Fields} {dynamicKeys : Bool} {members : Members}
      {key : String} {value : Json}
      (h : Reaches lookup program steps (.value handler enclosing schema (.object members)))
      (hkind : schema.kind = .object fields (some other) dynamicKeys)
      (hother : fields.hasKey key = false) (hvalue : (key, value) ∈ members) :
      Reaches lookup program (steps ++ [.key key])
        (.value handler (schema :: enclosing) other value)
  | reference {steps : List PathStep} {handler : String} {enclosing : List Schema}
      {schema found : Schema} {target : String} {value : Json}
      (h : Reaches lookup program steps (.value handler enclosing schema value))
      (hkind : schema.kind = .reference target)
      (hfound : enclosing.find? (·.name? == some target) = some found) :
      Reaches lookup program steps (.value handler (schema :: enclosing) found value)
  | nested {steps : List PathStep} {handler : String} {enclosing : List Schema}
      {schema : Schema} {value : Json} {sentence : Sentence}
      (h : Reaches lookup program steps (.value handler enclosing schema value))
      (hkind : schema.kind = .sentences) (hparse : Sentence.ofJson value = .ok sentence) :
      Reaches lookup program steps (.sentence sentence)

/-! ## Following the steps -/

/-- The child of a value at a step. -/
def Json.child? : Json → PathStep → Option Json
  | .array items, .index position => items[position]?
  | .object members, .key key => Dictionary.find? members key
  | _, _ => none

/-- What stands somewhere in a program: a sentence, or a value inside an instruction. -/
inductive Place where
  | sentence (sentence : Sentence)
  | value (value : Json)

namespace Place

/-- The child of a place at a step. The children of an instruction are its parameters. -/
def child? : Place → PathStep → Option Place
  | .sentence (.sequence items), .index position => items[position]?.map .sentence
  | .sentence (.instruction i), .key key => (i.params.find? key).map .value
  | .value v, step => (v.child? step).map .value
  | _, _ => none

/-- A place shows what a validation looks into. A program inside a value is still a value there. -/
inductive Shows : Place → Site → Prop
  | sentence (s : Sentence) : Shows (.sentence s) (.sentence s)
  | value (handler : String) (enclosing : List Schema) (schema : Schema) (v : Json) :
      Shows (.value v) (.value handler enclosing schema v)
  | parsed {v : Json} {s : Sentence} (h : Sentence.ofJson v = .ok s) :
      Shows (.value v) (.sentence s)

/-- All objects at a place are tidy. -/
def Tidy : Place → Prop
  | .sentence s => s.Tidy
  | .value v => v.Tidy

end Place

/-- What stands at the end of a list of steps. -/
def Place.follow? (start : Place) (steps : List PathStep) : Option Place :=
  steps.foldlM Place.child? start

theorem Place.follow?_append {start place : Place} {steps : List PathStep} {step : PathStep}
    (h : start.follow? steps = some place) :
    start.follow? (steps ++ [step]) = place.child? step := by
  unfold follow? at h ⊢
  simp [List.foldlM_append, h]

theorem Sequence.mem_instructions {items : Sequence} {position : Nat} {item : Sentence}
    {i : Instruction} (hitem : items[position]? = some item) (hi : i ∈ item.instructions) :
    i ∈ Sequence.instructions items := by
  induction items generalizing position with
  | nil => cases hitem
  | cons first rest ih =>
    rw [Sequence.instructions, List.mem_append]
    cases position with
    | zero =>
      cases hitem
      exact .inl hi
    | succ position => exact .inr (ih hitem)

theorem Place.Tidy.child? {place child : Place} {step : PathStep} (h : place.Tidy)
    (hchild : place.child? step = some child) : child.Tidy := by
  unfold Place.child? at hchild
  split at hchild
  · obtain ⟨item, hitem, rfl⟩ := Option.map_eq_some_iff.1 hchild
    intro i hi
    exact h i (Sequence.mem_instructions hitem hi)
  · obtain ⟨value, hvalue, rfl⟩ := Option.map_eq_some_iff.1 hchild
    exact (h _ (List.mem_singleton.2 rfl)).find? hvalue
  · obtain ⟨value, hvalue, rfl⟩ := Option.map_eq_some_iff.1 hchild
    unfold Json.child? at hvalue
    split at hvalue
    · cases h with
      | array hitems => exact hitems _ (List.mem_of_getElem? hvalue)
    · exact Json.Tidy.find? h hvalue
    · cases hvalue
  · cases hchild

/-- Whatever stands inside what is tidy is tidy. -/
theorem Place.Tidy.follow? {start place : Place} {steps : List PathStep} (h : start.Tidy)
    (hplace : start.follow? steps = some place) : place.Tidy := by
  induction steps generalizing start with
  | nil =>
    cases hplace
    exact h
  | cons step rest ih =>
    rw [Place.follow?, List.foldlM_cons] at hplace
    obtain ⟨child, hchild, hplace⟩ := Option.bind_eq_some_iff.1 hplace
    exact ih (h.child? hchild) hplace

/-- The sentences of a list of values are those of its items. -/
theorem Sentence.getElem?_ofItems {items : List Json} {sentences : Sequence} {position : Nat}
    {sentence : Sentence} (h : Sentence.ofItems items = .ok sentences)
    (hsentence : sentences[position]? = some sentence) :
    ∃ item, items[position]? = some item ∧ Sentence.ofJson item = .ok sentence := by
  induction items generalizing sentences position with
  | nil =>
    cases h
    cases hsentence
  | cons first rest ih =>
    rw [Sentence.ofItems] at h
    obtain ⟨parsed, hfirst, h⟩ := exists_ok_of_bind h
    obtain ⟨more, hrest, h⟩ := exists_ok_of_bind h
    cases h
    cases position with
    | zero =>
      cases hsentence
      exact ⟨first, rfl, hfirst⟩
    | succ position => exact ih hrest hsentence

/-- What a value is that stands for a sentence. -/
theorem Sentence.ofJson_cases {value : Json} {sentence : Sentence}
    (h : Sentence.ofJson value = .ok sentence) :
    (∃ text, value = .string text ∧ sentence = .label text) ∨
      (∃ members handler, value = .object members ∧
        sentence = .instruction ⟨handler, Dictionary.erase members Instruction.handlerKey⟩) ∨
      ∃ items sentences, value = .array items ∧ Sentence.ofItems items = .ok sentences ∧
        sentence = .sequence sentences := by
  cases value with
  | string text =>
    cases h
    exact .inl ⟨text, rfl, rfl⟩
  | object members =>
    simp only [Sentence.ofJson, Instruction.ofMembers] at h
    split at h
    · cases h
      exact .inr (.inl ⟨members, _, rfl, rfl⟩)
    · cases h
  | array items =>
    rw [Sentence.ofJson] at h
    rcases hitems : Sentence.ofItems items with error | sentences
    · rw [hitems] at h
      cases h
    · rw [hitems] at h
      cases h
      exact .inr (.inr ⟨items, sentences, rfl, hitems, rfl⟩)
  | null => cases h
  | bool flag => cases h
  | number number => cases h

namespace Place.Shows

variable {place : Place}

/-- The items of a sequence are shown by the children of its place. -/
theorem item {items : Sequence} {position : Nat} {item : Sentence}
    (h : place.Shows (.sentence (.sequence items))) (hitem : items[position]? = some item) :
    ∃ child, place.child? (.index position) = some child ∧ child.Shows (.sentence item) := by
  cases h with
  | sentence =>
    refine ⟨.sentence item, ?_, .sentence item⟩
    simp only [child?, hitem, Option.map_some]
  | parsed hparse =>
    rcases Sentence.ofJson_cases hparse with ⟨text, -, hs⟩ | ⟨members, handler, -, hs⟩ |
      ⟨values, sentences, rfl, hvalues, hs⟩
    · cases hs
    · cases hs
    · cases hs
      obtain ⟨value, hvalue, hitem⟩ := Sentence.getElem?_ofItems hvalues hitem
      refine ⟨.value value, ?_, .parsed hitem⟩
      simp only [child?, Json.child?, hvalue, Option.map_some]

/-- The parameters of an instruction are children of its place, also where the instruction is still
an object that names the handler among its members. -/
theorem parameter {i : Instruction} {key : String} {value : Json} (htidy : place.Tidy)
    (h : place.Shows (.sentence (.instruction i))) (hvalue : i.params.find? key = some value) :
    place.child? (.key key) = some (.value value) := by
  cases h with
  | sentence => simp only [child?, hvalue, Option.map_some]
  | parsed hparse =>
    rcases Sentence.ofJson_cases hparse with ⟨text, -, hs⟩ | ⟨members, handler, rfl, hs⟩ |
      ⟨values, sentences, -, -, hs⟩
    · cases hs
    · cases hs
      cases htidy with
      | object hsorted hmembers =>
        rw [Dictionary.find?_erase hsorted] at hvalue
        split at hvalue
        · cases hvalue
        · simp only [child?, Json.child?, hvalue, Option.map_some]
    · cases hs

theorem eq_value {handler : String} {enclosing : List Schema} {schema : Schema} {value : Json}
    (h : place.Shows (.value handler enclosing schema value)) : place = .value value := by
  cases h
  rfl

end Place.Shows

/-- The steps to what a validation looks into can be followed in the program. -/
theorem Reaches.follow? {lookup : SchemaLookup} {program : Sentence} {steps : List PathStep}
    {site : Site} (h : Reaches lookup program steps site)
    (hprogram : (Place.sentence program).Tidy) :
    ∃ place, (Place.sentence program).follow? steps = some place ∧ place.Shows site := by
  induction h with
  | root => exact ⟨_, rfl, .sentence program⟩
  | item h hitem ih =>
    obtain ⟨place, hplace, hshows⟩ := ih
    rw [Place.follow?_append hplace]
    exact hshows.item hitem
  | parameter h hlookup hfield hvalue ih =>
    obtain ⟨place, hplace, hshows⟩ := ih
    refine ⟨_, ?_, .value _ _ _ _⟩
    rw [Place.follow?_append hplace]
    exact hshows.parameter (hprogram.follow? hplace) hvalue
  | element h hkind hitem ih =>
    obtain ⟨place, hplace, hshows⟩ := ih
    cases hshows.eq_value
    refine ⟨_, ?_, .value _ _ _ _⟩
    simp only [Place.follow?_append hplace, Place.child?, Json.child?, hitem, Option.map_some]
  | field h hkind hfield hvalue ih =>
    obtain ⟨place, hplace, hshows⟩ := ih
    cases hshows.eq_value
    refine ⟨_, ?_, .value _ _ _ _⟩
    simp only [Place.follow?_append hplace, Place.child?, Json.child?, hvalue, Option.map_some]
  | other h hkind hother hvalue ih =>
    obtain ⟨place, hplace, hshows⟩ := ih
    cases hshows.eq_value
    refine ⟨_, ?_, .value _ _ _ _⟩
    -- in a tidy object a member is what is found under its key
    cases hprogram.follow? hplace with
    | object hsorted hmembers =>
      simp only [Place.follow?_append hplace, Place.child?, Json.child?,
        Dictionary.find?_of_mem hsorted hvalue, Option.map_some]
  | reference h hkind hfound ih =>
    obtain ⟨place, hplace, hshows⟩ := ih
    cases hshows.eq_value
    exact ⟨_, hplace, .value _ _ _ _⟩
  | nested h hkind hparse ih =>
    obtain ⟨place, hplace, hshows⟩ := ih
    cases hshows.eq_value
    exact ⟨_, hplace, .parsed hparse⟩

end SentenceEngine
