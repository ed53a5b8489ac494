import SentenceEngine.Proofs.Deciding
import SentenceEngine.Proofs.Sites

/-!
# What the error of a validation is about

An error names a place, an instruction and what is wrong there. The functions of the validator are
followed down to where the error comes from, with the bound on the nesting of instructions in hand,
so that it is never this bound that an error is about.

* `Site.Offends`: what can be wrong at a place, for each violation.
* `Check.Fails`: a step fails with an error; one lemma for each function of the validator.
* `Check.Fails.check_traced`: an error in a value, by the kind of the schema.
* `validate_located`: the error of a validation is about the place that its path leads to.
-/

namespace SentenceEngine

/-! ## What can be wrong -/

/-- The kind of value that a schema asks for by itself. -/
def SchemaKind.expected? : SchemaKind → Option Json.Kind
  | .string .. => some .string
  | .number .. => some .number
  | .boolean => some .boolean
  | .null => some .null
  | .array _ => some .array
  | .object .. => some .object
  | .any => none
  | .sentences => none
  | .alternatives _ => none
  | .reference _ => none

/-- What can be wrong at a place: the handler that is named, the steps beyond the place (to a key
that is missing there), and the violation. -/
inductive Site.Offends (lookup : SchemaLookup) :
    Site → String → List PathStep → Violation → Prop
  | unknownHandler {i : Instruction} (h : lookup i.handler = none) :
      Offends lookup (.sentence (.instruction i)) i.handler [] (.unknownHandler i.handler)
  | missingParameter {i : Instruction} {fields : Fields} {key : String} {schema : Schema}
      (hlookup : lookup i.handler = some fields) (hfield : (key, schema) ∈ fields)
      (hrequired : schema.isOptional = false) (habsent : i.params.find? key = none) :
      Offends lookup (.sentence (.instruction i)) i.handler [.key key] .missingField
  | missingField {handler : String} {enclosing : List Schema} {schema field : Schema}
      {fields : Fields} {rest : Option Schema} {dynamicKeys : Bool} {members : Members}
      {key : String} (hkind : schema.kind = .object fields rest dynamicKeys)
      (hfield : (key, field) ∈ fields) (hrequired : field.isOptional = false)
      (habsent : members.find? key = none) :
      Offends lookup (.value handler enclosing schema (.object members)) handler [.key key]
        .missingField
  | unexpectedKey {handler : String} {enclosing : List Schema} {schema : Schema}
      {fields : Fields} {members : Members} {key : String}
      (hkind : schema.kind = .object fields none false) (hother : fields.hasKey key = false)
      (hkey : key ∈ members.keys) :
      Offends lookup (.value handler enclosing schema (.object members)) handler []
        (.unexpectedKey key)
  | typeMismatch {handler : String} {enclosing : List Schema} {schema : Schema} {value : Json}
      {expected : Json.Kind} (hkind : schema.kind.expected? = some expected)
      (hfound : value.kind ≠ expected) :
      Offends lookup (.value handler enclosing schema value) handler []
        (.typeMismatch expected value.kind)
  | tooShort {handler : String} {enclosing : List Schema} {schema : Schema} {text : String}
      {min : Nat} {max : Option Nat} {named : Bool}
      (hkind : schema.kind = .string (some min) max named) (hshort : text.length < min) :
      Offends lookup (.value handler enclosing schema (.string text)) handler []
        (.tooShort min text.length)
  | tooLong {handler : String} {enclosing : List Schema} {schema : Schema} {text : String}
      {min : Option Nat} {max : Nat} {named : Bool}
      (hkind : schema.kind = .string min (some max) named) (hlong : max < text.length) :
      Offends lookup (.value handler enclosing schema (.string text)) handler []
        (.tooLong max text.length)
  | unresolvedLabel {handler : String} {enclosing : List Schema} {schema : Schema} {text : String}
      {min max : Option Nat} (hkind : schema.kind = .string min max true) :
      Offends lookup (.value handler enclosing schema (.string text)) handler []
        (.unresolvedLabel text)
  | belowMinimum {handler : String} {enclosing : List Schema} {schema : Schema} {number : Number}
      {min : Double} {max : Option Double} (hkind : schema.kind = .number (some min) max)
      (hbelow : number.toDouble.below min = true) :
      Offends lookup (.value handler enclosing schema (.number number)) handler []
        (.belowMinimum min number.toDouble)
  | aboveMaximum {handler : String} {enclosing : List Schema} {schema : Schema} {number : Number}
      {min : Option Double} {max : Double} (hkind : schema.kind = .number min (some max))
      (habove : max.below number.toDouble = true) :
      Offends lookup (.value handler enclosing schema (.number number)) handler []
        (.aboveMaximum max number.toDouble)
  | invalidSentence {handler : String} {enclosing : List Schema} {schema : Schema} {value : Json}
      {error : ProgramError} (hkind : schema.kind = .sentences)
      (hparse : Sentence.ofJson value = .error error) :
      Offends lookup (.value handler enclosing schema value) handler [] (.invalidSentence error)
  | noAlternative {handler : String} {enclosing : List Schema} {schema : Schema} {value : Json}
      {candidates : List Schema} (hkind : schema.kind = .alternatives candidates)
      (hsome : candidates ≠ []) :
      Offends lookup (.value handler enclosing schema value) handler []
        (.noAlternative (candidates.map (·.kind.tag)))
  | unresolvedReference {handler : String} {enclosing : List Schema} {schema : Schema}
      {value : Json} {target : String} (hkind : schema.kind = .reference target)
      (hnone : enclosing.find? (·.name? == some target) = none) :
      Offends lookup (.value handler enclosing schema value) handler []
        (.unresolvedReference target)
  | tooDeep {handler : String} {enclosing : List Schema} {schema : Schema} {value : Json}
      (hdeep : enclosing.length = maxSchemaDepth) :
      Offends lookup (.value handler enclosing schema value) handler [] .tooDeep

/-- Something is wrong at a place that a validation comes to, and the error says so. -/
def ValidationError.Located (error : ValidationError) (lookup : SchemaLookup)
    (program : Sentence) : Prop :=
  ∃ steps beyond site, error.path.steps = steps ++ beyond ∧ Reaches lookup program steps site ∧
    site.Offends lookup error.handler beyond error.violation

/-! ## Paths and heights -/

namespace Path

theorem steps_item (path : Path) (position : Nat) :
    (path.item position).steps = path.steps ++ [.index position] := List.reverse_cons

theorem steps_field (path : Path) (key : String) :
    (path.field key).steps = path.steps ++ [.key key] := List.reverse_cons

end Path

theorem Json.height_le_itemsHeight {items : List Json} {item : Json} (h : item ∈ items) :
    item.height ≤ Json.itemsHeight items := by
  induction items with
  | nil => cases h
  | cons first rest ih =>
    rw [Json.itemsHeight]
    rcases List.mem_cons.1 h with rfl | hmem
    · exact Nat.le_max_left _ _
    · exact Nat.le_trans (ih hmem) (Nat.le_max_right _ _)

theorem Json.height_le_membersHeight {members : Members} {key : String} {value : Json}
    (h : (key, value) ∈ members) : value.height ≤ Json.membersHeight members := by
  induction members with
  | nil => cases h
  | cons first rest ih =>
    obtain ⟨other, found⟩ := first
    rw [Json.membersHeight]
    rcases List.mem_cons.1 h with heq | hmem
    · cases heq
      exact Nat.le_max_left _ _
    · exact Nat.le_trans (ih hmem) (Nat.le_max_right _ _)

theorem Json.membersHeight_erase_le (members : Members) (key : String) :
    Json.membersHeight (members.erase key) ≤ Json.membersHeight members := by
  fun_induction Dictionary.erase members key with
  | case1 => exact Nat.le_refl _
  | case2 value rest =>
    rw [Json.membersHeight]
    exact Nat.le_max_right _ _
  | case3 key value rest wanted hne ih =>
    rw [Json.membersHeight, Json.membersHeight]
    omega

mutual
/-- A program in a value nests no more instructions than the value nests lists and objects. -/
theorem Sentence.nesting_ofJson_le {value : Json} {sentence : Sentence}
    (h : Sentence.ofJson value = .ok sentence) : sentence.nesting ≤ value.height := by
  rcases Sentence.ofJson_cases h with ⟨text, rfl, rfl⟩ | ⟨members, handler, rfl, rfl⟩ |
    ⟨items, sentences, rfl, hitems, rfl⟩
  · exact Nat.le_refl _
  · exact Nat.succ_le_succ (Json.membersHeight_erase_le members _)
  · exact Nat.le_succ_of_le (Sentence.itemsNesting_ofItems_le hitems)

theorem Sentence.itemsNesting_ofItems_le {items : List Json} {sentences : Sequence}
    (h : Sentence.ofItems items = .ok sentences) :
    Sentence.itemsNesting sentences ≤ Json.itemsHeight items := by
  match items with
  | [] =>
    cases h
    exact Nat.le_refl _
  | item :: rest =>
    rw [Sentence.ofItems] at h
    obtain ⟨sentence, hitem, h⟩ := exists_ok_of_bind h
    obtain ⟨more, hrest, h⟩ := exists_ok_of_bind h
    cases h
    have hfirst := Sentence.nesting_ofJson_le hitem
    have hmore := Sentence.itemsNesting_ofItems_le hrest
    rw [Sentence.itemsNesting, Json.itemsHeight]
    omega
end

/-! ## Steps that fail -/

namespace Check

/-- A step fails with an error in some state of a pass. -/
def Fails {α : Type} (step : Check α) (error : ValidationError) : Prop :=
  ∃ before after, step before = (.error error, after)

theorem Fails.cases_bind {α β : Type} {step : Check α} {next : α → Check β}
    {error : ValidationError} (h : Fails (step >>= next) error) :
    Fails step error ∨ ∃ a, Fails (next a) error := by
  obtain ⟨before, after, h⟩ := h
  rw [bind_apply] at h
  rcases hstep : step before with ⟨e | a, middle⟩
  · rw [hstep] at h
    cases h
    exact .inl ⟨before, _, hstep⟩
  · rw [hstep] at h
    exact .inr ⟨a, middle, after, h⟩

/-- One of two steps fails. -/
theorem Fails.cases_andThen {step : Check Unit} {next : Unit → Check Unit}
    {error : ValidationError} (h : Fails (step >>= next) error) :
    Fails step error ∨ Fails (next ()) error :=
  h.cases_bind.imp_right fun ⟨_, hnext⟩ => hnext

theorem not_fails_pure {α : Type} {a : α} {error : ValidationError} :
    ¬ Fails (pure a : Check α) error := by
  rintro ⟨before, after, h⟩
  cases h

theorem fails_fail {handler : String} {path : Path} {violation : Violation}
    {error : ValidationError} (h : Fails (fail handler path violation) error) :
    error = ⟨path, handler, violation⟩ := by
  obtain ⟨before, after, h⟩ := h
  cases h
  rfl

/-- A step that fails under a condition, and otherwise goes on. -/
theorem Fails.cases_unless {refused : Prop} [Decidable refused] {handler : String} {path : Path}
    {violation : Violation} {next : Check Unit} {error : ValidationError}
    (h : Fails (if refused then fail handler path violation >>= fun _ => next else next) error) :
    refused ∧ error = ⟨path, handler, violation⟩ ∨ Fails next error := by
  by_cases hrefused : refused
  · rw [if_pos hrefused] at h
    rcases h.cases_andThen with h | h
    · exact .inl ⟨hrefused, fails_fail h⟩
    · exact .inr h
  · rw [if_neg hrefused] at h
    exact .inr h

theorem Fails.checkString_cases {handler : String} {path : Path} {min max : Option Nat}
    {named : Bool} {text : String} {error : ValidationError}
    (h : Fails (checkString handler path min max named text) error) :
    (∃ bound, min = some bound ∧ text.length < bound ∧
        error = ⟨path, handler, .tooShort bound text.length⟩) ∨
      (∃ bound, max = some bound ∧ bound < text.length ∧
        error = ⟨path, handler, .tooLong bound text.length⟩) ∨
      named = true ∧ error = ⟨path, handler, .unresolvedLabel text⟩ := by
  have hlabel (h : Fails (checkString handler path none none named text) error) :
      named = true ∧ error = ⟨path, handler, .unresolvedLabel text⟩ := by
    cases named with
    | false => exact absurd h not_fails_pure
    | true =>
      obtain ⟨before, after, h⟩ := h
      change (if text ∉ before.labels then fail handler path (.unresolvedLabel text)
        else pure ()) before = _ at h
      by_cases hmem : text ∈ before.labels
      · rw [if_neg (not_not_intro hmem)] at h
        cases h
      · rw [if_pos hmem] at h
        exact ⟨rfl, fails_fail ⟨before, after, h⟩⟩
  have hmax (h : Fails (checkString handler path none max named text) error) :
      (∃ bound, max = some bound ∧ bound < text.length ∧
        error = ⟨path, handler, .tooLong bound text.length⟩) ∨
      named = true ∧ error = ⟨path, handler, .unresolvedLabel text⟩ := by
    cases max with
    | none => exact .inr (hlabel h)
    | some bound =>
      have hguard : Fails (if bound < text.length then
          fail handler path (.tooLong bound text.length) >>= fun _ =>
            checkString handler path none none named text
        else checkString handler path none none named text) error := h
      exact hguard.cases_unless.imp (fun hbound => ⟨bound, rfl, hbound⟩) hlabel
  cases min with
  | none => exact .inr (hmax h)
  | some bound =>
    have hguard : Fails (if text.length < bound then
        fail handler path (.tooShort bound text.length) >>= fun _ =>
          checkString handler path none max named text
      else checkString handler path none max named text) error := h
    exact hguard.cases_unless.imp (fun hbound => ⟨bound, rfl, hbound⟩) hmax

theorem Fails.checkNumber_cases {handler : String} {path : Path} {min max : Option Double}
    {value : Double} {error : ValidationError}
    (h : Fails (checkNumber handler path min max value) error) :
    (∃ bound, min = some bound ∧ value.below bound = true ∧
        error = ⟨path, handler, .belowMinimum bound value⟩) ∨
      ∃ bound, max = some bound ∧ bound.below value = true ∧
        error = ⟨path, handler, .aboveMaximum bound value⟩ := by
  have hmax (h : Fails (checkNumber handler path none max value) error) :
      ∃ bound, max = some bound ∧ bound.below value = true ∧
        error = ⟨path, handler, .aboveMaximum bound value⟩ := by
    cases max with
    | none => exact absurd h not_fails_pure
    | some bound =>
      have hguard : Fails (if bound.below value = true then
          fail handler path (.aboveMaximum bound value) >>= fun _ => pure ()
        else pure ()) error := h
      rcases hguard.cases_unless with hbound | hdone
      · exact ⟨bound, rfl, hbound⟩
      · exact absurd hdone not_fails_pure
  cases min with
  | none => exact .inr (hmax h)
  | some bound =>
    have hguard : Fails (if value.below bound = true then
        fail handler path (.belowMinimum bound value) >>= fun _ =>
          checkNumber handler path none max value
      else checkNumber handler path none max value) error := h
    exact hguard.cases_unless.imp (fun hbound => ⟨bound, rfl, hbound⟩) hmax

theorem Fails.checkItems_cases {check : Path → Json → Check Unit} {path : Path} {position : Nat}
    {items : List Json} {error : ValidationError}
    (h : Fails (checkItems check path position items) error) :
    ∃ index item, items[index]? = some item ∧
      Fails (check (path.item (position + index)) item) error := by
  induction items generalizing position with
  | nil => exact absurd h not_fails_pure
  | cons first rest ih =>
    rcases h.cases_andThen with hfirst | hrest
    · exact ⟨0, first, rfl, hfirst⟩
    · obtain ⟨index, item, hitem, hfails⟩ := ih hrest
      refine ⟨index + 1, item, hitem, ?_⟩
      rwa [Nat.add_right_comm, Nat.add_assoc] at hfails

/-- A field does not match, or it is missing. -/
theorem Fails.checkFields_cases {check : Checker} {handler : String} {path : Path}
    {members : Members} {fields : List (String × Schema)} {error : ValidationError}
    (h : Fails (checkFields check handler path members fields) error) :
    ∃ key schema, (key, schema) ∈ fields ∧
      ((∃ value, members.find? key = some value ∧
          Fails (check schema (path.field key) value) error) ∨
        members.find? key = none ∧ schema.isOptional = false ∧
          error = ⟨path.field key, handler, .missingField⟩) := by
  induction fields with
  | nil => exact absurd h not_fails_pure
  | cons field rest ih =>
    obtain ⟨key, schema⟩ := field
    -- what is wrong with a later field
    have hlater (h : Fails (checkFields check handler path members rest) error) :
        ∃ other field, (other, field) ∈ (key, schema) :: rest ∧
          ((∃ value, members.find? other = some value ∧
              Fails (check field (path.field other) value) error) ∨
            members.find? other = none ∧ field.isOptional = false ∧
              error = ⟨path.field other, handler, .missingField⟩) := by
      obtain ⟨other, field, hmem, hwrong⟩ := ih h
      exact ⟨other, field, List.mem_cons_of_mem _ hmem, hwrong⟩
    rcases hfind : members.find? key with _ | value
    · cases hopt : schema.isOptional with
      | true =>
        simp only [checkFields, hfind, hopt] at h
        exact hlater h
      | false =>
        simp only [checkFields, hfind, hopt] at h
        rcases Fails.cases_andThen h with h | h
        · exact ⟨key, schema, List.mem_cons_self, .inr ⟨hfind, hopt, fails_fail h⟩⟩
        · exact hlater h
    · simp only [checkFields, hfind] at h
      rcases h.cases_andThen with h | h
      · exact ⟨key, schema, List.mem_cons_self, .inl ⟨value, hfind, h⟩⟩
      · exact hlater h

/-- A member that is no field does not match, or should not be there. -/
theorem Fails.checkOthers_cases {check : Checker} {handler : String} {path : Path} {fields : Fields}
    {rest : Option Schema} {dynamicKeys : Bool} {members : List (String × Json)}
    {error : ValidationError}
    (h : Fails (checkOthers check handler path fields rest dynamicKeys members) error) :
    ∃ key value, (key, value) ∈ members ∧ fields.hasKey key = false ∧
      ((∃ schema, rest = some schema ∧ Fails (check schema (path.field key) value) error) ∨
        rest = none ∧ dynamicKeys = false ∧ error = ⟨path, handler, .unexpectedKey key⟩) := by
  induction members with
  | nil => exact absurd h not_fails_pure
  | cons member others ih =>
    obtain ⟨key, value⟩ := member
    -- what is wrong with a later member
    have hlater (h : Fails (checkOthers check handler path fields rest dynamicKeys others) error) :
        ∃ other found, (other, found) ∈ (key, value) :: others ∧ fields.hasKey other = false ∧
          ((∃ schema, rest = some schema ∧ Fails (check schema (path.field other) found) error) ∨
            rest = none ∧ dynamicKeys = false ∧
              error = ⟨path, handler, .unexpectedKey other⟩) := by
      obtain ⟨other, found, hmem, hwrong⟩ := ih h
      exact ⟨other, found, List.mem_cons_of_mem _ hmem, hwrong⟩
    cases hkey : fields.hasKey key with
    | true =>
      simp only [checkOthers, hkey] at h
      exact hlater h
    | false =>
      cases rest with
      | some schema =>
        simp only [checkOthers, hkey] at h
        rcases h.cases_andThen with h | h
        · exact ⟨key, value, List.mem_cons_self, hkey, .inl ⟨schema, rfl, h⟩⟩
        · exact hlater h
      | none =>
        cases dynamicKeys with
        | true =>
          simp only [checkOthers, hkey] at h
          exact hlater h
        | false =>
          simp only [checkOthers, hkey] at h
          rcases Fails.cases_andThen h with h | h
          · exact ⟨key, value, List.mem_cons_self, hkey, .inr ⟨rfl, rfl, fails_fail h⟩⟩
          · exact hlater h

theorem not_fails_succeeds {step : Check Unit} {error : ValidationError} :
    ¬ Fails (succeeds step) error := by
  rintro ⟨before, after, h⟩
  unfold succeeds at h
  rcases hstep : step before with ⟨e | done, middle⟩
  · rw [hstep] at h
    cases h
  · rw [hstep] at h
    cases h

/-- What is wrong with the candidates is not told. -/
theorem not_fails_someCandidate {check : Schema → Check Unit} {candidates : List Schema}
    {error : ValidationError} : ¬ Fails (someCandidate check candidates) error := by
  induction candidates with
  | nil => exact not_fails_pure
  | cons candidate rest ih =>
    intro h
    obtain h | ⟨found, h⟩ := h.cases_bind
    · exact not_fails_succeeds h
    · cases found with
      | true => exact not_fails_pure h
      | false => exact ih h

theorem not_fails_declareDirect {path : Path} {position : Nat} {items : List Sentence}
    {error : ValidationError} : ¬ Fails (declareDirect path position items) error := by
  fun_induction declareDirect path position items with
  | case1 => exact not_fails_pure
  | case2 position text rest ih =>
    intro h
    rcases h.cases_andThen with ⟨before, after, hstep⟩ | hrest
    · cases hstep
    · exact ih hrest
  | case3 position item rest hlabel ih => exact ih

end Check
/-! ## What an error is about -/

section Located

variable {lookup : SchemaLookup} {program : Sentence} {path : Path} {error : ValidationError}

theorem Reaches.located {site : Site} {handler : String} {violation : Violation}
    (h : Reaches lookup program path.steps site) (herror : error = ⟨path, handler, violation⟩)
    (hoffends : site.Offends lookup handler [] violation) : error.Located lookup program := by
  rw [herror]
  exact ⟨path.steps, [], site, (List.append_nil _).symm, h, hoffends⟩

theorem Reaches.located_field {site : Site} {handler key : String} {violation : Violation}
    (h : Reaches lookup program path.steps site)
    (herror : error = ⟨path.field key, handler, violation⟩)
    (hoffends : site.Offends lookup handler [.key key] violation) :
    error.Located lookup program := by
  rw [herror]
  exact ⟨path.steps, [.key key], site, path.steps_field key, h, hoffends⟩

namespace Check

/-- Checking the items of a sequence fails because checking an instruction in it does. -/
theorem Fails.analyzeItems_cases {instruction : Path → Instruction → Check Unit} {position : Nat}
    {items : List Sentence}
    (hreach : ∀ index item, items[index]? = some item →
      Reaches lookup program (path.item (position + index)).steps (.sentence item))
    (h : Fails (analyzeItems instruction path position items) error) :
    ∃ inner i, Reaches lookup program inner.steps (.sentence (.instruction i)) ∧
      (Sentence.instruction i).nesting ≤ Sentence.itemsNesting items ∧
      Fails (instruction inner i) error := by
  -- the sentences after the first one are reached as before, from the next position on
  have hshift {path : Path} {position : Nat} {first : Sentence} {rest : List Sentence}
      (hreach : ∀ index item, (first :: rest)[index]? = some item →
        Reaches lookup program (path.item (position + index)).steps (.sentence item))
      (index : Nat) (item : Sentence) (hitem : rest[index]? = some item) :
      Reaches lookup program (path.item (position + 1 + index)).steps (.sentence item) := by
    rw [Nat.add_assoc, Nat.add_comm 1 index]
    exact hreach (index + 1) item hitem
  fun_induction analyzeItems instruction path position items with
  | case1 => exact absurd h not_fails_pure
  | case2 path position text rest ih =>
    obtain ⟨inner, i, hinner, hnesting, hfails⟩ := ih (hshift hreach) h
    exact ⟨inner, i, hinner, Nat.le_trans hnesting (Nat.le_max_right _ _), hfails⟩
  | case3 path position i rest ih =>
    rcases h.cases_andThen with h | h
    · exact ⟨path.item position, i, hreach 0 _ rfl, Nat.le_max_left _ _, h⟩
    · obtain ⟨inner, i, hinner, hnesting, hfails⟩ := ih (hshift hreach) h
      exact ⟨inner, i, hinner, Nat.le_trans hnesting (Nat.le_max_right _ _), hfails⟩
  | case4 path position items rest ihItems ihRest =>
    -- declaring labels never fails, so it is the items of the inner sequence, or the rest
    rcases h.cases_andThen with h | h
    · exact absurd h not_fails_declareDirect
    rcases h.cases_andThen with h | h
    · have hitems (index : Nat) (item : Sentence) (hitem : items[index]? = some item) :
          Reaches lookup program ((path.item position).item (0 + index)).steps
            (.sentence item) := by
        rw [Path.steps_item, Nat.zero_add]
        exact (hreach 0 _ rfl).item hitem
      obtain ⟨inner, i, hinner, hnesting, hfails⟩ := ihItems hitems h
      exact ⟨inner, i, hinner, Nat.le_trans hnesting (Nat.le_max_left _ _), hfails⟩
    · obtain ⟨inner, i, hinner, hnesting, hfails⟩ := ihRest (hshift hreach) h
      exact ⟨inner, i, hinner, Nat.le_trans hnesting (Nat.le_max_right _ _), hfails⟩

/-- A program fails because one of its instructions does. -/
theorem Fails.analyze_cases {instruction : Path → Instruction → Check Unit} {sentence : Sentence}
    (hreach : Reaches lookup program path.steps (.sentence sentence))
    (h : Fails (analyze instruction path sentence) error) :
    ∃ inner i, Reaches lookup program inner.steps (.sentence (.instruction i)) ∧
      (Sentence.instruction i).nesting ≤ sentence.nesting ∧ Fails (instruction inner i) error := by
  cases sentence with
  | label text =>
    obtain ⟨before, after, h⟩ := h
    cases h
  | instruction i => exact ⟨path, i, hreach, Nat.le_refl _, h⟩
  | sequence items =>
    rcases h.cases_andThen with h | h
    · exact absurd h not_fails_declareDirect
    · apply Fails.analyzeItems_cases _ h
      intro index item hitem
      rw [Path.steps_item, Nat.zero_add]
      exact hreach.item hitem

/-- An error is about a place that the validation comes to, or it comes from a program inside a
value of this height. -/
def Traced (lookup : SchemaLookup) (program : Sentence) (analyze : Path → Sentence → Check Unit)
    (height : Nat) (error : ValidationError) : Prop :=
  error.Located lookup program ∨
    ∃ inner sentence, Reaches lookup program inner.steps (.sentence sentence) ∧
      sentence.nesting ≤ height ∧ Fails (analyze inner sentence) error

theorem Traced.mono {analyze : Path → Sentence → Check Unit} {height height' : Nat}
    (h : Traced lookup program analyze height error) (hle : height ≤ height') :
    Traced lookup program analyze height' error := by
  rcases h with h | ⟨inner, sentence, hinner, hnesting, hfails⟩
  · exact .inl h
  · exact .inr ⟨inner, sentence, hinner, Nat.le_trans hnesting hle, hfails⟩

theorem Fails.located_mismatch {handler : String} {enclosing : List Schema} {schema : Schema}
    {value : Json} {expected : Json.Kind}
    {kind : SchemaKind} (h : Fails (mismatch handler path expected value) error)
    (hreach : Reaches lookup program path.steps (.value handler enclosing schema value))
    (hkind : schema.kind = kind) (hexpected : kind.expected? = some expected)
    (hfound : value.kind ≠ expected) : error.Located lookup program := by
  rw [← hkind] at hexpected
  exact hreach.located (fails_fail h) (.typeMismatch hexpected hfound)

section Parts

variable {analyze : Path → Sentence → Check Unit} {inner : Checker} {handler : String}
  {enclosing : List Schema} {schema : Schema}

/-- Checking a list fails because checking an item does. -/
theorem Fails.items_traced {content : Schema} {items : List Json}
    (hinner : ∀ {path : Path} {schema' : Schema} {value : Json},
      Reaches lookup program path.steps (.value handler (schema :: enclosing) schema' value) →
      Fails (inner schema' path value) error → Traced lookup program analyze value.height error)
    (hkind : schema.kind = .array content)
    (hreach : Reaches lookup program path.steps (.value handler enclosing schema (.array items)))
    (h : Fails (checkItems (inner content) path 0 items) error) :
    Traced lookup program analyze (Json.array items).height error := by
  obtain ⟨index, item, hitem, hfails⟩ := h.checkItems_cases
  rw [Nat.zero_add] at hfails
  have hitemReach := hreach.element hkind hitem
  rw [← Path.steps_item] at hitemReach
  refine (hinner hitemReach hfails).mono ?_
  exact Nat.le_succ_of_le (Json.height_le_itemsHeight (List.mem_of_getElem? hitem))

/-- Checking an object fails because checking a member does, or because of its keys. -/
theorem Fails.members_traced {fields : Fields} {rest : Option Schema} {dynamicKeys : Bool}
    {members : Members}
    (hinner : ∀ {path : Path} {schema' : Schema} {value : Json},
      Reaches lookup program path.steps (.value handler (schema :: enclosing) schema' value) →
      Fails (inner schema' path value) error → Traced lookup program analyze value.height error)
    (hkind : schema.kind = .object fields rest dynamicKeys)
    (hreach : Reaches lookup program path.steps (.value handler enclosing schema (.object members)))
    (h : Fails (do
      checkFields inner handler path members fields
      checkOthers inner handler path fields rest dynamicKeys members) error) :
    Traced lookup program analyze (Json.object members).height error := by
  rcases h.cases_andThen with h | h
  · obtain ⟨key, field, hfield, ⟨value, hvalue, hfails⟩ | ⟨habsent, hrequired, herror⟩⟩ :=
      h.checkFields_cases
    · have hfieldReach := hreach.field hkind hfield hvalue
      rw [← Path.steps_field] at hfieldReach
      refine (hinner hfieldReach hfails).mono ?_
      exact Nat.le_succ_of_le (Json.height_le_membersHeight (Dictionary.mem_of_find? hvalue))
    · exact .inl (hreach.located_field herror (.missingField hkind hfield hrequired habsent))
  · obtain ⟨key, value, hvalue, hother, ⟨other, rfl, hfails⟩ | ⟨rfl, rfl, herror⟩⟩ :=
      h.checkOthers_cases
    · have hotherReach := hreach.other hkind hother hvalue
      rw [← Path.steps_field] at hotherReach
      refine (hinner hotherReach hfails).mono ?_
      exact Nat.le_succ_of_le (Json.height_le_membersHeight hvalue)
    · have hkey : key ∈ Dictionary.keys members := List.mem_map_of_mem hvalue
      exact .inl (hreach.located herror (.unexpectedKey hkind hother hkey))

/-- Alternatives fail as a whole. -/
theorem Fails.alternatives_located {attempt : Schema → Check Unit} {candidates : List Schema}
    {value : Json} (hkind : schema.kind = .alternatives candidates)
    (hreach : Reaches lookup program path.steps (.value handler enclosing schema value))
    (h : Fails (do
      if !candidates.isEmpty then
        if !(← someCandidate attempt candidates) then
          fail handler path (.noAlternative (candidates.map (·.kind.tag)))) error) :
    error.Located lookup program := by
  cases candidates with
  | nil => exact absurd h not_fails_pure
  | cons candidate rest =>
    obtain h | ⟨found, h⟩ := Fails.cases_bind h
    · exact absurd h not_fails_someCandidate
    · cases found with
      | true => exact absurd h not_fails_pure
      | false =>
        exact hreach.located (fails_fail h) (.noAlternative hkind (List.cons_ne_nil candidate rest))

/-- Checking a value fails for a reason that is found at the place of the value or inside it. -/
theorem Fails.check_traced {depth : Nat} {value : Json}
    (hdepth : depth + enclosing.length = maxSchemaDepth)
    (hreach : Reaches lookup program path.steps (.value handler enclosing schema value))
    (h : Fails (check analyze handler depth enclosing schema path value) error) :
    Traced lookup program analyze value.height error := by
  -- the induction is on how many schemas may still be nested; with those that are nested already
  -- they make up the limit, so running out means that the limit is reached
  induction depth generalizing enclosing schema path value with
  | zero => exact .inl (hreach.located (fails_fail h) (.tooDeep (by omega)))
  | succ depth ih =>
    have hinner : depth + (schema :: enclosing).length = maxSchemaDepth := by
      rw [List.length_cons]
      omega
    cases hkind : schema.kind with
    | any =>
      simp only [check, hkind] at h
      exact absurd h not_fails_pure
    | string min max named =>
      simp only [check, hkind] at h
      cases value with
      | string text =>
        rcases h.checkString_cases with ⟨bound, rfl, hshort, herror⟩ | ⟨bound, rfl, hlong, herror⟩ |
          ⟨rfl, herror⟩
        · exact .inl (hreach.located herror (.tooShort hkind hshort))
        · exact .inl (hreach.located herror (.tooLong hkind hlong))
        · exact .inl (hreach.located herror (.unresolvedLabel hkind))
      | _ => exact .inl (h.located_mismatch hreach hkind rfl nofun)
    | number min max =>
      simp only [check, hkind] at h
      cases value with
      | number number =>
        rcases h.checkNumber_cases with ⟨bound, rfl, hbelow, herror⟩ | ⟨bound, rfl, habove, herror⟩
        · exact .inl (hreach.located herror (.belowMinimum hkind hbelow))
        · exact .inl (hreach.located herror (.aboveMaximum hkind habove))
      | _ => exact .inl (h.located_mismatch hreach hkind rfl nofun)
    | boolean =>
      simp only [check, hkind] at h
      cases value with
      | bool flag => exact absurd h not_fails_pure
      | _ => exact .inl (h.located_mismatch hreach hkind rfl nofun)
    | null =>
      simp only [check, hkind] at h
      cases value with
      | null => exact absurd h not_fails_pure
      | _ => exact .inl (h.located_mismatch hreach hkind rfl nofun)
    | array content =>
      simp only [check, hkind] at h
      cases value with
      | array items => exact Fails.items_traced (ih hinner) hkind hreach h
      | _ => exact .inl (h.located_mismatch hreach hkind rfl nofun)
    | object fields rest dynamicKeys =>
      simp only [check, hkind] at h
      cases value with
      | object members => exact Fails.members_traced (ih hinner) hkind hreach h
      | _ => exact .inl (h.located_mismatch hreach hkind rfl nofun)
    | sentences =>
      -- the program is at the place of the value that it is read from
      simp only [check, hkind] at h
      rcases hparse : Sentence.ofJson value with e | sentence
      · simp only [hparse] at h
        exact .inl (hreach.located (fails_fail h) (.invalidSentence hkind hparse))
      · simp only [hparse] at h
        have hle := Sentence.nesting_ofJson_le hparse
        exact .inr ⟨path, sentence, hreach.nested hkind hparse, hle, h⟩
    | alternatives candidates =>
      simp only [check, hkind] at h
      exact .inl (Fails.alternatives_located hkind hreach h)
    | reference target =>
      simp only [check, hkind] at h
      cases hfound : enclosing.find? (·.name? == some target) with
      | none =>
        simp only [hfound] at h
        exact .inl (hreach.located (fails_fail h) (.unresolvedReference hkind hfound))
      | some found =>
        simp only [hfound] at h
        exact ih hinner (hreach.reference hkind hfound) h

end Parts

/-- What is wrong with an instruction is found at it or inside its parameters. -/
theorem Fails.checkInstruction_located {nesting : Nat} {i : Instruction}
    (hnesting : (Sentence.instruction i).nesting ≤ nesting)
    (hreach : Reaches lookup program path.steps (.sentence (.instruction i)))
    (h : Fails (checkInstruction lookup nesting path i) error) : error.Located lookup program := by
  -- the induction is on the bound on the nesting of instructions, which never runs out: a program
  -- inside a parameter nests no more than the parameter is high
  induction nesting generalizing path i with
  | zero => exact absurd hnesting (Nat.not_succ_le_zero _)
  | succ nesting ih =>
    unfold checkInstruction at h
    cases hlookup : lookup i.handler with
    | none =>
      simp only [hlookup] at h
      exact hreach.located (fails_fail h) (.unknownHandler hlookup)
    | some fields =>
      simp only [hlookup] at h
      obtain ⟨key, schema, hfield, ⟨value, hvalue, hfails⟩ | ⟨habsent, hrequired, herror⟩⟩ :=
        h.checkFields_cases
      · have hvalueReach := hreach.parameter hlookup hfield hvalue
        rw [← Path.steps_field] at hvalueReach
        rcases hfails.check_traced rfl hvalueReach with h | ⟨inner, sentence, hinner, hle, h⟩
        · exact h
        · obtain ⟨deeper, j, hdeeper, hj, h⟩ := h.analyze_cases hinner
          apply ih _ hdeeper h
          have hheight := Json.height_le_membersHeight (Dictionary.mem_of_find? hvalue)
          have hparams : Json.membersHeight i.params ≤ nesting := Nat.le_of_succ_le_succ hnesting
          omega
      · exact hreach.located_field herror (.missingParameter hlookup hfield hrequired habsent)

end Check

end Located

/-- The error of a validation is about something that the steps of its path lead to: at what they
reach, or in place of a key that is missing there, the violation is there. -/
theorem validate_located {lookup : SchemaLookup} {program : Sentence} {error : ValidationError}
    (h : validate lookup program = .error error) :
    ∃ steps beyond site,
      error.path.text = "$" ++ String.join ((steps ++ beyond).map Path.stepText) ∧
      Reaches lookup program steps site ∧
      (program.Tidy →
        ∃ place, (Place.sentence program).follow? steps = some place ∧ place.Shows site) ∧
      site.Offends lookup error.handler beyond error.violation := by
  have hfails : Check.Fails (Check.analyze (Check.checkInstruction lookup program.nesting) .root
      program) error := by
    unfold validate examine Pass.over at h
    rcases hpass : Check.analyze (Check.checkInstruction lookup program.nesting) .root program
      Pass.start with ⟨e | done, after⟩
    · rw [hpass] at h
      cases h
      exact ⟨_, after, hpass⟩
    · rw [hpass] at h
      cases h
  have hroot : Reaches lookup program Path.root.steps (.sentence program) := .root
  obtain ⟨inner, i, hinner, hnesting, hfails⟩ := hfails.analyze_cases hroot
  obtain ⟨steps, beyond, site, hsteps, hreach, hoffends⟩ :=
    hfails.checkInstruction_located hnesting hinner
  refine ⟨steps, beyond, site, ?_, hreach, hreach.follow?, hoffends⟩
  rw [← hsteps]
  rfl

/-- Scripts of which one says a text that is not empty, and one runs a program. -/
def narration : SchemaLookup := fun handler =>
  if handler = "say" then some [("text", Schema.string.withMinLength 1)]
  else if handler = "repeat" then some [("body", .sentences)]
  else none

/-- A program whose second sentence repeats an instruction that says nothing. -/
def silence : Sentence :=
  .sequence [.label "again", .instruction ⟨"repeat",
    [("body", .object [("handler", .string "say"), ("text", .string "")])]⟩]

/-- The text that is too short is in the inner one of two instructions. -/
theorem validate_located_silence :
    validate narration silence =
      .error ⟨((Path.root.item 1).field "body").field "text", "say", .tooShort 1 0⟩ ∧
    ∃ steps beyond site,
      "$[1].body.text" = "$" ++ String.join ((steps ++ beyond).map Path.stepText) ∧
      Reaches narration silence steps site ∧
      site.Offends narration "say" beyond (.tooShort 1 0) := by
  have h : validate narration silence =
      .error ⟨((Path.root.item 1).field "body").field "text", "say", .tooShort 1 0⟩ := by
    simp only [validate, examine, Pass.over, silence, Check.analyze, Check.analyzeItems]
    rfl
  obtain ⟨steps, beyond, site, htext, hreach, -, hoffends⟩ := validate_located h
  exact ⟨h, steps, beyond, site, htext, hreach, hoffends⟩

end SentenceEngine
