import SentenceEngine.Proofs.Deciding

/-!
# What a validation does, in order

A validation goes through a program depth first. What it comes upon, and in which order, does not
depend on the labels that it has seen: they only decide whether a string that has to name a label is
refused. Here the order is written down as a plan, a tree without any labels seen so far, and the
validator is shown to carry out the plan of a program.

* `Plan`, `Plan.run`: plans, and carrying them out.
* `Plan.ofValue`, `Plan.ofSentence`, `Plan.ofInstruction`: the plans for the parts of a program.
* `Plan.run_ofProgram`: a validation carries out the plan of the program.
-/

namespace SentenceEngine

/-- A label and the place where it stands. -/
structure Declaration where
  path : Path
  label : String

/-- What opens when a program is looked into: the labels that stand directly in a sequence, or a
label that is a program of its own. -/
structure Scope where
  path : Path
  declarations : List Declaration

/-- A string that has to name a label, with the bounds on its length. -/
structure LabelReference where
  handler : String
  path : Path
  minLength : Option Nat
  maxLength : Option Nat
  text : String

namespace Check

/-- Declares labels one after the other. -/
def declareAll : List Declaration → Check Unit
  | [] => pure ()
  | first :: rest => do
    declare first.path first.label
    declareAll rest

/-- Checks a string that has to name a label. -/
def resolve (reference : LabelReference) : Check Unit :=
  checkString reference.handler reference.path reference.minLength reference.maxLength true
    reference.text

end Check

/-- What a validation does, step by step. -/
inductive Plan where
  /-- Something whose outcome is known without any labels. -/
  | settled (outcome : Except ValidationError Unit)
  /-- A string that has to name a label. -/
  | refer (reference : LabelReference)
  /-- A scope, and what is checked inside it once all its labels are declared. -/
  | within (scope : Scope) (body : Plan)
  /-- One plan, and another one if the first succeeds. -/
  | andThen (first next : Plan)
  /-- A candidate, and another plan if the candidate fails. -/
  | attempt (candidate otherwise : Plan)

namespace Plan

/-- Carries out a plan. -/
def run : Plan → Check Unit
  | settled outcome => fun pass => (outcome, pass)
  | refer reference => Check.resolve reference
  | within scope body => do
    Check.declareAll scope.declarations
    body.run
  | andThen first next => do
    first.run
    next.run
  | attempt candidate otherwise => do
    if ← Check.succeeds candidate.run then pure () else otherwise.run

/-! ## Plans of values -/

/-- Nothing to do. -/
def done : Plan := settled (.ok ())

/-- A failure. -/
def refuse (handler : String) (path : Path) (violation : Violation) : Plan :=
  settled (.error ⟨path, handler, violation⟩)

/-- The items of a list. -/
def ofItems (plan : Path → Json → Plan) (path : Path) : Nat → List Json → Plan
  | _, [] => done
  | position, item :: rest =>
    andThen (plan (path.item position) item) (ofItems plan path (position + 1) rest)

/-- The fields of an object, in their order. -/
def ofFields (plan : Schema → Path → Json → Plan) (handler : String) (path : Path)
    (members : Members) : List (String × Schema) → Plan
  | [] => done
  | (key, schema) :: rest =>
    andThen
      (match members.find? key with
        | some value => plan schema (path.field key) value
        | none => if schema.isOptional then done else refuse handler (path.field key) .missingField)
      (ofFields plan handler path members rest)

/-- The members of an object that are no fields. -/
def ofOthers (plan : Schema → Path → Json → Plan) (handler : String) (path : Path)
    (fields : Fields) (rest : Option Schema) (dynamicKeys : Bool) : List (String × Json) → Plan
  | [] => done
  | (key, value) :: others =>
    andThen
      (if fields.hasKey key then done
        else match rest with
          | some schema => plan schema (path.field key) value
          | none => if dynamicKeys then done else refuse handler path (.unexpectedKey key))
      (ofOthers plan handler path fields rest dynamicKeys others)

/-- Candidates, and a failure if none of them succeeds. -/
def ofCandidates (plan : Schema → Plan) (failure : Plan) : List Schema → Plan
  | [] => failure
  | candidate :: rest => attempt (plan candidate) (ofCandidates plan failure rest)

/-- A value at a node inside other nodes. What the node says about a value without parts needs no
labels, unless it asks for a label. -/
def ofValue (analyze : Path → Sentence → Plan) (handler : String) :
    Nat → List Schema → Schema → Path → Json → Plan
  | 0, _ => fun _ path _ => refuse handler path .tooDeep
  | depth + 1, enclosing => fun schema path value =>
    let inner := ofValue analyze handler depth (schema :: enclosing)
    match schema.kind, value with
    | .string minLength maxLength true, .string text =>
      refer ⟨handler, path, minLength, maxLength, text⟩
    | .array content, .array items => ofItems (inner content) path 0 items
    | .object fields rest dynamicKeys, .object members =>
      andThen (ofFields inner handler path members fields)
        (ofOthers inner handler path fields rest dynamicKeys members)
    | .sentences, value =>
      match Sentence.ofJson value with
      | .ok sentence => analyze path sentence
      | .error error => refuse handler path (.invalidSentence error)
    | .alternatives candidates, value =>
      if candidates.isEmpty then done
      else ofCandidates (inner · path value)
        (refuse handler path (.noAlternative (candidates.map (·.kind.tag)))) candidates
    | .reference target, value =>
      match enclosing.find? (·.name? == some target) with
      | some schema => inner schema path value
      | none => refuse handler path (.unresolvedReference target)
    | _, value =>
      settled (Check.check (fun _ _ => pure ()) handler 1 [] schema path value Pass.start).1

/-! ## Plans of programs -/

/-- The labels that stand directly in a sequence. -/
def directLabels (path : Path) : Nat → List Sentence → List Declaration
  | _, [] => []
  | position, .label text :: rest =>
    ⟨path.item position, text⟩ :: directLabels path (position + 1) rest
  | position, _ :: rest => directLabels path (position + 1) rest

/-- The sentences of a sequence whose own labels are declared. -/
def ofSentences (instruction : Path → Instruction → Plan) (path : Path) :
    Nat → List Sentence → Plan
  | _, [] => done
  | position, .label _ :: rest => ofSentences instruction path (position + 1) rest
  | position, .instruction i :: rest =>
    andThen (instruction (path.item position) i) (ofSentences instruction path (position + 1) rest)
  | position, .sequence items :: rest =>
    andThen
      (within ⟨path.item position, directLabels (path.item position) 0 items⟩
        (ofSentences instruction (path.item position) 0 items))
      (ofSentences instruction path (position + 1) rest)

/-- A program. -/
def ofSentence (instruction : Path → Instruction → Plan) (path : Path) : Sentence → Plan
  | .label text => within ⟨path, [⟨path, text⟩]⟩ done
  | .instruction i => instruction path i
  | .sequence items =>
    within ⟨path, directLabels path 0 items⟩ (ofSentences instruction path 0 items)

/-- An instruction; the first argument bounds how deep instructions stand inside parameters. -/
def ofInstruction (lookup : SchemaLookup) : Nat → Path → Instruction → Plan
  | 0, path, i => refuse i.handler path .tooDeep
  | nesting + 1, path, i =>
    match lookup i.handler with
    | some fields =>
      ofFields (ofValue (ofSentence (ofInstruction lookup nesting)) i.handler maxSchemaDepth [])
        i.handler path i.params fields
    | none => refuse i.handler path (.unknownHandler i.handler)

/-- The plan of a whole program. -/
def ofProgram (lookup : SchemaLookup) (program : Sentence) : Plan :=
  ofSentence (ofInstruction lookup program.nesting) .root program

/-! ## Carrying plans out -/

/-- A step for which the pass is of no account. -/
def IsSettled (step : Check Unit) : Prop := ∀ pass, step pass = ((step Pass.start).1, pass)

theorem IsSettled.run_eq {step : Check Unit} (h : IsSettled step) :
    (settled (step Pass.start).1).run = step := by
  funext pass
  exact (h pass).symm

theorem isSettled_pure : IsSettled (pure ()) := fun _ => rfl

theorem isSettled_fail {handler : String} {path : Path} {violation : Violation} :
    IsSettled (Check.fail handler path violation) := fun _ => rfl

theorem isSettled_checkString {handler : String} {path : Path} {min max : Option Nat}
    {text : String} : IsSettled (Check.checkString handler path min max false text) := by
  intro pass
  unfold Check.checkString
  rcases min with _ | min <;> rcases max with _ | max
  · rfl
  · dsimp only
    split <;> rfl
  · dsimp only
    split <;> rfl
  · dsimp only
    split
    · rfl
    · split <;> rfl

theorem isSettled_checkNumber {handler : String} {path : Path} {min max : Option Double}
    {value : Double} : IsSettled (Check.checkNumber handler path min max value) := by
  intro pass
  unfold Check.checkNumber
  rcases min with _ | min <;> rcases max with _ | max
  · rfl
  · dsimp only
    split <;> rfl
  · dsimp only
    split <;> rfl
  · dsimp only
    split
    · rfl
    · split <;> rfl

section Values

variable {plan : Schema → Path → Json → Plan} {check : Check.Checker} {handler : String}
  {path : Path}

theorem run_ofItems {plan : Path → Json → Plan} {check : Path → Json → Check Unit}
    (h : ∀ path item, (plan path item).run = check path item) (position : Nat)
    (items : List Json) :
    (ofItems plan path position items).run = Check.checkItems check path position items := by
  induction items generalizing position with
  | nil => rfl
  | cons item rest ih =>
    show (plan (path.item position) item).run >>= (fun _ => (ofItems plan path _ rest).run) = _
    rw [h, ih]
    rfl

theorem run_ofFields
    (h : ∀ schema path value, (plan schema path value).run = check schema path value)
    (members : Members) (fields : List (String × Schema)) :
    (ofFields plan handler path members fields).run =
      Check.checkFields check handler path members fields := by
  induction fields with
  | nil => rfl
  | cons field rest ih =>
    rcases field with ⟨key, schema⟩
    simp only [ofFields, run, Check.checkFields, ih]
    rcases members.find? key with _ | value
    · cases schema.isOptional with
      | true => rfl
      | false => rfl
    · simp only [h]

theorem run_ofOthers
    (h : ∀ schema path value, (plan schema path value).run = check schema path value)
    (fields : Fields) (rest : Option Schema) (dynamicKeys : Bool)
    (members : List (String × Json)) :
    (ofOthers plan handler path fields rest dynamicKeys members).run =
      Check.checkOthers check handler path fields rest dynamicKeys members := by
  induction members with
  | nil => rfl
  | cons member others ih =>
    rcases member with ⟨key, value⟩
    simp only [ofOthers, run, Check.checkOthers, ih]
    cases fields.hasKey key with
    | true => rfl
    | false =>
      rcases rest with _ | schema
      · cases dynamicKeys with
        | true => rfl
        | false => rfl
      · simp [h]

theorem run_ofCandidates {plan : Schema → Plan} {check : Schema → Check Unit} {failure : Plan}
    (h : ∀ schema, (plan schema).run = check schema) (candidates : List Schema) :
    (ofCandidates plan failure candidates).run =
      (do if !(← Check.someCandidate check candidates) then failure.run) := by
  induction candidates with
  | nil => rfl
  | cons candidate rest ih =>
    simp only [ofCandidates, run, Check.someCandidate, ih, h, bind_assoc]
    congr 1
    funext found
    cases found with
    | true => rfl
    | false => rfl

end Values

theorem run_ofValue (analyze : Path → Sentence → Plan) (handler : String) (depth : Nat)
    (enclosing : List Schema) (schema : Schema) (path : Path) (value : Json) :
    (ofValue analyze handler depth enclosing schema path value).run =
      Check.check (fun path sentence => (analyze path sentence).run) handler depth enclosing schema
        path value := by
  induction depth generalizing enclosing schema path value with
  | zero => rfl
  | succ depth ih =>
    have hinner : ∀ inner path value,
        (ofValue analyze handler depth (schema :: enclosing) inner path value).run =
          Check.check (fun path sentence => (analyze path sentence).run) handler depth
            (schema :: enclosing) inner path value := by
      intro inner path value
      exact ih (schema :: enclosing) inner path value
    cases hkind : schema.kind with
    | any =>
      simp only [ofValue, Check.check, hkind]
      exact isSettled_pure.run_eq
    | string minLength maxLength labelReference =>
      cases value with
      | string text =>
        cases labelReference with
        | true =>
          simp only [ofValue, Check.check, hkind]
          rfl
        | false =>
          simp only [ofValue, Check.check, hkind]
          exact isSettled_checkString.run_eq
      | _ =>
        simp only [ofValue, Check.check, hkind]
        exact isSettled_fail.run_eq
    | number min max =>
      cases value with
      | number number =>
        simp only [ofValue, Check.check, hkind]
        exact isSettled_checkNumber.run_eq
      | _ =>
        simp only [ofValue, Check.check, hkind]
        exact isSettled_fail.run_eq
    | boolean =>
      cases value with
      | bool truth =>
        simp only [ofValue, Check.check, hkind]
        exact isSettled_pure.run_eq
      | _ =>
        simp only [ofValue, Check.check, hkind]
        exact isSettled_fail.run_eq
    | null =>
      cases value with
      | null =>
        simp only [ofValue, Check.check, hkind]
        exact isSettled_pure.run_eq
      | _ =>
        simp only [ofValue, Check.check, hkind]
        exact isSettled_fail.run_eq
    | array content =>
      cases value with
      | array items =>
        simp only [ofValue, Check.check, hkind]
        exact run_ofItems (hinner content) 0 items
      | _ =>
        simp only [ofValue, Check.check, hkind]
        exact isSettled_fail.run_eq
    | object fields rest dynamicKeys =>
      cases value with
      | object members =>
        simp only [ofValue, Check.check, hkind, run]
        rw [run_ofFields hinner, run_ofOthers hinner]
      | _ =>
        simp only [ofValue, Check.check, hkind]
        exact isSettled_fail.run_eq
    | sentences =>
      simp only [ofValue, Check.check, hkind]
      rcases Sentence.ofJson value with error | sentence
      · rfl
      · rfl
    | alternatives candidates =>
      simp only [ofValue, Check.check, hkind]
      cases candidates with
      | nil => rfl
      | cons first rest =>
        show (ofCandidates _ _ (first :: rest)).run = _
        rw [run_ofCandidates (fun candidate => hinner candidate path value)]
        rfl
    | reference target =>
      rcases hfind : enclosing.find? (·.name? == some target) with _ | found
      · simp only [ofValue, Check.check, hkind, hfind]
        rfl
      · simp only [ofValue, Check.check, hkind, hfind]
        exact hinner found path value

/-! ## Carrying out the plan of a program -/

theorem declareAll_directLabels (path : Path) (position : Nat) (items : List Sentence) :
    Check.declareAll (directLabels path position items) =
      Check.declareDirect path position items := by
  induction items generalizing position with
  | nil => rfl
  | cons item rest ih =>
    cases item with
    | label text =>
      simp only [directLabels, Check.declareAll, Check.declareDirect, ih]
    | instruction i =>
      simp only [directLabels, Check.declareDirect, ih]
    | sequence items =>
      simp only [directLabels, Check.declareDirect, ih]

theorem run_ofSentences (instruction : Path → Instruction → Plan) (path : Path) (position : Nat)
    (items : List Sentence) :
    (ofSentences instruction path position items).run =
      Check.analyzeItems (fun path i => (instruction path i).run) path position items := by
  fun_induction ofSentences instruction path position items with
  | case1 =>
    rw [Check.analyzeItems]
    rfl
  | case2 path position text rest ih =>
    simp only [Check.analyzeItems, ih]
  | case3 path position i rest ih =>
    simp only [Check.analyzeItems, run, ih]
  | case4 path position items rest ihItems ihRest =>
    simp only [Check.analyzeItems, run, ihItems, ihRest, declareAll_directLabels, bind_assoc]

theorem run_ofSentence (instruction : Path → Instruction → Plan) (path : Path)
    (sentence : Sentence) :
    (ofSentence instruction path sentence).run =
      Check.analyze (fun path i => (instruction path i).run) path sentence := by
  cases sentence with
  | label text =>
    have hdone : done.run = pure () := by rfl
    simp [ofSentence, run, Check.analyze, Check.declareAll, hdone]
  | instruction i => rfl
  | sequence items =>
    simp only [ofSentence, run, Check.analyze, run_ofSentences, declareAll_directLabels]

theorem run_ofInstruction (lookup : SchemaLookup) (nesting : Nat) (path : Path) (i : Instruction) :
    (ofInstruction lookup nesting path i).run = Check.checkInstruction lookup nesting path i := by
  induction nesting generalizing path i with
  | zero => rfl
  | succ nesting ih =>
    have hanalyze : (fun path sentence => (ofSentence (ofInstruction lookup nesting) path
        sentence).run) = Check.analyze (Check.checkInstruction lookup nesting) := by
      funext path sentence
      rw [run_ofSentence]
      congr 1
      funext path i
      exact ih path i
    rcases hlookup : lookup i.handler with _ | fields
    · simp only [ofInstruction, Check.checkInstruction, hlookup]
      rfl
    · simp only [ofInstruction, Check.checkInstruction, hlookup]
      apply run_ofFields
      intro schema path value
      rw [run_ofValue, hanalyze]

/-- A validation carries out the plan of the program. -/
theorem run_ofProgram (lookup : SchemaLookup) (program : Sentence) :
    (ofProgram lookup program).run Pass.start = Pass.over lookup program := by
  have hinstruction : (fun path i => (ofInstruction lookup program.nesting path i).run) =
      Check.checkInstruction lookup program.nesting := by
    funext path i
    exact run_ofInstruction lookup program.nesting path i
  unfold ofProgram Pass.over
  rw [run_ofSentence, hinstruction]

end Plan
end SentenceEngine
