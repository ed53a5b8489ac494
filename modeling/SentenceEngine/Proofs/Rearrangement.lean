import SentenceEngine.Proofs.Scopes

/-!
# Programs that differ in the order of labels

All labels of a sequence are declared before anything in it is looked into. Where they stand among
the other sentences is therefore of no account: the plans of two such programs differ in places and
in the order of labels only, and so do the passes that carry them out.

* `Plan.Alike`: plans that differ in places and in the order of the labels of a scope.
* `Plan.Alike.run`: what alike plans come to.
* `Sequence.Moved`: sequences whose labels stand at other positions, here or in a sequence inside.
* `Plan.alike_of_moved`: their plans are alike.
* `Plan.references_resolve`: what a string may name that has to name a label.
-/

namespace SentenceEngine

namespace Sequence

/-- The labels that stand directly in a sequence. -/
def labels (items : Sequence) : List String := items.filterMap (·.asLabel?)

/-- The sentences of a sequence that are no labels. -/
def parts (items : Sequence) : Sequence := items.filter (·.asLabel?.isNone)

/-- The labels of one sequence of a program stand at other positions, and nothing else differs. The
parameters of instructions are left alone. -/
inductive Moved : Sequence → Sequence → Prop
  | here {items items' : Sequence} (hlabels : items.labels.Perm items'.labels)
      (hparts : items.parts = items'.parts) : Moved items items'
  | inside {items items' : Sequence} (before after : Sequence) (h : Moved items items') :
      Moved (before ++ .sequence items :: after) (before ++ .sequence items' :: after)

theorem itemsNesting_parts (items : Sequence) :
    Sentence.itemsNesting items.parts = Sentence.itemsNesting items := by
  induction items with
  | nil => rfl
  | cons item rest ih =>
    cases item with
    | label text =>
      show Sentence.itemsNesting (parts rest) = max 0 (Sentence.itemsNesting rest)
      rw [ih, Nat.zero_max]
    | instruction i =>
      show max _ (Sentence.itemsNesting (parts rest)) = max _ (Sentence.itemsNesting rest)
      rw [ih]
    | sequence items =>
      show max _ (Sentence.itemsNesting (parts rest)) = max _ (Sentence.itemsNesting rest)
      rw [ih]

theorem itemsNesting_append (before after : Sequence) :
    Sentence.itemsNesting (before ++ after) =
      max (Sentence.itemsNesting before) (Sentence.itemsNesting after) := by
  induction before with
  | nil => exact (Nat.zero_max _).symm
  | cons item rest ih =>
    rw [List.cons_append, Sentence.itemsNesting, Sentence.itemsNesting, ih, Nat.max_assoc]

theorem Moved.itemsNesting {items items' : Sequence} (h : Moved items items') :
    Sentence.itemsNesting items = Sentence.itemsNesting items' := by
  induction h with
  | here hlabels hparts =>
    rw [← itemsNesting_parts, hparts, itemsNesting_parts]
  | inside before after _ ih =>
    simp only [itemsNesting_append, Sentence.itemsNesting, Sentence.nesting, ih]

theorem Moved.labels_perm {items items' : Sequence} (h : Moved items items') :
    items.labels.Perm items'.labels := by
  cases h with
  | here hlabels => exact hlabels
  | inside before after h => simp [labels, Sentence.asLabel?]

end Sequence

/-- Programs that differ in the positions of the labels of one of their sequences. -/
inductive Sentence.Moved : Sentence → Sentence → Prop
  | sequence {items items' : Sequence} (h : Sequence.Moved items items') :
      Moved (.sequence items) (.sequence items')

namespace Plan

/-- Plans that differ in places, in the wording of failures and in the order of labels. -/
inductive Alike : Plan → Plan → Prop
  | settled {first second : Except ValidationError Unit} (h : first.isOk = second.isOk) :
      Alike (.settled first) (.settled second)
  | refer {first second : LabelReference} (hmin : first.minLength = second.minLength)
      (hmax : first.maxLength = second.maxLength) (htext : first.text = second.text) :
      Alike (.refer first) (.refer second)
  | within {first second : Scope} {body body' : Plan} (hlabels : first.labels.Perm second.labels)
      (hbody : Alike body body') : Alike (.within first body) (.within second body')
  | andThen {first first' next next' : Plan} (hfirst : Alike first first')
      (hnext : Alike next next') : Alike (.andThen first next) (.andThen first' next')
  | attempt {candidate candidate' otherwise otherwise' : Plan}
      (hcandidate : Alike candidate candidate') (hotherwise : Alike otherwise otherwise') :
      Alike (.attempt candidate otherwise) (.attempt candidate' otherwise')

theorem Alike.symm {first second : Plan} (h : Alike first second) : Alike second first := by
  induction h with
  | settled h => exact .settled h.symm
  | refer hmin hmax htext => exact .refer hmin.symm hmax.symm htext.symm
  | within hlabels _ ih => exact .within hlabels.symm ih
  | andThen _ _ ihFirst ihNext => exact .andThen ihFirst ihNext
  | attempt _ _ ihCandidate ihOtherwise => exact .attempt ihCandidate ihOtherwise

theorem Alike.trans {first second third : Plan} (h : Alike first second)
    (h' : Alike second third) : Alike first third := by
  induction h generalizing third with
  | settled h =>
    cases h' with
    | settled h' => exact .settled (h.trans h')
  | refer hmin hmax htext =>
    cases h' with
    | refer hmin' hmax' htext' =>
      exact .refer (hmin.trans hmin') (hmax.trans hmax') (htext.trans htext')
  | within hlabels _ ih =>
    cases h' with
    | within hlabels' hbody' => exact .within (hlabels.trans hlabels') (ih hbody')
  | andThen _ _ ihFirst ihNext =>
    cases h' with
    | andThen hfirst' hnext' => exact .andThen (ihFirst hfirst') (ihNext hnext')
  | attempt _ _ ihCandidate ihOtherwise =>
    cases h' with
    | attempt hcandidate' hotherwise' =>
      exact .attempt (ihCandidate hcandidate') (ihOtherwise hotherwise')

/-! ## Alike passes -/

/-- Two outcomes: both fail, or both succeed with the same labels. -/
inductive SameLabels :
    Except ValidationError Unit × Pass → Except ValidationError Unit × Pass → Prop
  | fail {error error' : ValidationError} {pass pass' : Pass} :
      SameLabels (.error error, pass) (.error error', pass')
  | succeed {pass pass' : Pass} (hsame : ∀ text, text ∈ pass.labels ↔ text ∈ pass'.labels) :
      SameLabels (.ok (), pass) (.ok (), pass')

theorem SameLabels.of_isOk {first second : Except ValidationError Unit × Pass}
    (hok : first.1.isOk = true ↔ second.1.isOk = true)
    (hsame : ∀ text, text ∈ first.2.labels ↔ text ∈ second.2.labels) : SameLabels first second := by
  rcases first with ⟨error | done, pass⟩ <;> rcases second with ⟨error' | done', pass'⟩
  · exact .fail
  · cases hok.2 rfl
  · cases hok.1 rfl
  · exact .succeed hsame

/-- Alike plans come to the same, starting with the same labels. -/
theorem Alike.run {first second : Plan} (h : Alike first second) {pass pass' : Pass}
    (hsame : ∀ text, text ∈ pass.labels ↔ text ∈ pass'.labels) :
    SameLabels (first.run pass) (second.run pass') := by
  induction h generalizing pass pass' with
  | @settled outcome outcome' h =>
    apply SameLabels.of_isOk
    · show outcome.isOk = true ↔ outcome'.isOk = true
      rw [h]
    · exact hsame
  | @refer reference reference' hmin hmax htext =>
    rcases Check.resolve_apply reference pass with ⟨hpass, haccepted⟩
    rcases Check.resolve_apply reference' pass' with ⟨hpass', haccepted'⟩
    show SameLabels (Check.resolve reference pass) (Check.resolve reference' pass')
    apply SameLabels.of_isOk
    · rw [haccepted, haccepted', LabelReference.InBounds, LabelReference.InBounds, hmin, hmax,
        htext, hsame]
    · rw [hpass, hpass']
      exact hsame
  | @within scope scope' body body' hlabels _ ih =>
    rcases run_within_apply scope body pass with ⟨opened, -, hrun, hopened, -⟩
    rcases run_within_apply scope' body' pass' with ⟨opened', -, hrun', hopened', -⟩
    rw [hrun, hrun']
    apply ih
    intro text
    rw [hopened, hopened', hlabels.mem_iff, hsame]
  | @andThen first first' next next' _ _ ihFirst ihNext =>
    have hfirst := ihFirst hsame
    rw [run_andThen_apply, run_andThen_apply]
    generalize first.run pass = outcome at hfirst
    generalize first'.run pass' = outcome' at hfirst
    cases hfirst with
    | fail => exact .fail
    | succeed hmiddle => exact ihNext hmiddle
  | @attempt candidate candidate' otherwise otherwise' _ _ ihCandidate ihOtherwise =>
    have hcandidate := ihCandidate hsame
    rw [run_attempt_apply, run_attempt_apply]
    generalize candidate.run pass = outcome at hcandidate
    generalize candidate'.run pass' = outcome' at hcandidate
    cases hcandidate with
    | fail => exact ihOtherwise hsame
    | succeed hafter => exact .succeed hafter

/-- The labels of a pass stay in order. -/
theorem sorted_run (plan : Plan) {pass : Pass} (h : pass.labels.Pairwise (· < ·)) :
    (plan.run pass).2.labels.Pairwise (· < ·) := by
  induction plan generalizing pass with
  | settled outcome => exact h
  | refer reference =>
    show (Check.resolve reference pass).2.labels.Pairwise (· < ·)
    rw [(Check.resolve_apply reference pass).1]
    exact h
  | within scope body ih =>
    rcases run_within_apply scope body pass with ⟨opened, -, hrun, -, hsorted⟩
    rw [hrun]
    exact ih (hsorted h)
  | andThen first next ihFirst ihNext =>
    have hfirst := ihFirst h
    rw [run_andThen_apply]
    rcases hrun : first.run pass with ⟨error | done, middle⟩
    · rw [hrun] at hfirst
      exact hfirst
    · rw [hrun] at hfirst
      exact ihNext hfirst
  | attempt candidate otherwise ihCandidate ihOtherwise =>
    have hcandidate := ihCandidate h
    rw [run_attempt_apply]
    rcases hrun : candidate.run pass with ⟨error | done, after⟩
    · exact ihOtherwise h
    · rw [hrun] at hcandidate
      exact hcandidate

/-! ## The same part of a program at two places -/

theorem labels_directLabels (path : Path) (position : Nat) (items : Sequence) :
    Scope.labels ⟨path, directLabels path position items⟩ = items.labels := by
  induction items generalizing position with
  | nil => rfl
  | cons item rest ih =>
    have hrest := ih (position + 1)
    simp only [Scope.labels] at hrest ⊢
    cases item with
    | label text =>
      simp only [directLabels, List.map_cons, hrest]
      rfl
    | instruction i =>
      simp only [directLabels, hrest]
      rfl
    | sequence items =>
      simp only [directLabels, hrest]
      rfl

section Places

variable {plan : Schema → Path → Json → Plan} {handler : String}

theorem alike_refuse {path path' : Path} {violation violation' : Violation} :
    Alike (refuse handler path violation) (refuse handler path' violation') := .settled rfl

theorem alike_done : Alike done done := .settled rfl

/-- Steps that decide the same have the same outcome. -/
theorem alike_of_decides {step step' : Check Unit} {p : Prop} (h : Check.Decides step p)
    (h' : Check.Decides step' p) :
    Alike (.settled (step Pass.start).1) (.settled (step' Pass.start).1) := by
  rcases h Pass.start with ⟨hp, hstep⟩ | ⟨hp, error, hstep⟩ <;>
    rcases h' Pass.start with ⟨hp', hstep'⟩ | ⟨hp', error', hstep'⟩
  · rw [hstep, hstep']
    exact alike_done
  · exact absurd hp hp'
  · exact absurd hp' hp
  · rw [hstep, hstep']
    exact .settled rfl

theorem alike_ofItems {plan : Path → Json → Plan}
    (h : ∀ path path' item, Alike (plan path item) (plan path' item)) (path path' : Path)
    (position position' : Nat) (items : List Json) :
    Alike (ofItems plan path position items) (ofItems plan path' position' items) := by
  induction items generalizing position position' with
  | nil => exact alike_done
  | cons item rest ih => exact .andThen (h _ _ item) (ih _ _)

theorem alike_ofFields (h : ∀ schema path path' value, Alike (plan schema path value)
    (plan schema path' value)) (path path' : Path) (members : Members)
    (fields : List (String × Schema)) :
    Alike (ofFields plan handler path members fields)
      (ofFields plan handler path' members fields) := by
  induction fields with
  | nil => exact alike_done
  | cons field rest ih =>
    rcases field with ⟨key, schema⟩
    refine .andThen ?_ ih
    rcases members.find? key with _ | value
    · cases schema.isOptional with
      | true => exact alike_done
      | false => exact alike_refuse
    · exact h schema _ _ value

theorem alike_ofOthers (h : ∀ schema path path' value, Alike (plan schema path value)
    (plan schema path' value)) (path path' : Path) (fields : Fields) (rest : Option Schema)
    (dynamicKeys : Bool) (members : List (String × Json)) :
    Alike (ofOthers plan handler path fields rest dynamicKeys members)
      (ofOthers plan handler path' fields rest dynamicKeys members) := by
  induction members with
  | nil => exact alike_done
  | cons member others ih =>
    rcases member with ⟨key, value⟩
    refine .andThen ?_ ih
    cases fields.hasKey key with
    | true => exact alike_done
    | false =>
      rcases rest with _ | schema
      · cases dynamicKeys with
        | true => exact alike_done
        | false => exact alike_refuse
      · exact h schema _ _ value

theorem alike_ofCandidates {plan plan' : Schema → Plan} {failure failure' : Plan}
    (h : ∀ schema, Alike (plan schema) (plan' schema)) (hfailure : Alike failure failure')
    (candidates : List Schema) :
    Alike (ofCandidates plan failure candidates) (ofCandidates plan' failure' candidates) := by
  induction candidates with
  | nil => exact hfailure
  | cons candidate rest ih => exact .attempt (h candidate) ih

theorem alike_ofValue {analyze : Path → Sentence → Plan}
    (h : ∀ path path' sentence, Alike (analyze path sentence) (analyze path' sentence))
    (depth : Nat) (enclosing : List Schema) (schema : Schema) (path path' : Path) (value : Json) :
    Alike (ofValue analyze handler depth enclosing schema path value)
      (ofValue analyze handler depth enclosing schema path' value) := by
  induction depth generalizing enclosing schema path path' value with
  | zero => exact alike_refuse
  | succ depth ih =>
    have hinner : ∀ inner path path' value,
        Alike (ofValue analyze handler depth (schema :: enclosing) inner path value)
          (ofValue analyze handler depth (schema :: enclosing) inner path' value) := by
      intro inner path path' value
      exact ih (schema :: enclosing) inner path path' value
    cases hkind : schema.kind with
    | any =>
      simp only [ofValue, Check.check, hkind]
      exact alike_done
    | string minLength maxLength labelReference =>
      cases value with
      | string text =>
        cases labelReference with
        | true =>
          simp only [ofValue, hkind]
          exact .refer rfl rfl rfl
        | false =>
          simp only [ofValue, Check.check, hkind]
          exact alike_of_decides Check.decides_checkString Check.decides_checkString
      | _ =>
        simp only [ofValue, Check.check, hkind]
        exact alike_refuse
    | number min max =>
      cases value with
      | number number =>
        simp only [ofValue, Check.check, hkind]
        exact alike_of_decides Check.decides_checkNumber Check.decides_checkNumber
      | _ =>
        simp only [ofValue, Check.check, hkind]
        exact alike_refuse
    | boolean =>
      cases value with
      | bool truth =>
        simp only [ofValue, Check.check, hkind]
        exact alike_done
      | _ =>
        simp only [ofValue, Check.check, hkind]
        exact alike_refuse
    | null =>
      cases value with
      | null =>
        simp only [ofValue, Check.check, hkind]
        exact alike_done
      | _ =>
        simp only [ofValue, Check.check, hkind]
        exact alike_refuse
    | array content =>
      cases value with
      | array items =>
        simp only [ofValue, hkind]
        exact alike_ofItems (hinner content) path path' 0 0 items
      | _ =>
        simp only [ofValue, Check.check, hkind]
        exact alike_refuse
    | object fields rest dynamicKeys =>
      cases value with
      | object members =>
        simp only [ofValue, hkind]
        exact .andThen (alike_ofFields hinner path path' members fields)
          (alike_ofOthers hinner path path' fields rest dynamicKeys members)
      | _ =>
        simp only [ofValue, Check.check, hkind]
        exact alike_refuse
    | sentences =>
      simp only [ofValue, hkind]
      rcases Sentence.ofJson value with error | sentence
      · exact alike_refuse
      · exact h path path' sentence
    | alternatives candidates =>
      simp only [ofValue, hkind]
      cases candidates with
      | nil => exact alike_done
      | cons first rest =>
        exact alike_ofCandidates (fun candidate => hinner candidate path path' value) alike_refuse
          (first :: rest)
    | reference target =>
      rcases hfind : enclosing.find? (·.name? == some target) with _ | found
      · simp only [ofValue, hkind, hfind]
        exact alike_refuse
      · simp only [ofValue, hkind, hfind]
        exact hinner found path path' value

theorem alike_ofSentences {instruction : Path → Instruction → Plan}
    (h : ∀ path path' i, Alike (instruction path i) (instruction path' i)) (path path' : Path)
    (position position' : Nat) (items : List Sentence) :
    Alike (ofSentences instruction path position items)
      (ofSentences instruction path' position' items) := by
  fun_induction ofSentences instruction path position items generalizing path' position' with
  | case1 =>
    rw [ofSentences]
    exact alike_done
  | case2 path position text rest ih =>
    rw [ofSentences]
    exact ih path' (position' + 1)
  | case3 path position i rest ih =>
    rw [ofSentences]
    exact .andThen (h _ _ i) (ih path' (position' + 1))
  | case4 path position items rest ihItems ihRest =>
    rw [ofSentences]
    refine .andThen (.within ?_ (ihItems (path'.item position') 0)) (ihRest path' (position' + 1))
    rw [labels_directLabels, labels_directLabels]

theorem alike_ofSentence {instruction : Path → Instruction → Plan}
    (h : ∀ path path' i, Alike (instruction path i) (instruction path' i)) (path path' : Path)
    (sentence : Sentence) :
    Alike (ofSentence instruction path sentence) (ofSentence instruction path' sentence) := by
  cases sentence with
  | label text => exact .within (.refl _) alike_done
  | instruction i => exact h path path' i
  | sequence items =>
    refine .within ?_ (alike_ofSentences h path path' 0 0 items)
    rw [labels_directLabels, labels_directLabels]

theorem alike_ofInstruction (lookup : SchemaLookup) (nesting : Nat) (path path' : Path)
    (i : Instruction) :
    Alike (ofInstruction lookup nesting path i) (ofInstruction lookup nesting path' i) := by
  induction nesting generalizing path path' i with
  | zero => exact alike_refuse
  | succ nesting ih =>
    simp only [ofInstruction]
    rcases lookup i.handler with _ | fields
    · exact alike_refuse
    · apply alike_ofFields
      intro schema path path' value
      exact alike_ofValue (alike_ofSentence ih) maxSchemaDepth [] schema path path' value

end Places

/-! ## Moved labels -/

section Moving

variable {instruction : Path → Instruction → Plan}

/-- Inside a sequence its labels are passed over. -/
theorem alike_parts (h : ∀ path path' i, Alike (instruction path i) (instruction path' i))
    (path path' : Path) (position position' : Nat) (items : Sequence) :
    Alike (ofSentences instruction path position items)
      (ofSentences instruction path' position' items.parts) := by
  induction items generalizing position position' with
  | nil =>
    rw [ofSentences, Sequence.parts, List.filter_nil, ofSentences]
    exact alike_done
  | cons item rest ih =>
    cases item with
    | label text =>
      show Alike _ (ofSentences instruction path' position' (Sequence.parts rest))
      rw [ofSentences]
      exact ih (position + 1) position'
    | instruction i =>
      show Alike _ (ofSentences instruction path' position' (.instruction i :: Sequence.parts rest))
      rw [ofSentences, ofSentences]
      exact .andThen (h _ _ i) (ih (position + 1) (position' + 1))
    | sequence items =>
      show Alike _
        (ofSentences instruction path' position' (.sequence items :: Sequence.parts rest))
      rw [ofSentences, ofSentences]
      refine .andThen (.within ?_ (alike_ofSentences h _ _ 0 0 items))
        (ih (position + 1) (position' + 1))
      rw [labels_directLabels, labels_directLabels]

/-- What stands before two alike rests makes no difference. -/
theorem alike_append (h : ∀ path path' i, Alike (instruction path i) (instruction path' i))
    {after after' : Sequence}
    (hafter : ∀ path path' position position', Alike (ofSentences instruction path position after)
      (ofSentences instruction path' position' after'))
    (path path' : Path) (position position' : Nat) (before : Sequence) :
    Alike (ofSentences instruction path position (before ++ after))
      (ofSentences instruction path' position' (before ++ after')) := by
  induction before generalizing position position' with
  | nil => exact hafter path path' position position'
  | cons item rest ih =>
    cases item with
    | label text =>
      rw [List.cons_append, List.cons_append, ofSentences, ofSentences]
      exact ih (position + 1) (position' + 1)
    | instruction i =>
      rw [List.cons_append, List.cons_append, ofSentences, ofSentences]
      exact .andThen (h _ _ i) (ih (position + 1) (position' + 1))
    | sequence items =>
      rw [List.cons_append, List.cons_append, ofSentences, ofSentences]
      refine .andThen (.within ?_ (alike_ofSentences h _ _ 0 0 items))
        (ih (position + 1) (position' + 1))
      rw [labels_directLabels, labels_directLabels]

theorem alike_of_moved (h : ∀ path path' i, Alike (instruction path i) (instruction path' i))
    {items items' : Sequence} (hmoved : Sequence.Moved items items') (path path' : Path)
    (position position' : Nat) :
    Alike (ofSentences instruction path position items)
      (ofSentences instruction path' position' items') := by
  induction hmoved generalizing path path' position position' with
  | @here items items' _ hparts =>
    have hleft := alike_parts h path path' position position' items
    have hright := alike_parts h path' path' position' position' items'
    rw [hparts] at hleft
    exact hleft.trans hright.symm
  | inside before after hmoved ih =>
    apply alike_append h
    intro path path' position position'
    rw [ofSentences, ofSentences]
    refine .andThen (.within ?_ (ih _ _ 0 0)) (alike_ofSentences h _ _ _ _ after)
    rw [labels_directLabels, labels_directLabels]
    exact hmoved.labels_perm

/-- The plans of programs that differ in the positions of the labels of a sequence. -/
theorem alike_ofProgram (lookup : SchemaLookup) {items items' : Sequence}
    (hmoved : Sequence.Moved items items') :
    Alike (ofProgram lookup (.sequence items)) (ofProgram lookup (.sequence items')) := by
  have hnesting : (Sentence.sequence items).nesting = (Sentence.sequence items').nesting :=
    hmoved.itemsNesting
  unfold ofProgram
  rw [hnesting]
  refine .within ?_ (alike_of_moved (alike_ofInstruction lookup _) hmoved _ _ 0 0)
  rw [labels_directLabels, labels_directLabels]
  exact hmoved.labels_perm

end Moving

/-- Moving the labels of a sequence changes neither whether a program is valid nor the labels that
are reported. -/
theorem labels_of_moved (lookup : SchemaLookup) {items items' : Sequence}
    (hmoved : Sequence.Moved items items') :
    (validate lookup (.sequence items)).toOption.map (·.labels) =
      (validate lookup (.sequence items')).toOption.map (·.labels) := by
  have hstart : Pass.start.labels.Pairwise (· < ·) := List.Pairwise.nil
  have hsorted := sorted_run (ofProgram lookup (.sequence items)) hstart
  have hsorted' := sorted_run (ofProgram lookup (.sequence items')) hstart
  have hsame : SameLabels ((ofProgram lookup (.sequence items)).run Pass.start)
      ((ofProgram lookup (.sequence items')).run Pass.start) :=
    (alike_ofProgram lookup hmoved).run fun _ => Iff.rfl
  rw [run_ofProgram] at hsorted hsorted'
  rw [run_ofProgram, run_ofProgram] at hsame
  unfold validate examine
  generalize Pass.over lookup (.sequence items) = outcome at hsame hsorted
  generalize Pass.over lookup (.sequence items') = outcome' at hsame hsorted'
  cases hsame with
  | fail => rfl
  | @succeed pass pass' hlabels =>
    have heq : pass.labels = pass'.labels :=
      Dictionary.eq_of_increasing id hsorted hsorted' hlabels
    simp [heq, Except.toOption]

/-! ## What a string may name -/

/-- A string that has to name a label is accepted exactly if it is a label of a scope entered by
then. `watch` carries a validation out as it is and records its scopes and strings. So the labels of
the scopes around a string are seen wherever they stand, and it does not matter where the labels of
a sequence are. -/
theorem references_resolve (lookup : SchemaLookup) (program : Sentence) :
    let watched := (ofProgram lookup program).watch [] Watch.start
    (watched.1, watched.2.pass) = Pass.over lookup program ∧
    (∀ sighting ∈ watched.2.sightings, sighting.reference.InBounds →
      (sighting.accepted = true ↔
        ∃ scope ∈ sighting.entered, sighting.reference.text ∈ scope.labels)) ∧
    (∀ sighting ∈ watched.2.sightings, sighting.reference.InBounds →
      ∀ scope ∈ sighting.enclosing, sighting.reference.text ∈ scope.labels →
        sighting.accepted = true) ∧
    ∀ moved, Sentence.Moved program moved →
      (validate lookup program).toOption.map (·.labels) =
        (validate lookup moved).toOption.map (·.labels) := by
  intro watched
  have hstart : Watch.start.Sound := by
    constructor
    · intro text
      simp [Watch.start, Pass.start]
    · intro sighting hmem
      cases hmem
  have hsound : watched.2.Sound := by
    apply sound_watch _ hstart
    intro scope hmem
    cases hmem
  refine ⟨?_, ?_, ?_, ?_⟩
  · rw [← run_ofProgram]
    exact watch_eq_run (ofProgram lookup program) [] Watch.start
  · intro sighting hmem hbounds
    rw [(hsound.sightings sighting hmem).accepted_iff]
    exact ⟨fun h => h.2, fun h => ⟨hbounds, h⟩⟩
  · intro sighting hmem hbounds scope hscope htext
    have hlawful := hsound.sightings sighting hmem
    exact hlawful.accepted_iff.2 ⟨hbounds, scope, hlawful.entered scope hscope, htext⟩
  · intro moved hmoved
    cases hmoved with
    | sequence hmoved => exact labels_of_moved lookup hmoved

/-- An instruction that names a label. -/
def jump (target : String) : Sentence := .instruction ⟨"jump", [("to", .string target)]⟩

/-- The fields of such instructions. -/
def jumpFields : SchemaLookup := fun _ => some [("to", Schema.string.asLabelReference)]

/-- A label that stands behind a jump to it is seen, as it would be in front of it. -/
theorem references_resolve_jump :
    (∃ sighting ∈ ((ofProgram jumpFields (.sequence [jump "end", .label "end"])).watch []
        Watch.start).2.sightings, sighting.reference.text = "end" ∧ sighting.accepted = true) ∧
      (validate jumpFields (.sequence [jump "end", .label "end"])).toOption.map (·.labels) =
        (validate jumpFields (.sequence [.label "end", jump "end"])).toOption.map (·.labels) := by
  have hresolve := references_resolve jumpFields (.sequence [jump "end", .label "end"])
  -- the scope of the sequence is open before the jump is looked at
  have hseen : ((ofProgram jumpFields (.sequence [jump "end", .label "end"])).watch []
      Watch.start).2.sightings = [⟨⟨"jump", ⟨[.key "to", .index 0]⟩, none, none, "end"⟩,
        [⟨.root, [⟨⟨[.index 1]⟩, "end"⟩]⟩], [⟨.root, [⟨⟨[.index 1]⟩, "end"⟩]⟩], true⟩] := by
    simp only [ofProgram, ofSentence, jump, ofSentences]
    rfl
  constructor
  · refine ⟨_, hseen ▸ List.mem_singleton_self _, rfl, ?_⟩
    apply hresolve.2.2.1 _ (hseen ▸ List.mem_singleton_self _)
    · constructor
      · intro bound hbound
        cases hbound
      · intro bound hbound
        cases hbound
    · exact List.mem_singleton_self _
    · exact List.mem_singleton_self _
  · apply hresolve.2.2.2
    apply Sentence.Moved.sequence
    apply Sequence.Moved.here
    · exact .refl _
    · rfl

end Plan
end SentenceEngine
