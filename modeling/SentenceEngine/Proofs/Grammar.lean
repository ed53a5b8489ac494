import SentenceEngine.Proofs.Tidiness

/-!
# Programs and their values

A program is written as a value and read back. The values that stand for programs are described
here without the reader: texts, objects with a text under `handler`, and lists of such. Reading one
and writing it again gives the same value. The other way round the name of the handler is written
over a parameter of the same key, so only instructions without such a parameter come back.

* `Sentence.Grammar`: the values that stand for sentences.
* `Json.elements`: what lists are made of in the end, in document order.
* `Sentence.ofJson_eq_error_iff`: a value that stands for no sentence is refused because of the first
  element that is none.
* `Sentence.grammar_correspondence`: sentences and values correspond one to one.
-/

namespace SentenceEngine

/-! ## The grammar -/

/-- The values that stand for sentences. -/
inductive Sentence.Grammar : Json → Prop
  | label (text : String) : Grammar (.string text)
  | instruction {members : Members} {handler : String}
      (hhandler : members.find? Instruction.handlerKey = some (.string handler)) :
      Grammar (.object members)
  | sequence {items : List Json} (hitems : ∀ item ∈ items, Grammar item) : Grammar (.array items)

/-- A value that is no list and stands for no sentence, and what is wrong with it. -/
inductive Sentence.Ungrammatical : Json → ProgramError → Prop
  | object {members : Members}
      (hhandler : ∀ handler, members.find? Instruction.handlerKey ≠ some (.string handler)) :
      Ungrammatical (.object members) .missingHandler
  | plain {value : Json} (hkind : value.kind = .null ∨ value.kind = .boolean ∨ value.kind = .number) :
      Ungrammatical value (.invalidSentence value.kind)

mutual
/-- What a value is made of when lists are taken apart, in document order. -/
def Json.elements : Json → List Json
  | .array items => Json.itemsElements items
  | value => [value]

/-- What the items of a list are made of, in document order. -/
def Json.itemsElements : List Json → List Json
  | [] => []
  | item :: rest => Json.elements item ++ Json.itemsElements rest
end

namespace Sentence

/-! ## Reading -/

theorem not_grammar {value : Json} {error : ProgramError} (h : Ungrammatical value error) :
    ¬ Grammar value := by
  intro hgrammar
  cases h with
  | object hhandler =>
    cases hgrammar with
    | instruction hfind => exact hhandler _ hfind
  | plain hkind => cases hgrammar <;> simp [Json.kind] at hkind

/-- What is made of sentences is one. -/
theorem grammar_elements {value : Json} (h : Grammar value) : ∀ x ∈ value.elements, Grammar x := by
  induction value using Json.induction with
  | array items ih =>
    cases h with
    | sequence hitems =>
      rw [Json.elements]
      -- what holds of the elements of each item holds of those of the list
      induction items with
      | nil =>
        intro x hx
        cases hx
      | cons item rest ihrest =>
        rw [List.forall_mem_cons] at ih hitems
        rw [Json.itemsElements, List.forall_mem_append]
        exact ⟨ih.1 hitems.1, ihrest ih.2 hitems.2⟩
  | null => simpa [Json.elements] using h
  | bool => simpa [Json.elements] using h
  | number => simpa [Json.elements] using h
  | string => simpa [Json.elements] using h
  | object => simpa [Json.elements] using h

/-- Reading comes to a sentence that is written as the value was, or to the error of the first
element that stands for no sentence. -/
inductive Reads (value : Json) : Except ProgramError Sentence → Prop
  | sentence {sentence : Sentence} (hgrammar : Grammar value) (hvalue : toJson sentence = value)
      (hbare : ∀ i ∈ sentence.instructions, i.param? Instruction.handlerKey = none) :
      Reads value (.ok sentence)
  | error {before after : List Json} {bad : Json} {error : ProgramError}
      (helements : value.elements = before ++ bad :: after) (hbefore : ∀ x ∈ before, Grammar x)
      (hbad : Ungrammatical bad error) : Reads value (.error error)

theorem not_grammar_of_elements {value bad : Json} {before after : List Json} {error : ProgramError}
    (helements : value.elements = before ++ bad :: after) (hbad : Ungrammatical bad error) :
    ¬ Grammar value := by
  intro hgrammar
  have hmem : bad ∈ value.elements := by simp [helements]
  exact not_grammar hbad (grammar_elements hgrammar bad hmem)

theorem reads_object {members : Members} (hsorted : members.Sorted) :
    Reads (.object members) (ofJson (.object members)) := by
  rw [ofJson, Instruction.ofMembers]
  split
  next handler hfind =>
    refine .sentence (.instruction hfind) ?_ ?_
    · -- the name goes back to where it was
      have hwritten : Dictionary.insert (members.erase Instruction.handlerKey)
          Instruction.handlerKey (.string handler) = members := by
        refine Dictionary.eq_of_find? ((hsorted.erase _).insert _ _) hsorted ?_
        intro key
        rw [Dictionary.find?_insert, Dictionary.find?_erase hsorted]
        by_cases hkey : key = Instruction.handlerKey
        · simp [hkey, hfind]
        · simp [hkey]
      exact congrArg Json.object hwritten
    · intro i hi
      rw [List.mem_singleton.1 hi, Instruction.param?, Dictionary.find?_erase hsorted]
      simp
  next hnone => exact .error rfl (List.forall_mem_nil _) (.object hnone)

theorem reads_items {items : List Json} (h : ∀ item ∈ items, Reads item (ofJson item)) :
    Reads (.array items) ((ofItems items).map .sequence) := by
  induction items with
  | nil => exact .sentence (.sequence (List.forall_mem_nil _)) rfl (List.forall_mem_nil _)
  | cons item rest ih =>
    rw [List.forall_mem_cons] at h
    rcases h with ⟨hitem, hrest⟩
    have hrest := ih hrest
    rw [ofItems]
    cases hfirst : ofJson item with
    | error error =>
      rw [hfirst] at hitem
      cases hitem with
      | @error before after bad _ helements hbefore hbad =>
        have hsplit : (Json.array (item :: rest)).elements =
            before ++ bad :: (after ++ Json.itemsElements rest) := by
          rw [Json.elements, Json.itemsElements, helements, List.append_assoc, List.cons_append]
        exact .error hsplit hbefore hbad
    | ok sentence =>
      rw [hfirst] at hitem
      cases hitem with
      | sentence hgrammar hvalue hbare =>
        cases hothers : ofItems rest with
        | error error =>
          rw [hothers] at hrest
          cases hrest with
          | @error before after bad _ helements hbefore hbad =>
            -- the elements of a sentence come before it, and all of them are sentences
            have hsplit : (Json.array (item :: rest)).elements =
                (item.elements ++ before) ++ bad :: after := by
              rw [Json.elements] at helements
              rw [Json.elements, Json.itemsElements, helements, List.append_assoc]
            exact .error hsplit
              (List.forall_mem_append.2 ⟨grammar_elements hgrammar, hbefore⟩) hbad
        | ok sentences =>
          rw [hothers] at hrest
          cases hrest with
          | sentence hgrammar' hvalue' hbare' =>
            cases hgrammar' with
            | sequence hitems =>
              refine .sentence (.sequence (List.forall_mem_cons.2 ⟨hgrammar, hitems⟩)) ?_ ?_
              · rw [toJson, Json.array.injEq] at hvalue'
                rw [toJson, itemsToJson, hvalue, hvalue']
              · exact List.forall_mem_append.2 ⟨hbare, hbare'⟩

theorem reads_ofJson {value : Json} (htidy : value.Tidy) : Reads value (ofJson value) := by
  induction htidy with
  | array _ ih =>
    rw [ofJson]
    exact reads_items ih
  | object hsorted => exact reads_object hsorted
  | string text => exact .sentence (.label text) rfl (List.forall_mem_nil _)
  | null => exact .error rfl (List.forall_mem_nil _) (.plain (.inl rfl))
  | bool => exact .error rfl (List.forall_mem_nil _) (.plain (.inr (.inl rfl)))
  | number => exact .error rfl (List.forall_mem_nil _) (.plain (.inr (.inr rfl)))

/-! ## Errors -/

/-- Of a list of elements, the first one that stands for no sentence is determined. -/
theorem first_ungrammatical {before before' after after' : List Json} {bad bad' : Json}
    {error error' : ProgramError} (heq : before ++ bad :: after = before' ++ bad' :: after')
    (hbefore : ∀ x ∈ before, Grammar x) (hbefore' : ∀ x ∈ before', Grammar x)
    (hbad : Ungrammatical bad error) (hbad' : Ungrammatical bad' error') : bad = bad' := by
  induction before generalizing before' with
  | nil =>
    cases before' with
    | nil => exact (List.cons.inj heq).1
    | cons x rest =>
      -- the element of the one list would be among the sentences of the other
      rw [(List.cons.inj heq).1] at hbad
      exact absurd (hbefore' x List.mem_cons_self) (not_grammar hbad)
  | cons x rest ih =>
    cases before' with
    | nil =>
      rw [← (List.cons.inj heq).1] at hbad'
      exact absurd (hbefore x List.mem_cons_self) (not_grammar hbad')
    | cons x' rest' =>
      rw [List.forall_mem_cons] at hbefore hbefore'
      exact ih (List.cons.inj heq).2 hbefore.2 hbefore'.2

/-- What is wrong with an element is determined. -/
theorem Ungrammatical.error_eq {value : Json} {error error' : ProgramError}
    (h : Ungrammatical value error) (h' : Ungrammatical value error') : error = error' := by
  cases h with
  | object hhandler =>
    cases h' with
    | object => rfl
    | plain hkind => simp [Json.kind] at hkind
  | plain hkind =>
    cases h' with
    | object => simp [Json.kind] at hkind
    | plain => rfl

theorem ofJson_eq_error_iff {value : Json} (htidy : value.Tidy) {error : ProgramError} :
    ofJson value = .error error ↔
      ∃ before bad after, value.elements = before ++ bad :: after ∧ (∀ x ∈ before, Grammar x) ∧
        Ungrammatical bad error := by
  have hreads := reads_ofJson htidy
  constructor
  · intro h
    rw [h] at hreads
    cases hreads with
    | error helements hbefore hbad => exact ⟨_, _, _, helements, hbefore, hbad⟩
  · rintro ⟨before, bad, after, helements, hbefore, hbad⟩
    cases hresult : ofJson value with
    | ok sentence =>
      rw [hresult] at hreads
      cases hreads with
      | sentence hgrammar => exact absurd hgrammar (not_grammar_of_elements helements hbad)
    | error found =>
      rw [hresult] at hreads
      cases hreads with
      | error helements' hbefore' hbad' =>
        have hsame := first_ungrammatical (helements.symm.trans helements') hbefore hbefore' hbad
          hbad'
        rw [hsame] at hbad
        rw [hbad.error_eq hbad']

theorem isOk_ofJson_iff {value : Json} (htidy : value.Tidy) :
    (∃ sentence, ofJson value = .ok sentence) ↔ Grammar value := by
  constructor
  · rintro ⟨sentence, h⟩
    have hreads := reads_ofJson htidy
    rw [h] at hreads
    cases hreads with
    | sentence hgrammar => exact hgrammar
  · intro hgrammar
    cases hresult : ofJson value with
    | ok sentence => exact ⟨sentence, rfl⟩
    | error error =>
      rcases (ofJson_eq_error_iff htidy).1 hresult with ⟨before, bad, after, helements, -, hbad⟩
      exact absurd hgrammar (not_grammar_of_elements helements hbad)

/-! ## Writing -/

/-- A parameter that has the key of the handler is lost, and it alone. -/
theorem ofMembers_toMembers_iff {i : Instruction} (hsorted : i.params.Sorted) :
    Instruction.ofMembers i.toMembers = .ok i ↔ i.param? Instruction.handlerKey = none := by
  have hfind : Dictionary.find? i.toMembers Instruction.handlerKey = some (.string i.handler) := by
    rw [Instruction.toMembers, Dictionary.find?_insert, if_pos rfl]
  have hwritten : i.toMembers.Sorted := hsorted.insert _ _
  rw [Instruction.ofMembers, hfind]
  constructor
  · intro h
    have hparams : Dictionary.erase i.toMembers Instruction.handlerKey = i.params :=
      congrArg Instruction.params (Except.ok.inj h)
    rw [Instruction.param?, ← hparams, Dictionary.find?_erase hwritten, if_pos rfl]
  · intro h
    have hparams : Dictionary.erase i.toMembers Instruction.handlerKey = i.params := by
      refine Dictionary.eq_of_find? (hwritten.erase _) hsorted ?_
      intro key
      rw [Dictionary.find?_erase hwritten, Instruction.toMembers, Dictionary.find?_insert]
      by_cases hkey : key = Instruction.handlerKey
      · -- nothing was there before the name was
        rw [if_pos hkey, hkey]
        exact h.symm
      · rw [if_neg hkey, if_neg hkey]
    simp only [hparams]

mutual
theorem ofJson_toJson_iff {sentence : Sentence} (htidy : sentence.Tidy) :
    ofJson (toJson sentence) = .ok sentence ↔
      ∀ i ∈ sentence.instructions, i.param? Instruction.handlerKey = none := by
  match sentence with
  | .label text => simp [toJson, ofJson, instructions]
  | .instruction i =>
    have hsorted : i.params.Sorted := by
      cases htidy i List.mem_cons_self with
      | object hsorted => exact hsorted
    rw [instructions, List.forall_mem_singleton, ← ofMembers_toMembers_iff hsorted, toJson, ofJson]
    cases Instruction.ofMembers i.toMembers <;> simp [Except.map]
  | .sequence items =>
    rw [instructions, ← ofItems_itemsToJson_iff htidy, toJson, ofJson]
    cases ofItems (itemsToJson items) <;> simp [Except.map]

theorem ofItems_itemsToJson_iff {items : List Sentence}
    (htidy : ∀ i ∈ Sequence.instructions items, Json.Tidy (.object i.params)) :
    ofItems (itemsToJson items) = .ok items ↔
      ∀ i ∈ Sequence.instructions items, i.param? Instruction.handlerKey = none := by
  match items with
  | [] => simp [itemsToJson, ofItems, Sequence.instructions]
  | item :: rest =>
    rw [Sequence.instructions, List.forall_mem_append] at htidy
    rw [Sequence.instructions, List.forall_mem_append, ← ofJson_toJson_iff htidy.1,
      ← ofItems_itemsToJson_iff htidy.2, itemsToJson, ofItems]
    cases ofJson (toJson item) with
    | error error => simp [bind, Except.bind]
    | ok found =>
      cases ofItems (itemsToJson rest) with
      | error error => simp [bind, Except.bind]
      | ok others => simp [bind, Except.bind]
end

/-! ## The correspondence -/

/-- Sentences and their values correspond one to one. Just the values of the grammar are read, what
is read from one is written as it was, and no instruction in it has a parameter under the key of the
handler. A sentence comes back from its value just if it has no such parameter either. A value that
is not read gives the error of the first element, in document order, that is outside the grammar. -/
theorem grammar_correspondence {value : Json} (hvalue : value.Tidy) {sentence : Sentence}
    (hsentence : sentence.Tidy) :
    ((∃ found, ofJson value = .ok found) ↔ Grammar value) ∧
    (∀ found, ofJson value = .ok found → toJson found = value ∧
      ∀ i ∈ found.instructions, i.param? Instruction.handlerKey = none) ∧
    (ofJson (toJson sentence) = .ok sentence ↔
      ∀ i ∈ sentence.instructions, i.param? Instruction.handlerKey = none) ∧
    (∀ error, ofJson value = .error error ↔
      ∃ before bad after, value.elements = before ++ bad :: after ∧ (∀ x ∈ before, Grammar x) ∧
        Ungrammatical bad error) := by
  refine ⟨isOk_ofJson_iff hvalue, ?_, ofJson_toJson_iff hsentence,
    fun _ => ofJson_eq_error_iff hvalue⟩
  intro found hfound
  have hreads := reads_ofJson hvalue
  rw [hfound] at hreads
  cases hreads with
  | sentence hgrammar hwritten hbare => exact ⟨hwritten, hbare⟩

/-- An object without a handler comes before a number, one list further in; and a parameter called
`handler` is lost. -/
theorem grammar_correspondence_unnamed :
    let unnamed : Json := .object [("message", .string "hi")]
    let value : Json := .array [.string "start", .array [unnamed, .ofNat 1]]
    let sentence : Sentence := .sequence [.label "start", .instruction ⟨"log", [("handler", .null)]⟩]
    value.Tidy ∧ sentence.Tidy ∧ ofJson value = .error .missingHandler ∧ ¬ Grammar value ∧
      ofJson (toJson sentence) ≠ .ok sentence := by
  intro unnamed value sentence
  have hvalue : value.Tidy := by
    refine .array (List.forall_mem_cons.2 ⟨.string _, List.forall_mem_singleton.2 (.array ?_)⟩)
    exact List.forall_mem_cons.2
      ⟨.single (.string _) _, List.forall_mem_singleton.2 (.number _)⟩
  have hsentence : sentence.Tidy := List.forall_mem_singleton.2 (.single .null _)
  rcases grammar_correspondence hvalue hsentence with ⟨hgrammar, -, hback, herror⟩
  have hmissing : ofJson value = .error .missingHandler := by
    refine (herror _).2 ⟨[.string "start"], unnamed, [.ofNat 1], rfl, ?_, .object ?_⟩
    · exact List.forall_mem_singleton.2 (.label _)
    · intro handler h
      cases h
  refine ⟨hvalue, hsentence, hmissing, ?_, ?_⟩
  · rw [← hgrammar, hmissing]
    rintro ⟨found, h⟩
    cases h
  · intro h
    have hnone := hback.1 h ⟨"log", [("handler", .null)]⟩ List.mem_cons_self
    cases hnone

end Sentence
end SentenceEngine
