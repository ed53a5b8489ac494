import SentenceEngine.Proofs.Deciding

/-!
# The type that a schema denotes

A schema is a recursive type: a reference stands for the node of its name around it, and that node
is read where it stands. The validator finds the node among those that it has passed on its way,
and this way grows with every reference that it follows. The two agree as long as no node bears the
name of another, because a name then means the same wherever it is in scope.

* `Schema.nodes`, `Schema.ClosedIn`: the nodes of a schema, and schemas without loose ends.
* `Schema.Belongs`: the values of the type, by derivations of a bounded depth.
* `Schema.Agrees`: the nodes passed on the way and the nodes around, seen through names.
* `Schema.accepts_iff_belongs`: the validator accepts the values of the type.
-/

namespace SentenceEngine

/-! ## Nodes -/

mutual
/-- The nodes of a schema, each with the nodes around it, the innermost first. -/
def Schema.nodes (around : List Schema) : Schema → List (List Schema × Schema)
  | .node optional name kind =>
    (around, .node optional name kind) :: kind.nodes (.node optional name kind :: around)
termination_by structural schema => schema

/-- The nodes inside a node. -/
def SchemaKind.nodes (around : List Schema) : SchemaKind → List (List Schema × Schema)
  | .array content => content.nodes around
  | .object fields rest _ => Schema.fieldNodes around fields ++ Schema.restNodes around rest
  | .alternatives candidates => Schema.candidateNodes around candidates
  | _ => []
termination_by structural kind => kind

/-- The nodes of the fields of an object. -/
def Schema.fieldNodes (around : List Schema) : List (String × Schema) → List (List Schema × Schema)
  | [] => []
  | (_, schema) :: rest => schema.nodes around ++ Schema.fieldNodes around rest
termination_by structural fields => fields

/-- The nodes of the other members of an object. -/
def Schema.restNodes (around : List Schema) : Option Schema → List (List Schema × Schema)
  | none => []
  | some schema => schema.nodes around
termination_by structural rest => rest

/-- The nodes of candidates. -/
def Schema.candidateNodes (around : List Schema) : List Schema → List (List Schema × Schema)
  | [] => []
  | schema :: rest => schema.nodes around ++ Schema.candidateNodes around rest
termination_by structural candidates => candidates
end

/-- The schemas that stand directly in a node. -/
def SchemaKind.children : SchemaKind → List Schema
  | .array content => [content]
  | .object fields rest _ => fields.map (·.2) ++ rest.toList
  | .alternatives candidates => candidates
  | _ => []

/-- Whether a node says nothing about programs and their labels. -/
def SchemaKind.isPlain : SchemaKind → Bool
  | .sentences => false
  | .string _ _ labelReference => !labelReference
  | _ => true

/-- Whether a reference names a node around it. -/
def SchemaKind.resolves (around : List Schema) : SchemaKind → Bool
  | .reference target => around.any (·.name? == some target)
  | _ => true

namespace Schema

/-- The names of nodes. -/
def namesOf (nodes : List (List Schema × Schema)) : List String := nodes.filterMap (·.2.name?)

theorem nodes_eq (around : List Schema) (schema : Schema) :
    schema.nodes around = (around, schema) :: schema.kind.nodes (schema :: around) := by
  cases schema
  rfl

theorem fieldNodes_sublist {around : List Schema} {key : String} {field : Schema}
    {fields : List (String × Schema)} (h : (key, field) ∈ fields) :
    (field.nodes around).Sublist (fieldNodes around fields) := by
  induction fields with
  | nil => cases h
  | cons first rest ih =>
    rw [fieldNodes]
    rcases List.mem_cons.1 h with heq | hrest
    · rw [← heq]
      exact List.sublist_append_left _ _
    · exact (ih hrest).trans (List.sublist_append_right _ _)

theorem candidateNodes_sublist {around : List Schema} {candidate : Schema}
    {candidates : List Schema} (h : candidate ∈ candidates) :
    (candidate.nodes around).Sublist (candidateNodes around candidates) := by
  induction candidates with
  | nil => cases h
  | cons first rest ih =>
    rw [candidateNodes]
    rcases List.mem_cons.1 h with heq | hrest
    · rw [← heq]
      exact List.sublist_append_left _ _
    · exact (ih hrest).trans (List.sublist_append_right _ _)

/-- The nodes of a child are among the nodes inside. -/
theorem nodes_sublist_of_child {around : List Schema} {kind : SchemaKind} {child : Schema}
    (h : child ∈ kind.children) : (child.nodes around).Sublist (kind.nodes around) := by
  cases kind with
  | array content =>
    rw [List.mem_singleton.1 h]
    exact List.Sublist.refl _
  | object fields rest dynamicKeys =>
    rw [SchemaKind.nodes]
    rcases List.mem_append.1 h with hfield | hrest
    · rcases List.mem_map.1 hfield with ⟨⟨key, field⟩, hmem, heq⟩
      rw [← heq]
      exact (fieldNodes_sublist hmem).trans (List.sublist_append_left _ _)
    · rw [Option.mem_toList.1 hrest]
      exact List.sublist_append_right _ _
  | alternatives candidates => exact candidateNodes_sublist h
  | _ => cases h

/-- What a name stands for: the nearest node of that name, with the nodes around it. -/
def bound? (target : String) : List Schema → Option (Schema × List Schema)
  | [] => none
  | nearest :: around =>
    if nearest.name? = some target then some (nearest, around) else bound? target around

/-- A schema whose nodes, inside the nodes around it, are plain and have names of their own, and
whose references name nodes around them. -/
structure ClosedIn (schema : Schema) (around : List Schema) : Prop where
  plain : ∀ place ∈ schema.nodes around, place.2.kind.isPlain = true
  unique : (around.filterMap (·.name?) ++ namesOf (schema.nodes around)).Nodup
  resolves : ∀ place ∈ schema.nodes around, place.2.kind.resolves place.1 = true

instance (schema : Schema) (around : List Schema) : Decidable (schema.ClosedIn around) :=
  decidable_of_iff
    ((∀ place ∈ schema.nodes around, place.2.kind.isPlain = true) ∧
      (around.filterMap (·.name?) ++ namesOf (schema.nodes around)).Nodup ∧
      ∀ place ∈ schema.nodes around, place.2.kind.resolves place.1 = true)
    ⟨fun h => ⟨h.1, h.2.1, h.2.2⟩, fun h => ⟨h.plain, h.unique, h.resolves⟩⟩

/-! ## Belonging -/

/-- A value belongs to the type that a node denotes inside the nodes `around` it. At most `levels`
nodes are met on any way into the derivation, references included. -/
inductive Belongs : (levels : Nat) → (around : List Schema) → Schema → Json → Prop
  | any {levels : Nat} {around : List Schema} {schema : Schema} {value : Json}
      (hkind : schema.kind = .any) : Belongs (levels + 1) around schema value
  | string {levels : Nat} {around : List Schema} {schema : Schema} {text : String}
      {min max : Option Nat} (hkind : schema.kind = .string min max false)
      (hmin : ∀ bound, min = some bound → bound ≤ text.length)
      (hmax : ∀ bound, max = some bound → text.length ≤ bound) :
      Belongs (levels + 1) around schema (.string text)
  | number {levels : Nat} {around : List Schema} {schema : Schema} {number : Number}
      {min max : Option Double} (hkind : schema.kind = .number min max)
      (hmin : ∀ bound, min = some bound → number.toDouble.below bound = false)
      (hmax : ∀ bound, max = some bound → bound.below number.toDouble = false) :
      Belongs (levels + 1) around schema (.number number)
  | boolean {levels : Nat} {around : List Schema} {schema : Schema} {truth : Bool}
      (hkind : schema.kind = .boolean) : Belongs (levels + 1) around schema (.bool truth)
  | null {levels : Nat} {around : List Schema} {schema : Schema} (hkind : schema.kind = .null) :
      Belongs (levels + 1) around schema .null
  | array {levels : Nat} {around : List Schema} {schema content : Schema} {items : List Json}
      (hkind : schema.kind = .array content)
      (hitems : ∀ item ∈ items, Belongs levels (schema :: around) content item) :
      Belongs (levels + 1) around schema (.array items)
  /-- Fields may be absent if they are optional. Other members belong to `rest`; without it there
  are none unless any key is allowed. -/
  | object {levels : Nat} {around : List Schema} {schema : Schema} {fields : Fields}
      {rest : Option Schema} {dynamicKeys : Bool} {members : Members}
      (hkind : schema.kind = .object fields rest dynamicKeys)
      (hpresent : ∀ field ∈ fields, ∀ value, members.find? field.1 = some value →
        Belongs levels (schema :: around) field.2 value)
      (habsent : ∀ field ∈ fields, members.find? field.1 = none → field.2.isOptional = true)
      (hothers : ∀ member ∈ members, fields.hasKey member.1 = false →
        ∀ other, rest = some other → Belongs levels (schema :: around) other member.2)
      (hfree : ∀ member ∈ members, fields.hasKey member.1 = false → rest = none →
        dynamicKeys = true) :
      Belongs (levels + 1) around schema (.object members)
  | unrestricted {levels : Nat} {around : List Schema} {schema : Schema} {value : Json}
      (hkind : schema.kind = .alternatives []) : Belongs (levels + 1) around schema value
  | candidate {levels : Nat} {around : List Schema} {schema candidate : Schema}
      {candidates : List Schema} {value : Json} (hkind : schema.kind = .alternatives candidates)
      (hmem : candidate ∈ candidates) (h : Belongs levels (schema :: around) candidate value) :
      Belongs (levels + 1) around schema value
  /-- A reference stands for the node of its name, read where that node stands. -/
  | reference {levels : Nat} {around outer : List Schema} {schema node : Schema} {target : String}
      {value : Json} (hkind : schema.kind = .reference target)
      (hbound : bound? target around = some (node, outer)) (h : Belongs levels outer node value) :
      Belongs (levels + 1) around schema value

section Inversion

variable {levels : Nat} {around : List Schema} {schema : Schema} {value : Json}

theorem not_belongs_zero : ¬ Belongs 0 around schema value := by
  intro h
  cases h

theorem belongs_string_iff {min max : Option Nat} (hkind : schema.kind = .string min max false) :
    Belongs (levels + 1) around schema value ↔ ∃ text, value = .string text ∧
      (∀ bound, min = some bound → bound ≤ text.length) ∧
      ∀ bound, max = some bound → text.length ≤ bound := by
  constructor
  · intro h
    cases h <;> simp_all
  · rintro ⟨text, rfl, hmin, hmax⟩
    exact .string hkind hmin hmax

theorem belongs_number_iff {min max : Option Double} (hkind : schema.kind = .number min max) :
    Belongs (levels + 1) around schema value ↔ ∃ number, value = .number number ∧
      (∀ bound, min = some bound → number.toDouble.below bound = false) ∧
      ∀ bound, max = some bound → bound.below number.toDouble = false := by
  constructor
  · intro h
    cases h <;> simp_all
  · rintro ⟨number, rfl, hmin, hmax⟩
    exact .number hkind hmin hmax

theorem belongs_boolean_iff (hkind : schema.kind = .boolean) :
    Belongs (levels + 1) around schema value ↔ ∃ truth, value = .bool truth := by
  constructor
  · intro h
    cases h <;> simp_all
  · rintro ⟨truth, rfl⟩
    exact .boolean hkind

theorem belongs_null_iff (hkind : schema.kind = .null) :
    Belongs (levels + 1) around schema value ↔ value = .null := by
  constructor
  · intro h
    cases h <;> simp_all
  · rintro rfl
    exact .null hkind

theorem belongs_array_iff {content : Schema} (hkind : schema.kind = .array content) :
    Belongs (levels + 1) around schema value ↔ ∃ items, value = .array items ∧
      ∀ item ∈ items, Belongs levels (schema :: around) content item := by
  constructor
  · intro h
    cases h <;> simp_all
  · rintro ⟨items, rfl, hitems⟩
    exact .array hkind hitems

theorem belongs_object_iff {fields : Fields} {rest : Option Schema} {dynamicKeys : Bool}
    (hkind : schema.kind = .object fields rest dynamicKeys) :
    Belongs (levels + 1) around schema value ↔ ∃ members : Members, value = .object members ∧
      (∀ field ∈ fields,
        (∀ value, members.find? field.1 = some value →
          Belongs levels (schema :: around) field.2 value) ∧
        (members.find? field.1 = none → field.2.isOptional = true)) ∧
      ∀ member ∈ members, fields.hasKey member.1 = false →
        (∀ other, rest = some other → Belongs levels (schema :: around) other member.2) ∧
        (rest = none → dynamicKeys = true) := by
  constructor
  · intro h
    cases h with
    | object hkind' hpresent habsent hothers hfree =>
      cases hkind.symm.trans hkind'
      refine ⟨_, rfl, ?_, ?_⟩
      · intro field hfield
        exact ⟨hpresent field hfield, habsent field hfield⟩
      · intro member hmember hother
        exact ⟨hothers member hmember hother, hfree member hmember hother⟩
    | _ => simp_all
  · rintro ⟨members, rfl, hfields, hothers⟩
    apply Belongs.object hkind
    · intro field hfield
      exact (hfields field hfield).1
    · intro field hfield
      exact (hfields field hfield).2
    · intro member hmember hother
      exact (hothers member hmember hother).1
    · intro member hmember hother
      exact (hothers member hmember hother).2

theorem belongs_alternatives_iff {candidates : List Schema}
    (hkind : schema.kind = .alternatives candidates) :
    Belongs (levels + 1) around schema value ↔ candidates = [] ∨
      ∃ candidate ∈ candidates, Belongs levels (schema :: around) candidate value := by
  constructor
  · intro h
    cases h with
    | unrestricted hkind' => simp_all
    | candidate hkind' hmem h =>
      cases hkind.symm.trans hkind'
      exact .inr ⟨_, hmem, h⟩
    | _ => simp_all
  · rintro (rfl | ⟨candidate, hmem, h⟩)
    · exact .unrestricted hkind
    · exact .candidate hkind hmem h

theorem belongs_reference_iff {target : String} {node : Schema} {outer : List Schema}
    (hkind : schema.kind = .reference target) (hbound : bound? target around = some (node, outer)) :
    Belongs (levels + 1) around schema value ↔ Belongs levels outer node value := by
  constructor
  · intro h
    cases h with
    | reference hkind' hbound' h =>
      cases hkind.symm.trans hkind'
      cases hbound.symm.trans hbound'
      exact h
    | _ => simp_all
  · intro h
    exact .reference hkind hbound h

end Inversion

end Schema

/-! ## Names -/

namespace Schema

section Names

variable {around outer stack : List Schema} {schema found : Schema} {target : String}

/-- What stands in a closed node is closed inside it. -/
theorem ClosedIn.child (h : ClosedIn schema around) {child : Schema}
    (hchild : child ∈ schema.kind.children) : ClosedIn child (schema :: around) := by
  have hsub : (child.nodes (schema :: around)).Sublist (schema.kind.nodes (schema :: around)) :=
    nodes_sublist_of_child hchild
  have hmem : ∀ place ∈ child.nodes (schema :: around), place ∈ schema.nodes around := by
    intro place hplace
    rw [nodes_eq]
    exact List.mem_cons_of_mem _ (hsub.subset hplace)
  constructor
  · intro place hplace
    exact h.plain place (hmem place hplace)
  · have hunique := h.unique
    rw [nodes_eq] at hunique
    have hinner : (namesOf (child.nodes (schema :: around))).Sublist
        (namesOf (schema.kind.nodes (schema :: around))) := hsub.filterMap _
    rcases hname : schema.name? with _ | name
    · -- a node without a name adds nothing to the names
      simp only [namesOf, List.filterMap_cons, hname] at hunique ⊢
      exact hunique.sublist ((List.Sublist.refl _).append hinner)
    · simp only [namesOf, List.filterMap_cons, hname] at hunique ⊢
      rw [List.perm_middle.nodup_iff] at hunique
      exact hunique.sublist (((List.Sublist.refl _).append hinner).cons_cons name)
  · intro place hplace
    exact h.resolves place (hmem place hplace)

/-- Each of these nodes, the innermost first, is closed inside the nodes after it. -/
def Closed : List Schema → Prop
  | [] => True
  | schema :: around => schema.ClosedIn around ∧ Closed around

/-- A node that a name stands for is followed by the nodes around it. -/
theorem suffix_of_bound? (h : bound? target around = some (found, outer)) :
    (found :: outer) <:+ around := by
  induction around with
  | nil => cases h
  | cons nearest rest ih =>
    rw [bound?] at h
    split at h
    · cases h
      exact List.suffix_refl _
    · exact (ih h).trans (List.suffix_cons _ _)

theorem name?_of_bound? (h : bound? target around = some (found, outer)) :
    found.name? = some target := by
  induction around with
  | nil => cases h
  | cons nearest rest ih =>
    rw [bound?] at h
    split at h
    next hname =>
      cases h
      exact hname
    next => exact ih h

theorem Closed.of_suffix (hsuffix : outer <:+ around) (h : Closed around) : Closed outer := by
  induction around with
  | nil =>
    rw [List.suffix_nil.1 hsuffix]
    trivial
  | cons nearest rest ih =>
    rcases List.suffix_cons_iff.1 hsuffix with heq | hrest
    · rw [heq]
      exact h
    · exact ih hrest h.2

/-- A reference in a closed node has a node to stand for. -/
theorem exists_bound?_of_any (h : around.any (·.name? == some target) = true) :
    ∃ found outer, bound? target around = some (found, outer) := by
  induction around with
  | nil => cases h
  | cons nearest rest ih =>
    rw [bound?]
    by_cases hname : nearest.name? = some target
    · exact ⟨nearest, rest, if_pos hname⟩
    · rw [if_neg hname]
      apply ih
      simpa [hname] using h

/-- What a name stands for further out, it also stands for further in, because no node in between
has that name too. -/
theorem bound?_of_suffix {node : Schema} {beyond : List Schema} (hsuffix : outer <:+ around)
    (hunique : (around.filterMap (·.name?)).Nodup)
    (h : bound? target outer = some (node, beyond)) :
    bound? target around = some (node, beyond) := by
  induction around with
  | nil =>
    rw [List.suffix_nil.1 hsuffix] at h
    exact h
  | cons nearest rest ih =>
    rcases List.suffix_cons_iff.1 hsuffix with heq | hrest
    · rw [← heq]
      exact h
    · have hmem : node ∈ rest :=
        hrest.subset ((suffix_of_bound? h).subset List.mem_cons_self)
      have hne : nearest.name? ≠ some target := by
        intro hname
        rw [List.filterMap_cons_some hname] at hunique
        exact (List.nodup_cons.1 hunique).1 (List.mem_filterMap.2 ⟨node, hmem, name?_of_bound? h⟩)
      rw [bound?, if_neg hne]
      exact ih hrest (hunique.sublist ((List.sublist_cons_self _ _).filterMap _))

/-- Going back from a node, over those passed on the way to it, one meets the same nodes for the
names in scope. -/
def Agrees (stack around : List Schema) : Prop :=
  ∀ target node outer, bound? target around = some (node, outer) →
    stack.find? (·.name? == some target) = some node

theorem Agrees.descend (h : Agrees stack around) : Agrees (schema :: stack) (schema :: around) := by
  intro target node outer hbound
  rw [bound?] at hbound
  split at hbound
  next hname =>
    cases hbound
    exact List.find?_cons_of_pos (by simpa using hname)
  next hname =>
    rw [List.find?_cons_of_neg (by simpa using hname)]
    exact h target node outer hbound

/-- Following a reference adds a node to the way, but none whose name is in scope where the
reference leads. -/
theorem Agrees.follow (h : Agrees stack around) (hclosed : ClosedIn schema around)
    (hsuffix : outer <:+ around) : Agrees (schema :: stack) outer := by
  intro target node beyond hbound
  have hunique := List.nodup_append.1 hclosed.unique
  have hinner := bound?_of_suffix hsuffix hunique.1 hbound
  have hne : schema.name? ≠ some target := by
    intro hname
    have hmem : node ∈ around := (suffix_of_bound? hinner).subset List.mem_cons_self
    have houter : target ∈ around.filterMap (·.name?) :=
      List.mem_filterMap.2 ⟨node, hmem, name?_of_bound? hbound⟩
    have hown : target ∈ namesOf (schema.nodes around) := by
      rw [nodes_eq]
      exact List.mem_filterMap.2 ⟨_, List.mem_cons_self, hname⟩
    exact hunique.2.2 target houter target hown rfl
  rw [List.find?_cons_of_neg (by simpa using hne)]
  exact h target node beyond hinner

end Names

/-! ## Acceptance -/

/-- The validator decides whether a value belongs to a node, wherever it has come from to the node:
the nodes on the way that bear names agree with those around the node. -/
theorem decides_check {analyze : Path → Sentence → Check Unit} {handler : String} {levels : Nat}
    {stack around : List Schema} {schema : Schema} {path : Path} {value : Json}
    (hclosed : Closed (schema :: around)) (hagrees : Agrees stack around) :
    Check.Decides (Check.check analyze handler levels stack schema path value)
      (Belongs levels around schema value) := by
  induction levels generalizing stack around schema path value with
  | zero => exact Check.decides_fail not_belongs_zero
  | succ levels ih =>
    have hself : (around, schema) ∈ schema.nodes around := by
      rw [nodes_eq]
      exact List.mem_cons_self
    -- a node directly inside is closed there, and the way to it leads through this node
    have hchild : ∀ child ∈ schema.kind.children, ∀ path value,
        Check.Decides (Check.check analyze handler levels (schema :: stack) child path value)
          (Belongs levels (schema :: around) child value) := by
      intro child hmem path value
      exact ih ⟨hclosed.1.child hmem, hclosed⟩ hagrees.descend
    cases hkind : schema.kind with
    | any =>
      simp only [Check.check, hkind]
      exact Check.decides_pure (.any hkind)
    | string min max labelReference =>
      have hplain := hclosed.1.plain _ hself
      rw [hkind] at hplain
      have hfalse : labelReference = false := by simpa [SchemaKind.isPlain] using hplain
      rw [hfalse] at hkind
      simp only [Check.check, hkind]
      cases value with
      | string text =>
        refine Check.decides_checkString.congr ?_
        simp [belongs_string_iff hkind]
      | _ => exact Check.decides_fail (by simp [belongs_string_iff hkind])
    | number min max =>
      simp only [Check.check, hkind]
      cases value with
      | number number =>
        refine Check.decides_checkNumber.congr ?_
        simp [belongs_number_iff hkind]
      | _ => exact Check.decides_fail (by simp [belongs_number_iff hkind])
    | boolean =>
      simp only [Check.check, hkind]
      cases value with
      | bool truth => exact Check.decides_pure (.boolean hkind)
      | _ => exact Check.decides_fail (by simp [belongs_boolean_iff hkind])
    | null =>
      simp only [Check.check, hkind]
      cases value with
      | null => exact Check.decides_pure (.null hkind)
      | _ => exact Check.decides_fail (by simp [belongs_null_iff hkind])
    | array content =>
      simp only [Check.check, hkind]
      cases value with
      | array items =>
        rw [hkind] at hchild
        refine (Check.decides_checkItems fun item _ path =>
          hchild content List.mem_cons_self path item).congr ?_
        simp [belongs_array_iff hkind]
      | _ => exact Check.decides_fail (by simp [belongs_array_iff hkind])
    | object fields rest dynamicKeys =>
      simp only [Check.check, hkind]
      cases value with
      | object members =>
        rw [hkind] at hchild
        have hfields : ∀ field ∈ fields, ∀ path value,
            Check.Decides (Check.check analyze handler levels (schema :: stack) field.2 path value)
              (Belongs levels (schema :: around) field.2 value) := by
          intro field hfield
          exact hchild field.2 (List.mem_append_left _ (List.mem_map.2 ⟨field, hfield, rfl⟩))
        have hothers : ∀ other, rest = some other → ∀ path value,
            Check.Decides (Check.check analyze handler levels (schema :: stack) other path value)
              (Belongs levels (schema :: around) other value) := by
          intro other hother
          exact hchild other (List.mem_append_right _ (Option.mem_toList.2 hother))
        refine ((Check.decides_checkFields hfields).andThen
          (Check.decides_checkOthers hothers)).congr ?_
        simp [belongs_object_iff hkind]
      | _ => exact Check.decides_fail (by simp [belongs_object_iff hkind])
    | sentences =>
      have hplain := hclosed.1.plain _ hself
      rw [hkind] at hplain
      cases hplain
    | alternatives candidates =>
      simp only [Check.check, hkind]
      rw [hkind] at hchild
      rcases candidates with _ | ⟨first, rest⟩
      · exact Check.decides_pure (.unrestricted hkind)
      · have hsome : ∀ candidate ∈ first :: rest, _ := fun candidate hmem =>
          hchild candidate hmem path value
        refine (Check.decides_alternatives hsome).congr ?_
        simp [belongs_alternatives_iff hkind]
    | reference target =>
      have hresolves := hclosed.1.resolves _ hself
      rw [hkind] at hresolves
      rcases exists_bound?_of_any hresolves with ⟨node, outer, hbound⟩
      have hsuffix := suffix_of_bound? hbound
      simp only [Check.check, hkind, hagrees _ _ _ hbound]
      refine (ih (hclosed.2.of_suffix hsuffix) ?_).congr (belongs_reference_iff hkind hbound).symm
      exact hagrees.follow hclosed.1 ((List.suffix_cons _ _).trans hsuffix)

/-- An instruction for a script whose fields are closed passes a validation if its parameters belong
to the fields. -/
theorem decides_checkInstruction {lookup : SchemaLookup} {nesting : Nat} {path : Path}
    {i : Instruction} {fields : Fields} (hlookup : lookup i.handler = some fields)
    (hclosed : ∀ field ∈ fields, ClosedIn field.2 []) :
    Check.Decides (Check.checkInstruction lookup (nesting + 1) path i)
      (∀ field ∈ fields,
        (∀ value, i.params.find? field.1 = some value →
          Belongs maxSchemaDepth [] field.2 value) ∧
        (i.params.find? field.1 = none → field.2.isOptional = true)) := by
  simp only [Check.checkInstruction, hlookup]
  apply Check.decides_checkFields
  intro field hfield path value
  refine decides_check ⟨hclosed field hfield, trivial⟩ ?_
  intro target node outer hbound
  cases hbound

/-- A program of one instruction, for a script whose fields are closed. -/
theorem validate_instruction_iff {lookup : SchemaLookup} {i : Instruction} {fields : Fields}
    (hlookup : lookup i.handler = some fields) (hclosed : ∀ field ∈ fields, ClosedIn field.2 []) :
    (∃ report, validate lookup (.instruction i) = .ok report) ↔
      ∀ field ∈ fields,
        (∀ value, i.params.find? field.1 = some value →
          Belongs maxSchemaDepth [] field.2 value) ∧
        (i.params.find? field.1 = none → field.2.isOptional = true) := by
  exact Check.Decides.validate_iff (decides_checkInstruction hlookup hclosed)

/-- The validator accepts exactly the type that a schema denotes: the values that belong to it by a
derivation in which at most 256 nodes are nested, references included. Whether a value is accepted
does not depend on what the pass has collected, which is left as it is. -/
theorem accepts_iff_belongs {schema : Schema} (hclosed : schema.ClosedIn []) (value : Json) :
    (∀ analyze handler path, Check.Decides
      (Check.check analyze handler maxSchemaDepth [] schema path value)
      (Belongs 256 [] schema value)) ∧
    ∀ (lookup : SchemaLookup) (i : Instruction) (key : String),
      lookup i.handler = some [(key, schema)] → i.params.find? key = some value →
      ((∃ report, validate lookup (.instruction i) = .ok report) ↔
        Belongs 256 [] schema value) := by
  constructor
  · intro analyze handler path
    refine decides_check ⟨hclosed, trivial⟩ ?_
    intro target node outer hbound
    cases hbound
  · intro lookup i key hlookup hvalue
    rw [validate_instruction_iff hlookup (by simpa using hclosed)]
    simp [hvalue, maxSchemaDepth]

/-- Trees of numbers: a number, or a list of trees. -/
def numberTree : Schema := (alternatives [.number, .array (.reference "tree")]).named "tree"

theorem numberTree_closed : ClosedIn numberTree [] := by decide

/-- A list that holds an empty list is a tree, by a derivation that passes the named node twice, and
a validation accepts it. A text is no tree and is refused. -/
theorem accepts_numberTree :
    (∃ report, validate (fun _ => some [("tree", numberTree)])
      (.instruction ⟨"plant", [("tree", .array [.array []])]⟩) = .ok report) ∧
    ¬ ∃ report, validate (fun _ => some [("tree", numberTree)])
      (.instruction ⟨"plant", [("tree", .string "oak")]⟩) = .ok report := by
  have hnode : ∀ {levels : Nat} {items : List Json},
      (∀ item ∈ items, Belongs levels [] numberTree item) →
      Belongs (levels + 3) [] numberTree (.array items) := by
    intro levels items hitems
    refine .candidate rfl (List.mem_cons_of_mem _ List.mem_cons_self) (.array rfl ?_)
    intro item hitem
    exact .reference rfl rfl (hitems item hitem)
  constructor
  · refine ((accepts_iff_belongs numberTree_closed _).2 _ _ "tree" rfl rfl).2 ?_
    refine hnode fun item hitem => ?_
    rw [List.mem_singleton.1 hitem]
    exact hnode (by simp)
  · intro h
    have hbelongs := ((accepts_iff_belongs numberTree_closed _).2 _ _ "tree" rfl rfl).1 h
    rcases (belongs_alternatives_iff rfl).1 hbelongs with hnone | ⟨candidate, hmem, hcandidate⟩
    · cases hnone
    · simp only [List.mem_cons, List.not_mem_nil, or_false] at hmem
      rcases hmem with rfl | rfl
      · rcases (belongs_number_iff rfl).1 hcandidate with ⟨number, heq, -⟩
        cases heq
      · rcases (belongs_array_iff rfl).1 hcandidate with ⟨items, heq, -⟩
        cases heq

end Schema
end SentenceEngine
