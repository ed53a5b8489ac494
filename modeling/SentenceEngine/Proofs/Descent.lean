import SentenceEngine.Proofs.Calls
import Mathlib.Logic.Relation

/-!
# The descent of a validation

A validation as a machine. What is left to do in the calls that have made others is written down,
innermost first, and there is one stack of nodes for each parameter that is being checked. A check
puts its node on the stack and takes it off again whatever its answer is; a parameter starts with
an empty stack and forgets it. The machine knows no bound on its own steps: that it stops is
proved, and that it then says what the validator says.

* `State`, `step`: the machine.
* `Carries`: the machine answers an activation and has its stacks back.
* `carries_checked`: the answers are those of the validator's functions.
* `Nested`: the stacks that belong to what is left to do, none of them higher than allowed.
* `descent_terminates`: every call comes to its answer, and every program to its end.
-/

namespace SentenceEngine

namespace Descent

/-! ## The machine -/

/-- What a call that waits for the answer of another one does with it. -/
inductive Pending where
  /-- Goes on with other calls after a success. -/
  | loop (rest : List Call)
  /-- Goes back to what was collected before a failure, and goes on with other calls. -/
  | attempt (failure : ValidationError) (before : Pass) (rest : List Call)
  /-- Takes the node off the stack. -/
  | node
  /-- Forgets the stack of the parameter. -/
  | parameter

/-- What the machine is about to do: to make a call, or to hand over an answer. -/
inductive Control where
  | call (call : Call)
  | answer (outcome : Except ValidationError Unit)

/-- A state of the machine. -/
structure State where
  control : Control
  /-- What is left to do, innermost first. -/
  pending : List Pending
  /-- The nodes that are nested around the value at hand, innermost first. -/
  ancestors : List Schema
  /-- The stacks of the parameters around, innermost first. -/
  outer : List (List Schema)
  pass : Pass

namespace State

/-- The state at the start of the pass over a program. -/
def start (program : Sentence) : State := ⟨.call (.sentence .root program), [], [], [], Pass.start⟩

/-- Makes a call. -/
def turn (s : State) (call : Call) : State := { s with control := .call call }

/-- Hands over an answer. -/
def answer (s : State) (outcome : Except ValidationError Unit) : State :=
  { s with control := .answer outcome }

/-- Answers with the outcome of a step. -/
def settle (s : State) (step : Check Unit) : State :=
  { s with pass := (step s.pass).2 }.answer (step s.pass).1

/-- Leaves something to do for the answer of the next call. -/
def await (s : State) (p : Pending) : State := { s with pending := p :: s.pending }

/-- Makes calls as long as they succeed. -/
def loop (s : State) : List Call → State
  | [] => s.settle (pure ())
  | first :: rest => (s.await (.loop rest)).turn first

/-- Makes calls until one of them succeeds. -/
def attempt (s : State) (failure : ValidationError) : List Call → State
  | [] => s.settle (throw failure)
  | first :: rest => (s.await (.attempt failure s.pass rest)).turn first

/-- Goes back to what was collected before, but for the notices. -/
def rewind (s : State) (before : Pass) : State := { s with pass := Check.rollBack before s.pass }

/-- Puts a node on the stack. -/
def push (s : State) (schema : Schema) : State := { s with ancestors := schema :: s.ancestors }

/-- Takes a node off the stack. -/
def pop (s : State) : State := { s with ancestors := s.ancestors.tail }

/-- Starts a stack for a parameter. -/
def startStack (s : State) : State := { s with ancestors := [], outer := s.ancestors :: s.outer }

/-- Goes back to the stack of the parameter around. -/
def dropStack (s : State) : State :=
  { s with ancestors := s.outer.headD [], outer := s.outer.tail }

/-- Does what a call comes to. -/
def enter (s : State) : Move → State
  | .settle step => s.settle step
  | .turn call => s.turn call
  | .loop calls => s.loop calls
  | .attempt failure calls => s.attempt failure calls
  | .nest schema call => ((s.push schema).await .node).turn call
  | .afresh call => (s.startStack.await .parameter).turn call

/-- Hands an answer over to what waits for it. -/
def resume (s : State) (outcome : Except ValidationError Unit) : Pending → State
  | .loop rest =>
    match outcome with
    | .ok _ => s.loop rest
    | .error _ => s.answer outcome
  | .attempt failure before rest =>
    match outcome with
    | .ok _ => s.answer outcome
    | .error _ => (s.rewind before).attempt failure rest
  | .node => s.pop.answer outcome
  | .parameter => s.dropStack.answer outcome

end State

/-- A step of the machine. It stops with an answer for which nothing waits. -/
def step (lookup : SchemaLookup) (s : State) : Option State :=
  match s.control, s.pending with
  | .call call, _ => some (s.enter (call.move lookup s.ancestors))
  | .answer _, [] => none
  | .answer outcome, p :: rest => some ({ s with pending := rest }.resume outcome p)

/-! ## From a call to its answer -/

/-- The machine is inside a call whose caller has `pending` left to do: there is more to do than
that, or the call is still to be made. -/
def State.Inside (pending : List Pending) (s : State) : Prop :=
  pending <:+ s.pending ∧ (s.pending = pending → ∃ call, s.control = .call call)

/-- Steps from a call on, until it is answered. -/
def Course (lookup : SchemaLookup) (pending : List Pending) : State → State → Prop :=
  Relation.ReflTransGen fun now next => now.Inside pending ∧ step lookup now = some next

section Courses

variable {lookup : SchemaLookup}

theorem State.Inside.outward {p : Pending} {pending : List Pending} {s : State}
    (h : s.Inside (p :: pending)) : s.Inside pending := by
  refine ⟨(List.suffix_cons p pending).trans h.1, fun heq => ?_⟩
  have hlength := h.1.length_le
  rw [heq, List.length_cons] at hlength
  exact absurd hlength (Nat.not_succ_le_self _)

/-- A call inside another one is a part of its course. -/
theorem Course.outward {p : Pending} {pending : List Pending} {now later : State}
    (h : Course lookup (p :: pending) now later) : Course lookup pending now later :=
  Relation.ReflTransGen.mono (fun _ _ hstep => ⟨hstep.1.outward, hstep.2⟩) _ _ h

/-- The machine answers an activation as the step does, and everything that is left to do and all
stacks are as they were before the call. -/
def Carries (lookup : SchemaLookup) (a : Activation) (step : Check Unit) : Prop :=
  ∀ s : State, s.ancestors = a.ancestors →
    Course lookup s.pending (s.turn a.call) (s.settle step)

/-- The answer of a call is handed over to what waits for it. -/
theorem Carries.await {s : State} {call : Call} {check : Check Unit}
    (h : Carries lookup ⟨s.ancestors, call⟩ check) (p : Pending) {later : State}
    (hresume : Course lookup s.pending ((s.settle check).resume (check s.pass).1 p) later) :
    Course lookup s.pending ((s.await p).turn call) later := by
  have hcall : Course lookup s.pending ((s.await p).turn call) ((s.await p).settle check) :=
    (h (s.await p) rfl).outward
  have hinside : ((s.await p).settle check).Inside s.pending :=
    ⟨List.suffix_cons p s.pending, fun heq => absurd heq (List.cons_ne_self p s.pending)⟩
  exact hcall.trans (.head ⟨hinside, rfl⟩ hresume)

theorem State.settle_of_ok {s : State} {first next : Check Unit} {middle : Pass}
    (h : first s.pass = (.ok (), middle)) :
    s.settle (do first; next) = (s.settle first).settle next := by
  simp [State.settle, State.answer, Check.bind_apply, h]

theorem State.settle_of_error {s : State} {first next : Check Unit} {error : ValidationError}
    {middle : Pass} (h : first s.pass = (.error error, middle)) :
    s.settle (do first; next) = s.settle first := by
  simp [State.settle, State.answer, Check.bind_apply, h]

theorem State.settle_firstOf_of_ok {s : State} {answer : Call → Check Unit}
    {failure : ValidationError} {first : Call} {rest : List Call} {middle : Pass}
    (h : answer first s.pass = (.ok (), middle)) :
    s.settle (firstOf answer failure (first :: rest)) = s.settle (answer first) := by
  simp [State.settle, State.answer, firstOf_cons_apply, h]

theorem State.settle_firstOf_of_error {s : State} {answer : Call → Check Unit}
    {failure error : ValidationError} {first : Call} {rest : List Call} {middle : Pass}
    (h : answer first s.pass = (.error error, middle)) :
    s.settle (firstOf answer failure (first :: rest)) =
      ((s.settle (answer first)).rewind s.pass).settle (firstOf answer failure rest) := by
  simp [State.settle, State.answer, State.rewind, firstOf_cons_apply, h]

variable {answer : Activation → Check Unit}

theorem course_loop {s : State} {calls : List Call}
    (h : ∀ call ∈ calls, Carries lookup ⟨s.ancestors, call⟩ (answer ⟨s.ancestors, call⟩)) :
    Course lookup s.pending (s.loop calls)
      (s.settle (forM calls (answer ⟨s.ancestors, ·⟩))) := by
  induction calls generalizing s with
  | nil => exact .refl
  | cons first rest ih =>
    have hfirst := h first List.mem_cons_self
    have hrest : ∀ call ∈ rest,
        Carries lookup ⟨s.ancestors, call⟩ (answer ⟨s.ancestors, call⟩) :=
      fun call hcall => h call (List.mem_cons_of_mem _ hcall)
    apply hfirst.await
    rw [List.forM_cons]
    rcases hanswer : answer ⟨s.ancestors, first⟩ s.pass with ⟨error | done, middle⟩
    · rw [State.settle_of_error hanswer]
      simp only [State.resume, State.settle, hanswer]
      exact .refl
    · rw [State.settle_of_ok hanswer]
      exact ih (s := s.settle (answer ⟨s.ancestors, first⟩)) hrest

theorem course_attempt {s : State} {failure : ValidationError} {calls : List Call}
    (h : ∀ call ∈ calls, Carries lookup ⟨s.ancestors, call⟩ (answer ⟨s.ancestors, call⟩)) :
    Course lookup s.pending (s.attempt failure calls)
      (s.settle (firstOf (answer ⟨s.ancestors, ·⟩) failure calls)) := by
  induction calls generalizing s with
  | nil => exact .refl
  | cons first rest ih =>
    have hfirst := h first List.mem_cons_self
    have hrest : ∀ call ∈ rest,
        Carries lookup ⟨s.ancestors, call⟩ (answer ⟨s.ancestors, call⟩) :=
      fun call hcall => h call (List.mem_cons_of_mem _ hcall)
    apply hfirst.await
    rcases hanswer : answer ⟨s.ancestors, first⟩ s.pass with ⟨error | done, middle⟩
    · rw [State.settle_firstOf_of_error hanswer]
      exact ih (s := (s.settle (answer ⟨s.ancestors, first⟩)).rewind s.pass) hrest
    · rw [State.settle_firstOf_of_ok hanswer]
      simp only [State.resume, State.settle, hanswer]
      exact .refl

/-- A move answers as it should if all that it leads to is answered as it should be. -/
theorem course_enter {s : State} {move : Move}
    (h : ∀ b ∈ move.invoked s.ancestors, Carries lookup b (answer b)) :
    Course lookup s.pending (s.enter move) (s.settle (move.run s.ancestors answer)) := by
  cases move with
  | settle step => exact .refl
  | turn call => exact h ⟨s.ancestors, call⟩ List.mem_cons_self s rfl
  | loop calls => exact course_loop fun call hcall => h _ (List.mem_map_of_mem hcall)
  | attempt failure calls =>
    exact course_attempt fun call hcall => h _ (List.mem_map_of_mem hcall)
  | nest schema call =>
    have hcall := h ⟨schema :: s.ancestors, call⟩ List.mem_cons_self
    exact Carries.await (s := s.push schema) hcall .node .refl
  | afresh call =>
    have hcall := h ⟨[], call⟩ List.mem_cons_self
    exact Carries.await (s := s.startStack) hcall .parameter .refl

theorem Carries.of_invoked {a : Activation}
    (h : ∀ b, Invokes lookup b a → Carries lookup b (answer b)) :
    Carries lookup a ((a.move lookup).run a.ancestors answer) := by
  rintro s hs
  obtain ⟨ancestors, call⟩ := a
  obtain rfl : s.ancestors = ancestors := hs
  have hinside : (s.turn call).Inside s.pending := ⟨List.suffix_rfl, fun _ => ⟨call, rfl⟩⟩
  exact .head ⟨hinside, rfl⟩ (course_enter (s := s.turn call) h)

/-- Every call is answered, in every state, and the stacks are as they were before it. -/
theorem exists_carries (lookup : SchemaLookup) (a : Activation) :
    ∃ check, Carries lookup a check := by
  -- the induction is on the calls that an activation leads to, which come to an end
  induction a using (wellFounded_invokes lookup).induction with
  | h a ih =>
    choose! answer hanswer using ih
    exact ⟨_, Carries.of_invoked hanswer⟩

/-- The machine answers as the functions of the validator do. -/
theorem carries_checked {nesting : Nat} {a : Activation} (hproper : a.Proper)
    (hnesting : a.call.nesting ≤ nesting) : Carries lookup a (a.checked lookup nesting) := by
  induction a using (wellFounded_invokes lookup).induction generalizing nesting with
  | h a ih =>
    obtain ⟨left, heq, hleft⟩ := Activation.exists_checked_eq lookup hproper hnesting
    rw [heq]
    exact Carries.of_invoked fun b hb => ih b hb hb.proper_and_rank_lt.1 (hleft b hb)

end Courses

/-! ## How many nodes are nested -/

/-- The nodes that are nested in the innermost parameter. -/
def openNodes : List Pending → Nat
  | [] => 0
  | .node :: rest => openNodes rest + 1
  | .parameter :: _ => 0
  | .loop _ :: rest => openNodes rest
  | .attempt .. :: rest => openNodes rest

/-- The stacks that belong to what is left to do. A node is nested only where there is room. -/
inductive Nested : List Pending → List Schema → List (List Schema) → Prop
  | none : Nested [] [] []
  | loop {pending : List Pending} {ancestors : List Schema} {outer : List (List Schema)}
      (rest : List Call) (h : Nested pending ancestors outer) :
      Nested (.loop rest :: pending) ancestors outer
  | attempt {pending : List Pending} {ancestors : List Schema} {outer : List (List Schema)}
      (failure : ValidationError) (before : Pass) (rest : List Call)
      (h : Nested pending ancestors outer) :
      Nested (.attempt failure before rest :: pending) ancestors outer
  | node {pending : List Pending} {ancestors : List Schema} {outer : List (List Schema)}
      (schema : Schema) (h : Nested pending ancestors outer)
      (hroom : ancestors.length < maxSchemaDepth) :
      Nested (.node :: pending) (schema :: ancestors) outer
  | parameter {pending : List Pending} {ancestors : List Schema} {outer : List (List Schema)}
      (h : Nested pending ancestors outer) : Nested (.parameter :: pending) [] (ancestors :: outer)

section Nesting

variable {lookup : SchemaLookup} {s : State} {pending : List Pending} {ancestors : List Schema}
  {outer : List (List Schema)}

/-- The stack holds just the nodes that are nested. -/
theorem Nested.length_eq (h : Nested pending ancestors outer) :
    ancestors.length = openNodes pending := by
  induction h with
  | none => rfl
  | loop rest _ ih => exact ih
  | attempt failure before rest _ ih => exact ih
  | node schema _ _ ih => exact congrArg (· + 1) ih
  | parameter => rfl

/-- In no parameter, innermost or around it, are there more nodes than allowed. -/
theorem Nested.openNodes_le (h : Nested pending ancestors outer) {part : List Pending}
    (hpart : part <:+ pending) : openNodes part ≤ maxSchemaDepth := by
  induction h generalizing part with
  | none =>
    obtain rfl := List.suffix_nil.1 hpart
    exact Nat.zero_le _
  | loop rest h ih =>
    rcases List.suffix_cons_iff.1 hpart with rfl | hpart
    · rw [openNodes]
      exact ih List.suffix_rfl
    · exact ih hpart
  | attempt failure before rest h ih =>
    rcases List.suffix_cons_iff.1 hpart with rfl | hpart
    · rw [openNodes]
      exact ih List.suffix_rfl
    · exact ih hpart
  | node schema h hroom ih =>
    rcases List.suffix_cons_iff.1 hpart with rfl | hpart
    · rw [openNodes, ← h.length_eq]
      exact hroom
    · exact ih hpart
  | parameter h ih =>
    rcases List.suffix_cons_iff.1 hpart with rfl | hpart
    · exact Nat.zero_le _
    · exact ih hpart

/-- The stacks of a state belong to what is left to do in it. -/
def State.Accounted (s : State) : Prop := Nested s.pending s.ancestors s.outer

theorem State.accounted_start (program : Sentence) : (State.start program).Accounted := .none

theorem State.Accounted.loop (h : s.Accounted) (calls : List Call) : (s.loop calls).Accounted := by
  cases calls with
  | nil => exact h
  | cons first rest => exact Nested.loop rest h

theorem State.Accounted.attempt (h : s.Accounted) (failure : ValidationError) (calls : List Call) :
    (s.attempt failure calls).Accounted := by
  cases calls with
  | nil => exact h
  | cons first rest => exact Nested.attempt failure s.pass rest h

/-- Only a check nests a node, and it sees to it that there is room. -/
theorem Call.room_of_nest {call inner : Call} {schema : Schema}
    (h : call.move lookup ancestors = .nest schema inner) : ancestors.length < maxSchemaDepth := by
  cases call with
  | sentence path program => cases program <;> cases h
  | instruction path i =>
    simp only [Call.move] at h
    split at h <;> cases h
  | check handler schema path value =>
    cases value with
    | none => cases h
    | some value =>
      simp only [Call.move] at h
      split at h
      · cases h
      · exact Nat.lt_of_not_le ‹_›
  | kind handler schema path value =>
    simp only [Call.move, kindMove] at h
    repeat' split at h
    all_goals cases h
  | _ => cases h

/-- A step keeps the stacks in line with what is left to do. -/
theorem State.Accounted.step {later : State} (h : s.Accounted)
    (hstep : step lookup s = some later) : later.Accounted := by
  -- a call goes by its move, an answer by what waits for it
  obtain ⟨control, pending, ancestors, outer, pass⟩ := s
  cases control with
  | call call =>
    cases hstep
    show (State.enter _ (call.move lookup ancestors)).Accounted
    cases hmove : call.move lookup ancestors with
    | settle step => exact h
    | turn inner => exact h
    | loop calls => exact h.loop calls
    | attempt failure calls => exact h.attempt failure calls
    | nest schema inner => exact .node schema h (Call.room_of_nest hmove)
    | afresh inner => exact .parameter h
  | answer outcome =>
    cases h with
    | none => cases hstep
    | loop rest h =>
      cases hstep
      cases outcome with
      | ok done => exact State.Accounted.loop (s := ⟨_, _, _, _, _⟩) h rest
      | error error => exact h
    | attempt failure before rest h =>
      cases hstep
      cases outcome with
      | ok done => exact h
      | error error => exact State.Accounted.attempt (s := ⟨_, _, _, _, _⟩) h failure rest
    | node schema h hroom =>
      cases hstep
      exact h
    | parameter h =>
      cases hstep
      exact h

end Nesting

/-! ## The descent of a program -/

/-- The machine comes to a state in the pass over a program. -/
def Reached (lookup : SchemaLookup) (program : Sentence) (s : State) : Prop :=
  Relation.ReflTransGen (fun now next => step lookup now = some next) (State.start program) s

theorem Reached.accounted {lookup : SchemaLookup} {program : Sentence} {s : State}
    (h : Reached lookup program s) : s.Accounted := by
  induction h with
  | refl => exact State.accounted_start program
  | tail _ hstep ih => exact ih.step hstep

/-- What a state says about the program, once there is nothing left to do. -/
def State.examination? (s : State) : Option Examination :=
  match s.control with
  | .call _ => none
  | .answer (.ok _) => some ⟨.ok ⟨s.pass.labels, s.pass.warnings⟩, s.pass.notices⟩
  | .answer (.error error) => some ⟨.error error, s.pass.notices⟩

/-- The machine stops with what the validator says about a program. -/
theorem exists_reached_last (lookup : SchemaLookup) (program : Sentence) :
    ∃ last, Reached lookup program last ∧ step lookup last = none ∧
      last.examination? = some (examine lookup program) := by
  have hcarries : Carries lookup ⟨[], .sentence .root program⟩
      (Check.analyze (Check.checkInstruction lookup program.nesting) .root program) :=
    carries_checked trivial (Nat.le_refl _)
  have hcourse := hcarries (State.start program) rfl
  refine ⟨_, Relation.ReflTransGen.mono (fun _ _ h => h.2) _ _ hcourse, rfl, ?_⟩
  rw [examine, Pass.over]
  simp only [State.examination?, State.settle, State.answer, State.start]
  rcases Check.analyze (Check.checkInstruction lookup program.nesting) .root program
    Pass.start with ⟨error | done, after⟩
  · rfl
  · rfl

/-- The recursion of the validator is well founded, for all scripts. In every state of the machine
every call is answered, with everything that was left to do and all stacks as they were before it,
whatever the answer is; and a check is answered as the validator's. The descent of every program
comes to an end with what the validator says. On its way the stack holds the nodes that are nested
in the parameter at hand, and in no parameter are there ever more than allowed. -/
theorem descent_terminates (lookup : SchemaLookup) :
    WellFounded (Invokes lookup) ∧
    (∀ (s : State) (call : Call), s.control = .call call → ∃ outcome pass,
      Course lookup s.pending s { s with control := .answer outcome, pass := pass }) ∧
    (∀ (s : State) (nesting : Nat) (handler : String) (schema : Schema) (path : Path)
      (value : Json), s.control = .call (.check handler schema path (some value)) →
        value.height ≤ nesting →
      Course lookup s.pending s (s.settle (Check.check
        (Check.analyze (Check.checkInstruction lookup nesting)) handler
        (maxSchemaDepth - s.ancestors.length) s.ancestors schema path value))) ∧
    ∀ program : Sentence,
      (∃ last, Reached lookup program last ∧ step lookup last = none ∧
        last.examination? = some (examine lookup program)) ∧
      ∀ s, Reached lookup program s → s.ancestors.length = openNodes s.pending ∧
        ∀ part, part <:+ s.pending → openNodes part ≤ maxSchemaDepth := by
  have hturn {s : State} {call : Call} (hcall : s.control = .call call) : s.turn call = s := by
    rw [State.turn, ← hcall]
  refine ⟨wellFounded_invokes lookup, ?_, ?_, ?_⟩
  · intro s call hcall
    obtain ⟨check, hcheck⟩ := exists_carries lookup ⟨s.ancestors, call⟩
    have hcourse := hcheck s rfl
    rw [hturn hcall] at hcourse
    exact ⟨_, _, hcourse⟩
  · intro s nesting handler schema path value hcall hnesting
    have hcarries : Carries lookup ⟨s.ancestors, .check handler schema path (some value)⟩ _ :=
      carries_checked trivial hnesting
    have hcourse := hcarries s rfl
    rw [hturn hcall] at hcourse
    exact hcourse
  · intro program
    refine ⟨exists_reached_last lookup program, ?_⟩
    intro s hs
    exact ⟨hs.accounted.length_eq, fun _ hpart => hs.accounted.openNodes_le hpart⟩

/-- A node that stands for itself. -/
def cycle : Schema := (Schema.alternatives [.reference "cycle"]).named "cycle"

/-- A script whose payload may hold more of its own instructions, and a value for the node that
stands for itself. -/
def echo : SchemaLookup := fun handler =>
  if handler = "echo" then
    some [("body", Schema.sentences.asOptional), ("value", cycle.asOptional)]
  else none

/-- An instruction inside another one of the same script, with a value. -/
def echoes : Sentence :=
  .sequence [.instruction ⟨"echo",
    [("body", .object [("handler", .string "echo"), ("value", .ofNat 1)])]⟩]

section Echoes

-- one level of recursion for each of the 256 nodes
set_option maxRecDepth 4000

theorem examine_echoes :
    examine echo echoes =
      ⟨.error ⟨((Path.root.item 0).field "body").field "value", "echo",
        .noAlternative [.reference]⟩, []⟩ := by
  simp only [examine, Pass.over, echoes, Check.analyze, Check.analyzeItems]
  rfl

/-- The value goes round in the node until no more nodes may be nested, and is then refused. The
last check of the node for which there is room fails, and leaves the stack as it was. -/
theorem descent_terminates_echoes :
    (∃ last, Reached echo echoes last ∧ step echo last = none ∧ last.examination? =
      some ⟨.error ⟨((Path.root.item 0).field "body").field "value", "echo",
        .noAlternative [.reference]⟩, []⟩) ∧
    let s : State := ⟨.call (.check "echo" cycle .root (some (.ofNat 1))), [.loop []],
      List.replicate 255 cycle, [], Pass.start⟩
    Course echo [.loop []] s
      { s with control := .answer (.error ⟨.root, "echo", .noAlternative [.reference]⟩) } := by
  obtain ⟨-, -, hcheck, hprogram⟩ := descent_terminates echo
  constructor
  · have hlast := (hprogram echoes).1
    rwa [examine_echoes] at hlast
  · intro s
    exact hcheck s 0 "echo" cycle .root (.ofNat 1) rfl (Nat.le_refl 0)

end Echoes

end Descent
end SentenceEngine
