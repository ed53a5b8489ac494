import SentenceEngine.Thread.Frame

/-!
# What remains of a program

The instructions that a stack of frames has still to come to, read off its cursors in document
order. The cursor machine moves over labels and in and out of scopes, and none of its moves changes
this list: it stops at the first instruction of the list, or at the end when the list is empty.

* `Frame.Addresses`: every index of a cursor but the last leads into a nested sequence.
* `Frame.remaining`: the list, for a whole stack.
* `Frame.WellStacked`: what keeps a stack readable in this way.
* `Frame.seek_spec`: where the cursor machine stops.
-/

namespace SentenceEngine

mutual
/-- The instructions of a sentence in document order. -/
def Sentence.instructions : Sentence → List Instruction
  | .label _ => []
  | .instruction i => [i]
  | .sequence items => Sequence.instructions items

/-- The instructions of a sequence in document order. -/
def Sequence.instructions : List Sentence → List Instruction
  | [] => []
  | item :: rest => Sentence.instructions item ++ Sequence.instructions rest
end

namespace Frame

/-! ## Cursors -/

/-- Every index but the last leads into a nested sequence. -/
inductive Addresses : Sequence → List Nat → Prop
  | last {scope : Sequence} {index : Nat} : Addresses scope [index]
  | into {scope inner : Sequence} {index : Nat} {deeper : List Nat} :
      scope[index]? = some (.sequence inner) → Addresses inner deeper →
      Addresses scope (index :: deeper)

/-- The sentence under a cursor. -/
def target? : Sequence → List Nat → Option Sentence
  | _, [] => none
  | scope, [index] => scope[index]?
  | scope, index :: deeper =>
    match scope[index]? with
    | some (.sequence inner) => target? inner deeper
    | _ => none

/-- The instructions from a cursor on: those inside the nested scopes, then those after them. -/
def restFrom : Sequence → List Nat → List Instruction
  | _, [] => []
  | scope, [index] => Sequence.instructions (scope.drop index)
  | scope, index :: deeper =>
    match scope[index]? with
    | some (.sequence inner) =>
      restFrom inner deeper ++ Sequence.instructions (scope.drop (index + 1))
    | _ => Sequence.instructions (scope.drop (index + 1))

theorem Addresses.ne_nil {scope : Sequence} {cursor : List Nat} (h : Addresses scope cursor) :
    cursor ≠ [] := by
  cases h <;> simp

theorem target?_into {scope inner : Sequence} {index : Nat} {deeper : List Nat}
    (hs : scope[index]? = some (.sequence inner)) (hne : deeper ≠ []) :
    target? scope (index :: deeper) = target? inner deeper := by
  cases deeper with
  | nil => exact absurd rfl hne
  | cons next deeper => simp [target?, hs]

theorem restFrom_into {scope inner : Sequence} {index : Nat} {deeper : List Nat}
    (hs : scope[index]? = some (.sequence inner)) (hne : deeper ≠ []) :
    restFrom scope (index :: deeper) =
      restFrom inner deeper ++ Sequence.instructions (scope.drop (index + 1)) := by
  cases deeper with
  | nil => exact absurd rfl hne
  | cons next deeper => simp [restFrom, hs]

theorem resolve_into {scope inner : Sequence} {index : Nat} {deeper : List Nat}
    (hs : scope[index]? = some (.sequence inner)) (hne : deeper ≠ []) :
    resolve scope (index :: deeper) = resolve inner deeper := by
  cases deeper with
  | nil => exact absurd rfl hne
  | cons next deeper => simp [resolve, hs]

theorem bumpLast_cons {index : Nat} {deeper : List Nat} (hne : deeper ≠ []) :
    bumpLast (index :: deeper) = index :: bumpLast deeper := by
  cases deeper with
  | nil => exact absurd rfl hne
  | cons next deeper => rfl

theorem bumpLast_ne_nil {cursor : List Nat} (hne : cursor ≠ []) : bumpLast cursor ≠ [] := by
  fun_cases bumpLast cursor <;> simp_all

/-- A cursor resolves to what its target is. -/
theorem resolve_eq_target {scope : Sequence} {cursor : List Nat} (h : Addresses scope cursor) :
    resolve scope cursor =
      match target? scope cursor with
      | none => .finish
      | some (.label _) => .label
      | some (.instruction i) => .instruction i
      | some (.sequence _) => .scope := by
  induction h with
  | @last scope index =>
    rcases hget : scope[index]? with _ | _ | _ | _ <;> simp [resolve, target?, hget]
  | into hs hin ih => rw [resolve_into hs hin.ne_nil, target?_into hs hin.ne_nil, ih]

theorem Addresses.bumpLast {scope : Sequence} {cursor : List Nat} (h : Addresses scope cursor) :
    Addresses scope (bumpLast cursor) := by
  induction h with
  | last => exact .last
  | into hs hin ih =>
    rw [bumpLast_cons hin.ne_nil]
    exact .into hs ih

theorem Addresses.descend {scope inner : Sequence} {cursor : List Nat}
    (h : Addresses scope cursor) (ht : target? scope cursor = some (.sequence inner)) :
    Addresses scope (cursor ++ [0]) := by
  induction h with
  | last => exact .into ht .last
  | into hs hin ih =>
    rw [target?_into hs hin.ne_nil] at ht
    exact .into hs (ih ht)

theorem Addresses.dropLast {scope : Sequence} {cursor : List Nat} (h : Addresses scope cursor)
    (hlen : 1 < cursor.length) : Addresses scope cursor.dropLast := by
  induction h with
  | last => simp at hlen
  | into hs hin ih =>
    cases hin with
    | last => exact .last
    | into hs' hin' =>
      have hpos := List.length_pos_iff.2 hin'.ne_nil
      have hdeep := ih (by simpa using hpos)
      rw [List.dropLast_cons_of_ne_nil (by simp)]
      exact .into hs hdeep

/-! ## The way ahead

The moves from a cursor on: one for every label, every instruction, and every entry into and exit
from a scope. Only those at an instruction come to anything, and every move of the cursor machine
inside a frame takes the first of them away. -/

mutual
/-- The moves over a sentence. -/
def way : Sentence → List (Option Instruction)
  | .label _ => [none]
  | .instruction i => [some i]
  | .sequence items => none :: (itemsWay items ++ [none])

/-- The moves over the sentences of a scope. -/
def itemsWay : List Sentence → List (Option Instruction)
  | [] => []
  | item :: rest => way item ++ itemsWay rest
end

/-- The moves from a cursor on. -/
def wayFrom : Sequence → List Nat → List (Option Instruction)
  | _, [] => []
  | scope, [index] => itemsWay (scope.drop index)
  | scope, index :: deeper =>
    match scope[index]? with
    | some (.sequence inner) => wayFrom inner deeper ++ none :: itemsWay (scope.drop (index + 1))
    | _ => []

theorem wayFrom_into {scope inner : Sequence} {index : Nat} {deeper : List Nat}
    (hs : scope[index]? = some (.sequence inner)) (hne : deeper ≠ []) :
    wayFrom scope (index :: deeper) =
      wayFrom inner deeper ++ none :: itemsWay (scope.drop (index + 1)) := by
  cases deeper with
  | nil => exact absurd rfl hne
  | cons next deeper => simp [wayFrom, hs]

/-- The instructions that a list of moves comes to. -/
def met : List (Option Instruction) → List Instruction
  | [] => []
  | none :: moves => met moves
  | some i :: moves => i :: met moves

theorem met_append (xs ys : List (Option Instruction)) : met (xs ++ ys) = met xs ++ met ys := by
  fun_induction met xs with
  | case1 => rfl
  | case2 moves ih => exact ih
  | case3 i moves ih => exact congrArg (i :: ·) ih

mutual
theorem met_way (sentence : Sentence) :
    met (way sentence) = sentence.instructions := by
  match sentence with
  | .label _ => simp [way, met, Sentence.instructions]
  | .instruction i => simp [way, met, Sentence.instructions]
  | .sequence items =>
    simp [way, met, met_append, Sentence.instructions, met_itemsWay items]

theorem met_itemsWay (items : List Sentence) :
    met (itemsWay items) = Sequence.instructions items := by
  match items with
  | [] => simp [itemsWay, met, Sequence.instructions]
  | item :: rest =>
    simp [itemsWay, met_append, Sequence.instructions, met_way item, met_itemsWay rest]
end

mutual
theorem length_way (sentence : Sentence) : (way sentence).length = moves sentence := by
  match sentence with
  | .label _ => simp [way, moves]
  | .instruction i => simp [way, moves]
  | .sequence items => simp [way, moves, length_itemsWay items]

theorem length_itemsWay (items : List Sentence) : (itemsWay items).length = itemsMoves items := by
  match items with
  | [] => simp [itemsWay, itemsMoves]
  | item :: rest => simp [itemsWay, itemsMoves, length_way item, length_itemsWay rest]
end

/-- The instructions on the way ahead are the rest of the frame. -/
theorem met_wayFrom {scope : Sequence} {cursor : List Nat} (h : Addresses scope cursor) :
    met (wayFrom scope cursor) = restFrom scope cursor := by
  induction h with
  | last => simp only [wayFrom, restFrom, met_itemsWay]
  | into hs hin ih =>
    rw [wayFrom_into hs hin.ne_nil, restFrom_into hs hin.ne_nil, met_append, ih, met,
      met_itemsWay]

theorem itemsWay_drop_length_le (scope : Sequence) (index : Nat) :
    (itemsWay (scope.drop index)).length ≤ (itemsWay scope).length := by
  induction scope generalizing index with
  | nil => simp
  | cons item rest ih =>
    cases index with
    | zero => simp
    | succ index =>
      have := ih index
      simp only [List.drop_succ_cons, itemsWay, List.length_append]
      omega

theorem wayFrom_length_le {scope : Sequence} {cursor : List Nat} (h : Addresses scope cursor) :
    (wayFrom scope cursor).length ≤ itemsMoves scope := by
  rw [← length_itemsWay]
  induction h with
  | last => exact itemsWay_drop_length_le _ _
  | @into scope inner index deeper hs hin ih =>
    obtain ⟨hlt, hget⟩ := List.getElem?_eq_some_iff.1 hs
    have hle := itemsWay_drop_length_le scope index
    rw [List.drop_eq_getElem_cons hlt, hget] at hle
    rw [wayFrom_into hs hin.ne_nil]
    simp only [itemsWay, way, List.length_append, List.length_cons, List.length_nil] at hle ⊢
    omega

/-- The way ahead starts with the way over what stands under the cursor. -/
theorem wayFrom_of_target {scope : Sequence} {cursor : List Nat} {sentence : Sentence}
    (h : Addresses scope cursor) (ht : target? scope cursor = some sentence) :
    wayFrom scope cursor = way sentence ++ wayFrom scope (bumpLast cursor) := by
  induction h with
  | last =>
    obtain ⟨hlt, hget⟩ := List.getElem?_eq_some_iff.1 ht
    simp only [wayFrom, bumpLast]
    rw [List.drop_eq_getElem_cons hlt, hget, itemsWay]
  | into hs hin ih =>
    rw [target?_into hs hin.ne_nil] at ht
    rw [wayFrom_into hs hin.ne_nil, ih ht, bumpLast_cons hin.ne_nil,
      wayFrom_into hs (bumpLast_ne_nil hin.ne_nil), List.append_assoc]

theorem wayFrom_descend {scope inner : Sequence} {cursor : List Nat}
    (h : Addresses scope cursor) (ht : target? scope cursor = some (.sequence inner)) :
    wayFrom scope cursor = none :: wayFrom scope (cursor ++ [0]) := by
  induction h with
  | @last scope index =>
    have ht : scope[index]? = some (.sequence inner) := ht
    obtain ⟨hlt, hget⟩ := List.getElem?_eq_some_iff.1 ht
    have hin : wayFrom scope [index, 0] =
        wayFrom inner [0] ++ none :: itemsWay (scope.drop (index + 1)) :=
      wayFrom_into ht (by simp)
    rw [List.singleton_append, hin]
    simp only [wayFrom, List.drop_zero]
    rw [List.drop_eq_getElem_cons hlt, hget, itemsWay, way]
    simp
  | into hs hin ih =>
    rw [target?_into hs hin.ne_nil] at ht
    rw [List.cons_append, wayFrom_into hs hin.ne_nil, ih ht, wayFrom_into hs (by simp)]
    rfl

theorem wayFrom_ascend {scope : Sequence} {cursor : List Nat} (h : Addresses scope cursor)
    (ht : target? scope cursor = none) (hlen : 1 < cursor.length) :
    wayFrom scope cursor = none :: wayFrom scope (bumpLast cursor.dropLast) := by
  induction h with
  | last => simp at hlen
  | @into scope inner index deeper hs hin ih =>
    rw [target?_into hs hin.ne_nil] at ht
    rw [wayFrom_into hs hin.ne_nil]
    cases hin with
    | @last inner next =>
      -- the inner scope ends right here
      have hle : inner.length ≤ next := List.getElem?_eq_none_iff.1 ht
      simp [bumpLast, wayFrom, List.drop_eq_nil_of_le hle, itemsWay]
    | @into inner innermost next deepest hs' hin' =>
      -- a scope further inside ends, and the cursor stays in this one
      have hne : deepest ≠ [] := hin'.ne_nil
      have hpos := List.length_pos_iff.2 hne
      have hdrop : (next :: deepest).dropLast ≠ [] := by
        rw [List.dropLast_cons_of_ne_nil hne]
        simp
      rw [List.dropLast_cons_of_ne_nil (by simp), bumpLast_cons hdrop,
        wayFrom_into hs (bumpLast_ne_nil hdrop), ih ht (by simpa using hpos)]
      rfl

/-- Past the end of a scope every position is as good as another. -/
theorem wayFrom_bumpLast_of_end {scope : Sequence} {cursor : List Nat}
    (h : Addresses scope cursor) (ht : target? scope cursor = none) :
    wayFrom scope (bumpLast cursor) = wayFrom scope cursor := by
  induction h with
  | @last scope index =>
    have hle : scope.length ≤ index := List.getElem?_eq_none_iff.1 ht
    simp [bumpLast, wayFrom, List.drop_eq_nil_of_le hle,
      List.drop_eq_nil_of_le (Nat.le_succ_of_le hle)]
  | into hs hin ih =>
    rw [target?_into hs hin.ne_nil] at ht
    rw [bumpLast_cons hin.ne_nil, wayFrom_into hs (bumpLast_ne_nil hin.ne_nil), ih ht,
      wayFrom_into hs hin.ne_nil]

/-- At the end of the outermost scope there is no way ahead. -/
theorem wayFrom_root_end {scope : Sequence} {cursor : List Nat} (h : Addresses scope cursor)
    (ht : target? scope cursor = none) (hlen : cursor.length ≤ 1) : wayFrom scope cursor = [] := by
  cases h with
  | last =>
    have hle := List.getElem?_eq_none_iff.1 ht
    simp [wayFrom, List.drop_eq_nil_of_le hle, itemsWay]
  | into hs hin =>
    have hpos := List.length_pos_iff.2 hin.ne_nil
    simp only [List.length_cons] at hlen
    omega

/-! ## Frames and stacks -/

/-- The frame's cursor can be read. -/
def Readable (frame : Frame) : Prop := Addresses frame.sequence frame.cursor

/-- The instructions from the cursor of a frame on. -/
def rest (frame : Frame) : List Instruction := restFrom frame.sequence frame.cursor

/-- The moves from the cursor of a frame on. -/
def ahead (frame : Frame) : List (Option Instruction) := wayFrom frame.sequence frame.cursor

/-- The instructions that a stack has still to come to, the top frame first. The first one of the
top frame is left out if it is under way. -/
def pending : Bool → List Frame → List Instruction
  | _, [] => []
  | underWay, frame :: below =>
    (if underWay then frame.rest.tail else frame.rest) ++ pending frame.stepsCaller below

/-- The instructions that a stack has still to come to: those of the top frame from its cursor on,
then those of each lower frame, without the one under its cursor when the frame above steps it. -/
def remaining (frames : List Frame) : List Instruction := pending false frames

/-- Stepping past what is under the cursor takes at most one instruction away: there is one, or
there is nothing left in the frame. -/
def Steppable (frame : Frame) : Prop :=
  (∃ i, frame.position = .instruction i) ∨ frame.rest = []

/-- A stack that the cursor machine can move on: all cursors can be read, the bottom frame steps
nobody, and where a frame steps the one below, there is something to step past. -/
def WellStacked : List Frame → Prop
  | [] => False
  | [frame] => frame.Readable ∧ frame.stepsCaller = false
  | frame :: caller :: below =>
    frame.Readable ∧ (frame.stepsCaller = true → caller.Steppable) ∧ WellStacked (caller :: below)

@[simp] theorem advance_sequence (frame : Frame) : frame.advance.sequence = frame.sequence := rfl

@[simp] theorem advance_stepsCaller (frame : Frame) :
    frame.advance.stepsCaller = frame.stepsCaller := rfl

@[simp] theorem descend_sequence (frame : Frame) : frame.descend.sequence = frame.sequence := rfl

@[simp] theorem descend_stepsCaller (frame : Frame) :
    frame.descend.stepsCaller = frame.stepsCaller := rfl

theorem readable_new (sequence : Sequence) (start : Nat) (stepsCaller : Bool) :
    (Frame.new sequence start stepsCaller).Readable := Addresses.last

@[simp] theorem rest_new (sequence : Sequence) (start : Nat) (stepsCaller : Bool) :
    (Frame.new sequence start stepsCaller).rest = Sequence.instructions (sequence.drop start) := rfl

theorem Readable.advance {frame : Frame} (h : frame.Readable) : frame.advance.Readable :=
  Addresses.bumpLast h

theorem Readable.rest_eq {frame : Frame} (h : frame.Readable) :
    frame.rest = met frame.ahead := (met_wayFrom h).symm

/-- What a frame with a readable cursor is about to do. -/
theorem Readable.position_cases {frame : Frame} (h : frame.Readable) :
    (frame.position = .label ∧ frame.ahead = none :: frame.advance.ahead) ∨
    (frame.position = .scope ∧ frame.descend.Readable ∧
      frame.ahead = none :: frame.descend.ahead) ∨
    (∃ i, frame.position = .instruction i ∧ frame.ahead = some i :: frame.advance.ahead) ∨
    (frame.position = .finish ∧ frame.ascend? = none ∧ frame.ahead = []) ∨
    (∃ outer, frame.position = .finish ∧ frame.ascend? = some outer ∧ outer.Readable ∧
      outer.sequence = frame.sequence ∧ outer.stepsCaller = frame.stepsCaller ∧
      frame.ahead = none :: outer.ahead) := by
  have hpos : frame.position = _ := resolve_eq_target h
  rcases ht : target? frame.sequence frame.cursor with _ | sentence
  · -- the end of a scope: the whole frame ends, or only an inner scope
    rw [ht] at hpos
    by_cases hlen : frame.cursor.length ≤ 1
    · refine .inr (.inr (.inr (.inl ⟨hpos, ?_, wayFrom_root_end h ht hlen⟩)))
      simp [ascend?, hlen]
    · refine .inr (.inr (.inr (.inr ⟨{ frame with cursor := bumpLast frame.cursor.dropLast },
        hpos, ?_, ?_, rfl, rfl, wayFrom_ascend h ht (by omega)⟩)))
      · simp [ascend?, hlen]
      · exact (Addresses.dropLast h (by omega)).bumpLast
  · -- what stands under the cursor is the first thing on the way
    have hway : frame.ahead = way sentence ++ frame.advance.ahead := wayFrom_of_target h ht
    rw [ht] at hpos
    cases sentence with
    | label text => exact .inl ⟨hpos, by simpa [way] using hway⟩
    | instruction i => exact .inr (.inr (.inl ⟨i, hpos, by simpa [way] using hway⟩))
    | sequence inner =>
      exact .inr (.inl ⟨hpos, Addresses.descend h ht, wayFrom_descend h ht⟩)

/-- An instruction under the cursor is the first of the rest. -/
theorem Readable.rest_of_instruction {frame : Frame} {i : Instruction} (h : frame.Readable)
    (hpos : frame.position = .instruction i) : frame.rest = i :: frame.advance.rest := by
  rw [h.rest_eq, h.advance.rest_eq]
  rcases h.position_cases with ⟨hp, _⟩ | ⟨hp, _⟩ | ⟨j, hp, hw⟩ | ⟨hp, _⟩ | ⟨_, hp, _⟩
  -- the other positions contradict the one that is given
  case inr.inr.inl =>
    rw [hpos] at hp
    cases hp
    rw [hw, met]
  all_goals
    rw [hpos] at hp
    cases hp

/-- Stepping past what is under way leaves what comes after it. -/
theorem Readable.rest_advance {frame : Frame} (h : frame.Readable) (hs : frame.Steppable) :
    frame.advance.rest = frame.rest.tail := by
  rcases hs with ⟨i, hpos⟩ | hnil
  · rw [h.rest_of_instruction hpos, List.tail_cons]
  · -- nothing is left in the frame, so a step past its end changes nothing
    rw [hnil, List.tail_nil, h.advance.rest_eq]
    rw [h.rest_eq] at hnil
    rcases ht : target? frame.sequence frame.cursor with _ | sentence
    · have hway : frame.advance.ahead = frame.ahead := wayFrom_bumpLast_of_end h ht
      rw [hway, hnil]
    · have hway : frame.ahead = way sentence ++ frame.advance.ahead := wayFrom_of_target h ht
      rw [hway, met_append, List.append_eq_nil_iff] at hnil
      simpa using hnil.2

theorem WellStacked.readable {frame : Frame} {below : List Frame}
    (h : WellStacked (frame :: below)) : frame.Readable := by
  cases below with
  | nil => exact h.1
  | cons caller below => exact h.1

/-- The top frame may be replaced by another activation state of it. -/
theorem WellStacked.replace_top {frame frame' : Frame} {below : List Frame}
    (h : WellStacked (frame :: below)) (hread : frame'.Readable)
    (hsteps : frame'.stepsCaller = frame.stepsCaller) : WellStacked (frame' :: below) := by
  cases below with
  | nil => exact ⟨hread, hsteps.trans h.2⟩
  | cons caller below => exact ⟨hread, fun hs => h.2.1 (hsteps ▸ hs), h.2.2⟩

theorem remaining_cons (frame : Frame) (below : List Frame) :
    remaining (frame :: below) = frame.rest ++ pending frame.stepsCaller below := rfl

/-- Without what is under way, a stack has the tail of the rest of its top frame to come. -/
theorem pending_eq_tail {underWay : Bool} {frame : Frame} {below : List Frame}
    (h : underWay = true → frame.rest ≠ [] ∨ pending frame.stepsCaller below = []) :
    pending underWay (frame :: below) =
      if underWay then (remaining (frame :: below)).tail else remaining (frame :: below) := by
  cases underWay with
  | false => rfl
  | true =>
    rcases h rfl with hne | hnil
    · simp [pending, remaining_cons, List.tail_append_of_ne_nil hne]
    · simp [pending, remaining_cons, hnil]

/-! ## The cursor machine -/

/-- The number of moves that a stack has still to come to. -/
def stackMoves : List Frame → Nat
  | [] => 0
  | frame :: below => frame.ahead.length + 1 + stackMoves below

theorem stackMoves_lt_movesLeft {frames : List Frame} (h : ∀ frame ∈ frames, frame.Readable) :
    stackMoves frames < movesLeft frames := by
  induction frames with
  | nil => simp [stackMoves, movesLeft]
  | cons frame below ih =>
    have hread : frame.Readable := h frame (by simp)
    have hle : frame.ahead.length ≤ itemsMoves frame.sequence := wayFrom_length_le hread
    have := ih fun f hf => h f (by simp [hf])
    simp only [stackMoves, movesLeft]
    omega

theorem WellStacked.all_readable {frames : List Frame} (h : WellStacked frames) :
    ∀ frame ∈ frames, frame.Readable := by
  induction frames with
  | nil => exact h.elim
  | cons frame below ih =>
    cases below with
    | nil => simpa using h.1
    | cons caller below =>
      intro f hf
      rcases List.mem_cons.1 hf with rfl | hf
      · exact h.1
      · exact ih h.2.2 f hf

/-- The cursor machine has stopped, with these instructions to come: at the first of them, or at
the end if there are none. -/
def StopsAt (toCome : List Instruction) (stop : Stop) (frames : List Frame) : Prop :=
  WellStacked frames ∧ remaining frames = toCome ∧
    match toCome with
    | [] => stop = .finish
    | i :: _ => stop = .instruction i ∧
        ∃ frame below, frames = frame :: below ∧ frame.position = .instruction i

/-- A move that comes to nothing leaves the rest as it is. -/
theorem Readable.rest_of_idle {frame frame' : Frame} (h : frame.Readable) (h' : frame'.Readable)
    (hway : frame.ahead = none :: frame'.ahead) : frame'.rest = frame.rest := by
  rw [h.rest_eq, h'.rest_eq, hway, met]

theorem Readable.length_ahead_advance_le {frame : Frame} (h : frame.Readable) :
    frame.advance.ahead.length ≤ frame.ahead.length := by
  rcases ht : target? frame.sequence frame.cursor with _ | sentence
  · have hway : frame.advance.ahead = frame.ahead := wayFrom_bumpLast_of_end h ht
    exact Nat.le_of_eq (congrArg List.length hway)
  · have hway : frame.ahead = way sentence ++ frame.advance.ahead := wayFrom_of_target h ht
    rw [hway, List.length_append]
    omega

/-- Where a frame ends, the one below goes on: past its instruction if the frame steps it. -/
theorem WellStacked.pop {frame caller : Frame} {below : List Frame}
    (h : WellStacked (frame :: caller :: below)) (hend : frame.ahead = []) :
    let next := if frame.stepsCaller then caller.advance else caller
    WellStacked (next :: below) ∧
      remaining (next :: below) = remaining (frame :: caller :: below) ∧
      stackMoves (next :: below) < stackMoves (frame :: caller :: below) := by
  have hcaller : caller.Readable := h.2.2.readable
  have hrest : frame.rest = [] := by rw [h.readable.rest_eq, hend, met]
  cases hsteps : frame.stepsCaller with
  | false =>
    -- the frame below goes on where it was
    refine ⟨h.2.2, ?_, ?_⟩
    · simp [remaining_cons, hrest, hsteps, pending]
    · simp [stackMoves]
  | true =>
    -- the frame below goes on past the instruction that handed over
    refine ⟨h.2.2.replace_top hcaller.advance rfl, ?_, ?_⟩
    · have hadv := hcaller.rest_advance (h.2.1 hsteps)
      simp [remaining_cons, hrest, hsteps, pending, hadv]
    · have := hcaller.length_ahead_advance_le
      simp only [if_true, stackMoves]
      omega

theorem seekWithin_spec {moves : Nat} {frames : List Frame} (h : WellStacked frames)
    (hmoves : stackMoves frames < moves) :
    StopsAt (remaining frames) (seekWithin moves frames).1 (seekWithin moves frames).2 := by
  -- the induction is on the bound; every move but the last one shortens the way ahead
  induction moves generalizing frames with
  | zero => omega
  | succ moves ih =>
    cases frames with
    | nil => exact h.elim
    | cons frame below =>
      have hread := h.readable
      -- labels and the borders of scopes: the way is one move shorter, the rest the same
      have idle : ∀ {frame' : Frame}, frame'.Readable → frame'.stepsCaller = frame.stepsCaller →
          frame.ahead = none :: frame'.ahead →
          StopsAt (remaining (frame :: below)) (seekWithin moves (frame' :: below)).1
            (seekWithin moves (frame' :: below)).2 := by
        intro frame' hread' hsteps hway
        have hrem : remaining (frame' :: below) = remaining (frame :: below) := by
          rw [remaining_cons, remaining_cons, hread.rest_of_idle hread' hway, hsteps]
        rw [← hrem]
        refine ih (h.replace_top hread' hsteps) ?_
        simp only [stackMoves, hway, List.length_cons] at hmoves ⊢
        omega
      rcases hread.position_cases with ⟨hpos, hway⟩ | ⟨hpos, hread', hway⟩ | ⟨i, hpos, hway⟩ |
        ⟨hpos, hasc, hend⟩ | ⟨outer, hpos, hasc, hread', -, hsteps, hway⟩
      · simp only [seekWithin, hpos]
        exact idle hread.advance rfl hway
      · simp only [seekWithin, hpos]
        exact idle hread' rfl hway
      · -- an instruction: it is the first of those to come
        simp only [seekWithin, hpos]
        refine ⟨h, rfl, ?_⟩
        rw [remaining_cons, hread.rest_of_instruction hpos]
        exact ⟨rfl, frame, below, rfl, hpos⟩
      · -- the frame ends: so does the program, or the frame below goes on
        simp only [seekWithin, hpos, hasc]
        cases below with
        | nil =>
          have hrest : remaining [frame] = [] := by
            simp [remaining_cons, pending, hread.rest_eq, hend, met]
          rw [hrest]
          exact ⟨h, hrest, rfl⟩
        | cons caller below =>
          obtain ⟨hstack, hrem, hlt⟩ := h.pop hend
          rw [← hrem]
          exact ih hstack (by omega)
      · simp only [seekWithin, hpos, hasc]
        exact idle hread' hsteps hway

/-- The cursor machine never meets the bound on its moves: it stops at the first instruction that
is still to come, or at the end when there is none, and what is to come stays the same. -/
theorem seek_spec {frames : List Frame} (h : WellStacked frames) :
    StopsAt (remaining frames) (seek frames).1 (seek frames).2 :=
  seekWithin_spec h (stackMoves_lt_movesLeft h.all_readable)

/-! ## Where instructions come from -/

theorem mem_instructions_drop {scope : Sequence} {index : Nat} {i : Instruction}
    (h : i ∈ Sequence.instructions (scope.drop index)) : i ∈ Sequence.instructions scope := by
  induction scope generalizing index with
  | nil => simpa using h
  | cons item rest ih =>
    cases index with
    | zero => exact h
    | succ index => exact List.mem_append_right _ (ih h)

theorem mem_instructions_inner {scope inner : Sequence} {index : Nat} {i : Instruction}
    (hs : scope[index]? = some (.sequence inner)) (h : i ∈ Sequence.instructions inner) :
    i ∈ Sequence.instructions scope := by
  obtain ⟨hlt, hget⟩ := List.getElem?_eq_some_iff.1 hs
  have hdrop : i ∈ Sequence.instructions (scope.drop index) := by
    rw [List.drop_eq_getElem_cons hlt, hget, Sequence.instructions, Sentence.instructions]
    exact List.mem_append_left _ h
  exact mem_instructions_drop hdrop

theorem mem_restFrom {scope : Sequence} {cursor : List Nat} {i : Instruction}
    (h : i ∈ restFrom scope cursor) : i ∈ Sequence.instructions scope := by
  fun_induction restFrom scope cursor with
  | case1 => cases h
  | case2 scope index => exact mem_instructions_drop h
  | case3 scope index deeper hne inner hs ih =>
    rcases List.mem_append.1 h with h | h
    · exact mem_instructions_inner hs (ih h)
    · exact mem_instructions_drop h
  | case4 scope index deeper hne hs => exact mem_instructions_drop h

/-- What a stack has to come stands in the sequence of one of its frames. -/
theorem exists_frame_of_mem_pending {underWay : Bool} {frames : List Frame} {i : Instruction}
    (h : i ∈ pending underWay frames) :
    ∃ frame ∈ frames, i ∈ Sequence.instructions frame.sequence := by
  induction frames generalizing underWay with
  | nil => cases h
  | cons frame below ih =>
    rcases List.mem_append.1 h with h | h
    · have hrest : i ∈ frame.rest := by
        cases underWay with
        | true => exact List.mem_of_mem_tail h
        | false => exact h
      exact ⟨frame, List.mem_cons_self, mem_restFrom hrest⟩
    · obtain ⟨caller, hcaller, hi⟩ := ih h
      exact ⟨caller, List.mem_cons_of_mem _ hcaller, hi⟩

theorem ascend?_sequence {frame outer : Frame} (h : frame.ascend? = some outer) :
    outer.sequence = frame.sequence := by
  unfold ascend? at h
  split at h
  · cases h
  · cases h
    rfl

/-- The sequences of a stack of frames. -/
def sequences (frames : List Frame) : List Sequence := frames.map (·.sequence)

theorem sequences_seekWithin (moves : Nat) (frames : List Frame) :
    sequences (seekWithin moves frames).2 ⊆ sequences frames := by
  fun_induction seekWithin moves frames with
  | case1 => exact List.Subset.refl _
  | case2 => exact List.Subset.refl _
  | case3 moves frame below hpos ih => exact ih
  | case4 moves frame below hpos ih => exact ih
  | case5 moves frame below i hpos => exact List.Subset.refl _
  | case6 moves frame below hpos outer hasc ih =>
    simpa [sequences, ascend?_sequence hasc] using ih
  | case7 moves frame hpos hasc => exact List.Subset.refl _
  | case8 moves frame hpos hasc caller below ih =>
    refine List.Subset.trans ih (List.Subset.trans ?_ (List.subset_cons_self _ _))
    cases frame.stepsCaller <;> exact List.Subset.refl _

/-- The cursor machine brings no sequences onto the stack. -/
theorem sequences_seek (frames : List Frame) : sequences (seek frames).2 ⊆ sequences frames :=
  sequences_seekWithin _ _

end Frame
end SentenceEngine
