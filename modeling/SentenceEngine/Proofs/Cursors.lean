import SentenceEngine.Proofs.Steps

/-!
# Cursors stay within their programs

The cursor machine goes round a loop: it looks at the top frame, moves its cursor, leaves the frame
when it has ended, and stops at an instruction or at the end of the bottom frame. From a stack that
is in order every iteration leads to a stack that is in order and shortens the way that is left, so
the loop comes to an end and never meets an empty stack or an empty cursor. Every state of a running
thread in which someone can act has such a stack, also while calls from hooks are served.

* `Frame.Within`, `Frame.Proper`: cursors within their scopes, and stacks made of them.
* `Frame.iterate?`, `Frame.Halts`: one iteration of the loop, and the loop as a whole.
* `Machine.Run.well_framed`: the stacks of running threads.
-/

namespace SentenceEngine

theorem Sequence.findLabel?_lt {sequence : Sequence} {label : String} {index : Nat}
    (h : sequence.findLabel? label = some index) : index < sequence.length :=
  (List.findIdx?_eq_some_iff_findIdx_eq.1 h).1

/-- A program is entered at one of its sentences, or at its start. -/
theorem Sequence.entry_le {sequence : Sequence} {entry : Option String} {start : Nat}
    (h : sequence.entry entry = .ok start) : start ≤ sequence.length := by
  cases entry with
  | none =>
    cases h
    exact Nat.zero_le _
  | some label =>
    simp only [Sequence.entry] at h
    split at h
    next index hfound =>
      cases h
      exact Nat.le_of_lt (Sequence.findLabel?_lt hfound)
    next => cases h

namespace Frame

/-! ## Cursors within their scopes -/

/-- Every index but the last leads into a nested sequence, and the last is at most the length of its
scope. -/
inductive Within : Sequence → List Nat → Prop
  | last {scope : Sequence} {index : Nat} (hle : index ≤ scope.length) : Within scope [index]
  | into {scope inner : Sequence} {index : Nat} {deeper : List Nat}
      (hs : scope[index]? = some (.sequence inner)) (hin : Within inner deeper) :
      Within scope (index :: deeper)

theorem Within.addresses {scope : Sequence} {cursor : List Nat} (h : Within scope cursor) :
    Addresses scope cursor := by
  induction h with
  | last hle => exact .last
  | into hs hin ih => exact .into hs ih

theorem Within.ne_nil {scope : Sequence} {cursor : List Nat} (h : Within scope cursor) :
    cursor ≠ [] := h.addresses.ne_nil

/-- A cursor that points at a sentence can go on to the next one. -/
theorem Within.bumpLast {scope : Sequence} {cursor : List Nat} {sentence : Sentence}
    (h : Within scope cursor) (ht : target? scope cursor = some sentence) :
    Within scope (bumpLast cursor) := by
  induction h with
  | @last scope index hle =>
    have hget : scope[index]? = some sentence := ht
    have hlt : index < scope.length := (List.getElem?_eq_some_iff.1 hget).1
    exact .last hlt
  | into hs hin ih =>
    rw [target?_into hs hin.ne_nil] at ht
    rw [bumpLast_cons hin.ne_nil]
    exact .into hs (ih ht)

theorem Within.descend {scope inner : Sequence} {cursor : List Nat} (h : Within scope cursor)
    (ht : target? scope cursor = some (.sequence inner)) : Within scope (cursor ++ [0]) := by
  induction h with
  | @last scope index hle =>
    have hget : scope[index]? = some (.sequence inner) := ht
    exact .into hget (.last (Nat.zero_le _))
  | into hs hin ih =>
    rw [target?_into hs hin.ne_nil] at ht
    exact .into hs (ih ht)

/-- A cursor that leaves a nested sequence goes on after it. -/
theorem Within.ascend {scope : Sequence} {cursor : List Nat} (h : Within scope cursor)
    (hlen : 1 < cursor.length) : Within scope (Frame.bumpLast cursor.dropLast) := by
  induction h with
  | last hle => simp at hlen
  | @into scope inner index deeper hs hin ih =>
    cases hin with
    | last hle =>
      -- the sequence that is left stands in the scope itself
      have hlt : index < scope.length := (List.getElem?_eq_some_iff.1 hs).1
      exact .last hlt
    | @into inner innermost next deepest hs' hin' =>
      -- the sequence that is left stands further inside
      have hpos := List.length_pos_iff.2 hin'.ne_nil
      have hdeep := ih (by simpa using hpos)
      have hdrop : (next :: deepest).dropLast ≠ [] := by
        rw [List.dropLast_cons_of_ne_nil hin'.ne_nil]
        simp
      rw [List.dropLast_cons_of_ne_nil (by simp), bumpLast_cons hdrop]
      exact .into hs hdeep

/-! ## Stacks in order -/

/-- A stack with all cursors within their scopes. The bottom frame steps nobody, and below a frame
that steps its caller the cursor points at an instruction. -/
inductive Proper : List Frame → Prop
  | bottom {frame : Frame} (hin : Within frame.sequence frame.cursor)
      (hsteps : frame.stepsCaller = false) : Proper [frame]
  | above {frame caller : Frame} {below : List Frame} (hin : Within frame.sequence frame.cursor)
      (hcaller : frame.stepsCaller = true → ∃ i, caller.position = .instruction i)
      (hbelow : Proper (caller :: below)) : Proper (frame :: caller :: below)

theorem Proper.ne_nil {frames : List Frame} (h : Proper frames) : frames ≠ [] := by
  cases h <;> simp

theorem Proper.top {frame : Frame} {below : List Frame} (h : Proper (frame :: below)) :
    Within frame.sequence frame.cursor := by
  cases h with
  | bottom hin => exact hin
  | above hin => exact hin

theorem Proper.within {frames : List Frame} (h : Proper frames) :
    ∀ frame ∈ frames, Within frame.sequence frame.cursor := by
  induction h with
  | bottom hin => simpa using hin
  | above hin hcaller hbelow ih =>
    intro frame hframe
    rcases List.mem_cons.1 hframe with rfl | hframe
    · exact hin
    · exact ih frame hframe

theorem Proper.wellStacked {frames : List Frame} (h : Proper frames) : WellStacked frames := by
  induction h with
  | bottom hin hsteps => exact ⟨hin.addresses, hsteps⟩
  | above hin hcaller hbelow ih => exact ⟨hin.addresses, fun h => .inl (hcaller h), ih⟩

/-- The top frame may be replaced by another activation state of it. -/
theorem Proper.replace_top {frame frame' : Frame} {below : List Frame}
    (h : Proper (frame :: below)) (hin : Within frame'.sequence frame'.cursor)
    (hsteps : frame'.stepsCaller = frame.stepsCaller) : Proper (frame' :: below) := by
  cases h with
  | bottom _ hbottom => exact .bottom hin (hsteps.trans hbottom)
  | above _ hcaller hbelow =>
    refine .above hin ?_ hbelow
    rwa [hsteps]

/-- Below any frame that steps its caller, the cursor points at an instruction. -/
theorem Proper.caller {frames above : List Frame} {frame caller : Frame} {below : List Frame}
    (h : Proper frames) (hframes : frames = above ++ frame :: caller :: below)
    (hsteps : frame.stepsCaller = true) : ∃ i, caller.position = .instruction i := by
  induction above generalizing frames with
  | nil =>
    subst hframes
    cases h with
    | above hin hcaller hbelow => exact hcaller hsteps
  | cons first above ih =>
    subst hframes
    -- the stack below the first frame is in order as well
    have hbelow : Proper (above ++ frame :: caller :: below) := by
      cases h' : above ++ frame :: caller :: below with
      | nil => simp at h'
      | cons second rest =>
        rw [List.cons_append, h'] at h
        cases h with
        | above hin hcaller hbelow => exact hbelow
    exact ih hbelow rfl

theorem Proper.stepsCaller_last {frames above : List Frame} {frame : Frame} (h : Proper frames)
    (hframes : frames = above ++ [frame]) : frame.stepsCaller = false := by
  induction h generalizing above with
  | @bottom last hin hsteps =>
    cases above with
    | nil =>
      cases hframes
      exact hsteps
    | cons first above => simp at hframes
  | above hin hcaller hbelow ih =>
    cases above with
    | nil => cases hframes
    | cons first above =>
      simp only [List.cons_append, List.cons.injEq] at hframes
      exact ih hframes.2

/-! ## One iteration -/

/-- A frame that does not point past the end of a scope points at a sentence. -/
theorem exists_target {frame : Frame} (h : Within frame.sequence frame.cursor)
    (hpos : frame.position ≠ .finish) :
    ∃ sentence, target? frame.sequence frame.cursor = some sentence ∧
      (frame.position = .scope → ∃ inner, sentence = .sequence inner) := by
  have hresolve : frame.position = _ := resolve_eq_target h.addresses
  rcases ht : target? frame.sequence frame.cursor with _ | sentence
  · rw [ht] at hresolve
    exact absurd hresolve hpos
  · refine ⟨sentence, rfl, ?_⟩
    intro hscope
    rw [ht, hscope] at hresolve
    cases sentence with
    | sequence inner => exact ⟨inner, rfl⟩
    | label text => cases hresolve
    | instruction i => cases hresolve

/-- A frame that points at a sentence can step past it. -/
theorem Within.advance {frame : Frame} (h : Within frame.sequence frame.cursor)
    (hpos : frame.position ≠ .finish) :
    Within frame.advance.sequence frame.advance.cursor := by
  obtain ⟨sentence, ht, -⟩ := exists_target h hpos
  exact h.bumpLast ht

theorem Within.enter {frame : Frame} (h : Within frame.sequence frame.cursor)
    (hpos : frame.position = .scope) :
    Within frame.descend.sequence frame.descend.cursor := by
  obtain ⟨sentence, ht, hinner⟩ := exists_target h (by simp [hpos])
  obtain ⟨inner, rfl⟩ := hinner hpos
  exact h.descend ht

theorem Within.leave {frame outer : Frame} (h : Within frame.sequence frame.cursor)
    (hasc : frame.ascend? = some outer) : Within outer.sequence outer.cursor := by
  unfold ascend? at hasc
  split at hasc
  · cases hasc
  next hlen =>
    cases hasc
    exact h.ascend (by omega)

/-- One iteration of the loop: what becomes of the stack; nothing where the loop ends. -/
def iterate? : List Frame → Option (List Frame)
  | [] => none
  | frame :: below =>
    match frame.position with
    | .label => some (frame.advance :: below)
    | .scope => some (frame.descend :: below)
    | .instruction _ => none
    | .finish =>
      match frame.ascend?, below with
      | some outer, below => some (outer :: below)
      | none, [] => none
      | none, caller :: below =>
        some ((if frame.stepsCaller then caller.advance else caller) :: below)

/-- Where the loop has ended. -/
def halt : List Frame → Stop
  | [] => .finish
  | frame :: _ =>
    match frame.position with
    | .instruction i => .instruction i
    | _ => .finish

/-- The cursor machine is the loop. -/
theorem seekWithin_succ (moves : Nat) (frames : List Frame) :
    seekWithin (moves + 1) frames =
      match iterate? frames with
      | some next => seekWithin moves next
      | none => (halt frames, frames) := by
  cases frames with
  | nil => rfl
  | cons frame below =>
    rcases hpos : frame.position with _ | _ | i | _
    · simp [seekWithin, iterate?, hpos]
    · simp [seekWithin, iterate?, hpos]
    · simp [seekWithin, iterate?, halt, hpos]
    · rcases hasc : frame.ascend? with _ | outer
      · cases below with
        | nil => simp [seekWithin, iterate?, halt, hpos, hasc]
        | cons caller below => simp [seekWithin, iterate?, hpos, hasc]
      · simp [seekWithin, iterate?, hpos, hasc]

/-- An iteration keeps a stack in order and shortens the way that is left. -/
theorem Proper.iterate {frames next : List Frame} (h : Proper frames)
    (hnext : iterate? frames = some next) : Proper next ∧ stackMoves next < stackMoves frames := by
  cases frames with
  | nil => cases hnext
  | cons frame below =>
    have hin := h.top
    have hread : frame.Readable := hin.addresses
    rcases hread.position_cases with ⟨hpos, hway⟩ | ⟨hpos, -, hway⟩ |
      ⟨i, hpos, -⟩ | ⟨hpos, hasc, hend⟩ | ⟨outer, hpos, hasc, -, -, hsteps, hway⟩
    · -- a label is stepped past
      simp only [iterate?, hpos, Option.some.injEq] at hnext
      subst hnext
      constructor
      · exact h.replace_top (hin.advance (by simp [hpos])) rfl
      · simp [stackMoves, hway]
    · -- a nested sequence is entered
      simp only [iterate?, hpos, Option.some.injEq] at hnext
      subst hnext
      constructor
      · exact h.replace_top (hin.enter hpos) rfl
      · simp [stackMoves, hway]
    · simp [iterate?, hpos] at hnext
    · -- the frame ends, and the one below goes on
      cases below with
      | nil => simp [iterate?, hpos, hasc] at hnext
      | cons caller below =>
        simp only [iterate?, hpos, hasc, Option.some.injEq] at hnext
        subst hnext
        have hshorter := (h.wellStacked.pop hend).2.2
        refine ⟨?_, hshorter⟩
        cases h with
        | above _ hcaller hbelow =>
          cases hsteps : frame.stepsCaller with
          | false => exact hbelow
          | true =>
            obtain ⟨i, hinstruction⟩ := hcaller hsteps
            have hadvance := hbelow.top.advance (by simp [hinstruction])
            exact hbelow.replace_top hadvance rfl
    · -- a nested sequence is left
      simp only [iterate?, hpos, hasc, Option.some.injEq] at hnext
      subst hnext
      constructor
      · exact h.replace_top (hin.leave hasc) hsteps
      · simp [stackMoves, hway]

/-! ## The loop -/

/-- The stack after a number of iterations; nothing if the loop ends before. -/
def iterations : Nat → List Frame → Option (List Frame)
  | 0, frames => some frames
  | count + 1, frames => (iterate? frames).bind (iterations count)

theorem Proper.later {count : Nat} {frames later : List Frame} (h : Proper frames)
    (hlater : iterations count frames = some later) : Proper later := by
  induction count generalizing frames with
  | zero =>
    cases hlater
    exact h
  | succ count ih =>
    obtain ⟨next, hnext, hlater⟩ := Option.bind_eq_some_iff.1 hlater
    exact ih (h.iterate hnext).1 hlater

/-- The loop ends, and it has not met an empty stack or an empty cursor on the way. -/
structure Halts (frames : List Frame) : Prop where
  /-- Every iteration finds a top frame, and cursors to read. -/
  safe : ∀ count later, iterations count frames = some later →
    later ≠ [] ∧ ∀ frame ∈ later, frame.cursor ≠ []
  /-- After a bounded number of iterations the loop ends, and there the cursor machine stops. -/
  ends : ∃ count last, count < movesLeft frames ∧ iterations count frames = some last ∧
    iterate? last = none ∧ seek frames = (halt last, last)

/-- The loop goes on until the way that is left is used up. -/
theorem Proper.seekWithin_eq {moves : Nat} {frames : List Frame} (h : Proper frames)
    (hmoves : stackMoves frames < moves) :
    ∃ count last, count < moves ∧ iterations count frames = some last ∧ iterate? last = none ∧
      seekWithin moves frames = (halt last, last) := by
  induction moves generalizing frames with
  | zero => omega
  | succ moves ih =>
    rw [seekWithin_succ]
    rcases hnext : iterate? frames with _ | next
    · -- the loop ends right here
      exact ⟨0, frames, Nat.succ_pos _, rfl, hnext, rfl⟩
    · obtain ⟨hproper, hshorter⟩ := h.iterate hnext
      have hfewer : stackMoves next < moves := by omega
      obtain ⟨count, last, hcount, hlast, hnone, hseek⟩ := ih hproper hfewer
      refine ⟨count + 1, last, Nat.succ_lt_succ hcount, ?_, hnone, hseek⟩
      rw [iterations, hnext]
      exact hlast

theorem Proper.halts {frames : List Frame} (h : Proper frames) : Halts frames where
  safe := by
    intro count later hlater
    have hproper := h.later hlater
    refine ⟨hproper.ne_nil, ?_⟩
    intro frame hframe
    exact (hproper.within frame hframe).ne_nil
  ends := h.seekWithin_eq (stackMoves_lt_movesLeft h.wellStacked.all_readable)

/-- The cursor machine leaves a stack in order. -/
theorem Proper.seek {frames : List Frame} (h : Proper frames) : Proper (seek frames).2 := by
  obtain ⟨count, last, -, hlast, -, hseek⟩ := h.halts.ends
  rw [hseek]
  exact h.later hlast

end Frame

namespace ThreadState

variable {t t' p : ThreadState}

/-! ## Threads -/

/-- How the stack of a running thread is wherever someone can act. -/
structure WellFramed (t : ThreadState) : Prop where
  nonempty : t.frames ≠ []
  within : ∀ frame ∈ t.frames, frame.cursor ≠ [] ∧ Frame.Within frame.sequence frame.cursor
  bottom : ∀ above frame, t.frames = above ++ [frame] → frame.stepsCaller = false
  callers : ∀ above frame caller below, t.frames = above ++ frame :: caller :: below →
    frame.stepsCaller = true → ∃ i, caller.position = .instruction i
  /-- The cursor on top points at the instruction that the script in flight was dispatched for. -/
  inFlight : ∀ a, t.inFlight = some a → ∃ frame below i, t.frames = frame :: below ∧
    frame.position = .instruction i ∧ i = a.context.instruction ∧ i.handler = a.context.name

/-- The script in flight is that of the instruction under the cursor. -/
def Points (t : ThreadState) : Prop :=
  ∀ a, t.inFlight = some a → PointsAt t.frames a.context.instruction

theorem wellFramed_of_proper (h : Frame.Proper t.frames) (hpoints : t.Points) : t.WellFramed where
  nonempty := h.ne_nil
  within := by
    intro frame hframe
    have hin := h.within frame hframe
    exact ⟨hin.ne_nil, hin⟩
  bottom := by
    intro above frame hframes
    exact h.stepsCaller_last hframes
  callers := by
    intro above frame caller below hframes hsteps
    exact h.caller hframes hsteps
  inFlight := by
    intro a ha
    obtain ⟨frame, below, hframes, hpos⟩ := hpoints a ha
    exact ⟨frame, below, _, hframes, hpos, rfl, rfl⟩

/-- A sound thread that is not at its end points at the instruction in flight. -/
theorem Sound.points (hs : t.Sound) (hphase : t.phase = .running) (hspent : ¬ t.Spent) :
    t.Points := by
  intro a ha
  rcases hs.placed hphase a ha with hpoints | hnil
  · exact hpoints
  · refine absurd ⟨hphase, ?_, hnil⟩ hspent
    simp [ha]

theorem frames_run (hphase : t.phase = .running) : t.run.2.frames = (Frame.seek t.frames).2 := by
  unfold run
  rw [isRunning_iff.2 hphase]
  simp only [Bool.not_true, Bool.false_eq_true, if_false]
  split
  next hseek => rw [hseek]
  next hseek => rw [hseek]
  next hseek =>
    rw [hseek]
    split <;> rfl

/-- What a move hands to the cursor machine is in order. -/
theorem Prepares.proper {move : Move} (h : t.Prepares move p) (hproper : Frame.Proper t.frames)
    (hpoints : t.Points) : Frame.Proper p.frames := by
  cases h with
  | resumed hphase hstarted hfree => exact hproper
  | @executed caller program entry start hphase hcaller hentry =>
    -- the new frame is entered at a sentence of its own, and steps only an instruction in flight
    have hin : Frame.Within program [start] := .last (Sequence.entry_le hentry)
    rcases hframes : t.frames with _ | ⟨top, below⟩
    · exact absurd hframes hproper.ne_nil
    · rw [hframes] at hproper
      refine .above hin ?_ hproper
      intro hsteps
      obtain ⟨a, ha⟩ := Option.isSome_iff_exists.1 hsteps
      obtain ⟨frame, rest, htop, hpos⟩ := hpoints a ha
      rw [hframes] at htop
      cases htop
      exact ⟨_, hpos⟩
  | completed hcurrent =>
    -- the cursor is at the instruction that is done, so it can step past it
    obtain ⟨a, ha⟩ := isSome_of_isCurrent hcurrent
    obtain ⟨frame, below, hframes, hpos⟩ := hpoints a ha
    rw [hframes] at hproper
    simp only [hframes, advanceTop]
    exact hproper.replace_top (hproper.top.advance (by simp [hpos])) rfl

theorem Prepares.proper_run {move : Move} (h : t.Prepares move p)
    (hproper : Frame.Proper t.frames) (hpoints : t.Points) : Frame.Proper p.run.2.frames := by
  rw [frames_run h.phase.2]
  exact (h.proper hproper hpoints).seek

theorem proper_create {id : ThreadId} {scripts : Registry} {services : ServiceSet}
    {program : Sequence} {vars : Members} {entry : Option String}
    (h : create id scripts services program vars entry = .ok t) : Frame.Proper t.frames := by
  obtain ⟨start, -, hentry, rfl⟩ := create_eq_ok h
  have hin : Frame.Within program [start] := .last (Sequence.entry_le hentry)
  exact .bottom hin rfl

end ThreadState

namespace Machine

variable {σ : Type} {plugins : Plugins σ} {m m' : Machine σ} {event : Event σ} {id : ThreadId}
  {t t' : ThreadState}

/-! ## Runs -/

/-- A script, a hook or an outside caller can act: their code comes next, or no work is left. -/
def CanAct (m : Machine σ) : Prop := ∀ work ∈ m.stack.head?, work.isCode = true

/-- Nobody can act between the end of a program and the destruction of its thread. -/
theorem CanAct.not_ending (h : m.CanAct) : ¬ Ending id m := by
  rintro ⟨rest, hstack | hstack⟩
  · have hcode := h (.arrive id .exhausted) (by simp [hstack])
    cases hcode
  · have hcode := h (.destroy id) (by simp [hstack])
    cases hcode

/-- A thread that makes a move with its cursor is not at the end of its program. -/
theorem Affects.not_spent {move : Move} (h : Affects id m event m' t move t')
    (hstep : Step plugins m event m') (hending : t.Spent → Ending id m)
    {p : ThreadState} (hprep : t.Prepares move p) : ¬ t.Spent := by
  intro hspent
  cases h with
  | resumed _ _ hbefore =>
    obtain ⟨rest, hstack | hstack⟩ := hending hspent <;> cases hbefore.symm.trans hstack
  | executed _ _ hasks =>
    -- nobody asks for anything while the end of a thread is on top
    cases (hstep.asks_of_ending (hending hspent)).symm.trans hasks
  | completed _ _ _ hbefore =>
    obtain ⟨rest, hstack | hstack⟩ := hending hspent <;> cases hbefore.symm.trans hstack
  | _ => cases hprep

/-- Every move leaves the stack of a running thread in order. -/
theorem Affects.proper {move : Move} (h : Affects id m event m' t move t')
    (hstep : Step plugins m event m') (hm : Invariant m) (ht : m.engine.thread? id = some t)
    (hproper : t.phase = .running → Frame.Proper t.frames) (hphase : t'.phase = .running) :
    Frame.Proper t'.frames := by
  have moved : ∀ {p : ThreadState}, t.Prepares move p → p.run.2.Agrees t' →
      Frame.Proper t'.frames := by
    intro p hprep hagree
    have hrunning := hprep.phase.1
    have hspent := h.not_spent hstep (hm.ending ht) hprep
    have hpoints := (hm.sound ht).points hrunning hspent
    rw [← hagree.frames]
    exact hprep.proper_run (hproper hrunning) hpoints
  cases h with
  | still hagree =>
    rw [← hagree.frames]
    exact hproper (hagree.phase.trans hphase)
  | assigned hagree =>
    have hsame := hagree.of_setVar
    rw [← hsame.frames]
    exact hproper (hsame.phase.trans hphase)
  | resumed hprep hagree => exact moved hprep hagree
  | executed hprep hagree => exact moved hprep hagree
  | completed hid hprep hagree => exact moved hprep hagree
  | failed hid hcurrent hagree =>
    rw [← hagree.frames]
    exact hproper (hagree.phase.trans hphase)
  | destroying _ hagree => cases hagree.phase.trans hphase
  | cleared hagree => cases hagree.phase.trans hphase

theorem Run.proper {host : σ} {config : CoreConfig} {stages : List (Stage σ)}
    (h : Run plugins (opened host config) stages m) (ht : m.engine.thread? id = some t)
    (hphase : t.phase = .running) : Frame.Proper t.frames := by
  induction h generalizing t with
  | start => simp [opened, Engine.new, Engine.thread?] at ht
  | step hrun hstep ih =>
    have hm := hrun.invariant
    obtain ⟨s, hs, haffects⟩ | ⟨-, overrides, program, services, hcreates⟩ :=
      hstep.thread_cases hm.numbered ht
    · exact haffects.proper hstep hm hs (fun hrunning => ih hs hrunning) hphase
    · exact ThreadState.proper_create hcreates.create

/-- Wherever a script, a hook or an outside caller can act, the stack of every running thread is in
order. From there, and from whatever an operation makes of it, the loop of the cursor machine comes
to an end without meeting an empty stack or an empty cursor. -/
theorem Run.well_framed {host : σ} {config : CoreConfig} {stages : List (Stage σ)}
    (h : Run plugins (opened host config) stages m) (hact : m.CanAct)
    (ht : m.engine.thread? id = some t) (hphase : t.phase = .running) :
    t.WellFramed ∧ Frame.Halts t.frames ∧
      ∀ move p, t.Prepares move p → Frame.Halts p.frames := by
  have hm := h.invariant
  have hproper := h.proper ht hphase
  have hpoints : t.Points := by
    apply (hm.sound ht).points hphase
    intro hspent
    exact hact.not_ending (hm.ending ht hspent)
  refine ⟨ThreadState.wellFramed_of_proper hproper hpoints, hproper.halts, ?_⟩
  intro move p hprep
  exact (hprep.proper hproper hpoints).halts

/-- The new frame is on top, with its cursor inside the nested sequence, and steps the frame below
when it ends. -/
theorem Run.well_framed_nested :
    ∃ stages t, Run idlePlugins (opened () sampleConfig) stages nestedSample ∧
      nestedSample.CanAct ∧ nestedSample.engine.thread? 0 = some t ∧ t.phase = .running ∧
      t.frames.map (fun frame => (frame.cursor, frame.stepsCaller)) =
        [([0, 1], true), ([0], false)] ∧
      t.WellFramed ∧ Frame.Halts t.frames := by
  have hact : nestedSample.CanAct := by
    intro work hwork
    cases hwork
  obtain ⟨stages, hrun⟩ := exists_run_nestedSample
  have ht : nestedSample.engine.thread? 0 = some _ := rfl
  obtain ⟨hframed, hhalts, -⟩ := Run.well_framed hrun hact ht rfl
  exact ⟨_, _, hrun, hact, ht, rfl, rfl, hframed, hhalts⟩

end Machine
end SentenceEngine
