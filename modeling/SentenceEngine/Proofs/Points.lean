import SentenceEngine.Proofs.Fitting
import SentenceEngine.Proofs.Isolation

/-!
# The points of a thread

Between two steps a thread whose program consists of built-in scripts stands at one of a few points:
its first run is to come, a script is on its way from its dispatch to its end, or the thread is
being destroyed. The point determines what of the thread is on the stack and in the queue, how many
steps are left at most, and how the interpreter goes on from there. Each item of its work and each
of its tasks takes it from one point to another that is closer to its end.

* `Acts`: the code that a built-in script has still to run.
* `Stand`: the points at which a thread can stand.
* `Proceeds`: how a thread comes from one point to another.
-/

namespace SentenceEngine

variable {σ : Type}

namespace Scripts

/-- What `log` writes for a thread. -/
def entry (id : ThreadId) (message : String) : LogEntry :=
  .note id "log" (.array [.string "log", .string message])

end Scripts

/-! ## The code of a script -/

/-- The code that a script has still to run, with a bound on its steps. With it and the instructions
after it the thread comes from one world to another. -/
inductive Acts (context : Context) (rest : List Instruction) (before after : World) :
    Behaviour σ Wait Outcome → Nat → Prop
  | log {message : String} (hleads : effects rest (before.say message) = after) :
      Acts context rest before after
        (.log (Scripts.entry context.thread message) .succeed) 3
  | assign {entries : Members} (hleads : effects rest (before.assign entries) = after) :
      Acts context rest before after (Scripts.assign context.thread entries) (entries.length + 2)
  | choose {i : Instruction} {next : Members → Behaviour σ Wait Outcome} (hfits : i.Fits)
      (hname : i.handler = "if") (hleads : effects rest (i.effect before) = after)
      (hnext : ∀ vars, next vars = match i.branch? vars with
        | some program => .handOver context program.asSequence none
        | none => .succeed) :
      Acts context rest before after (.ask (.vars context.thread) next) (9 * i.weight - 3)
  | handOver {program : Sequence} (hfits : ∀ j ∈ Sequence.instructions program, j.Fits)
      (hleads : effects (Sequence.instructions program ++ rest) before = after) :
      Acts context rest before after (.handOver context program none)
        (effort (Sequence.instructions program) + 5)

/-- The code of a script that has nothing left to do. -/
theorem acts_succeed {context : Context} {rest : List Instruction} {before after : World}
    (hleads : effects rest before = after) :
    Acts (σ := σ) context rest before after .succeed 2 := by
  have hacts : Acts (σ := σ) context rest before after (Scripts.assign context.thread []) 2 :=
    .assign hleads
  exact hacts

/-- The code of a built-in script does what the interpreter does. -/
theorem acts_execute {context : Context} {rest : List Instruction} {before after : World}
    (hfits : context.instruction.Fits)
    (hleads : effects (context.instruction :: rest) before = after) :
    ∃ steps, steps + 3 ≤ 9 * context.instruction.weight ∧ Acts (σ := σ) context rest before after
      ((Scripts.code context.instruction.handler).execute context) steps := by
  have hpos := context.instruction.weight_pos
  have hleads' : effects rest (context.instruction.effect before) = after := hleads
  have hcases : context.instruction.handler = "log" ∨ context.instruction.handler = "set" ∨
      context.instruction.handler = "if" := by
    cases hfits with
    | log hname => exact .inl hname
    | set hname => exact .inr (.inl hname)
    | choose hname => exact .inr (.inr hname)
  rcases hcases with hname | hname | hname
  · -- `log`: one entry, and the end
    refine ⟨3, by omega, ?_⟩
    rw [Instruction.effect_log hname] at hleads'
    have hcode : (Scripts.code context.instruction.handler : Script σ).execute context =
        .log (Scripts.entry context.thread context.instruction.message) .succeed := by
      simp [Scripts.code, hname, Scripts.log, Scripts.reading, hfits.payload_log hname,
        Scripts.entry, Context.name]
    rw [hcode]
    exact .log hleads'
  · -- `set`: one request for each entry, and the end
    refine ⟨context.instruction.entries.length + 2, ?_, ?_⟩
    · have hlt := context.instruction.length_entries_lt
      omega
    · rw [Instruction.effect_set hname] at hleads'
      have hcode : (Scripts.code context.instruction.handler : Script σ).execute context =
          Scripts.assign context.thread context.instruction.entries := by
        simp [Scripts.code, hname, Scripts.set, Scripts.reading, hfits.payload_set hname]
      rw [hcode]
      exact .assign hleads'
  · -- `if`: the branch is chosen on the variables at that time
    refine ⟨9 * context.instruction.weight - 3, by omega, ?_⟩
    obtain ⟨payload, hpayload, hbranch⟩ := hfits.payload_if hname
    simp only [Scripts.code, hname, Scripts.choose, Scripts.reading, hpayload, String.reduceEq,
      if_false, if_true]
    refine .choose hfits hname hleads' ?_
    intro vars
    obtain ⟨holds, hholds, hsame⟩ := hbranch vars
    have hanswer : (Condition.evaluate (fun name => (Dictionary.find? vars name).getD .null)
        payload.condition).result = .ok holds := hholds
    rw [hanswer]
    dsimp only
    rewrite [hsame]
    rfl

/-! ## Points of a thread -/

/-- What is left of a script that handed control over, once what it handed over has been
dispatched. It has no say any more. -/
inductive Leftover (id : ThreadId) (current : Nat → Bool) : List (Work σ) → Nat → Prop
  | nothing : Leftover id current [] 0
  | script {context : Context} (hthread : context.thread = id)
      (hstale : current context.ticket = false) : Leftover id current [.script context .succeed] 2
  | complete {context : Context} (hthread : context.thread = id)
      (hstale : current context.ticket = false) : Leftover id current [.complete context] 1

/-- A script that is told to stop, and has no abort hook. -/
inductive Stopping (plugins : Plugins σ) (id : ThreadId) : List (Work σ) → Nat → Prop
  | nothing : Stopping plugins id [] 0
  | abort {a : Instance} (hthread : a.context.thread = id)
      (habort : (plugins.script a.script).abort a.context = .pure ()) :
      Stopping plugins id [.abort a] 2
  | hook {context : Context} (hthread : context.thread = id) :
      Stopping plugins id [.abortHook context (.pure ())] 1

/-- The services are being told that a thread will be destroyed. -/
inductive Telling (id : ThreadId) : List (Work σ) → Prop
  | notify (services : ServiceSet) : Telling id [.notify services (.willDestroy id)]
  | hook (code : Behaviour σ Empty Outcome) (services : ServiceSet) :
      Telling id [.hook (.willDestroy id) code, .notify services (.willDestroy id)]

/-- A thread runs, and what it has still to come to leads to a world. -/
structure Goes (t : ThreadState) (said : List String) (after : World)
    (toCome : List Instruction) : Prop where
  phase : t.phase = .running
  fits : ∀ i ∈ toCome, i.Fits
  leads : effects toCome ⟨t.vars, said⟩ = after

/-- A script of a thread is in flight. -/
structure Flies (t : ThreadState) (a : Instance) (rest : List Instruction) : Prop where
  flight : t.inFlight = some a
  toCome : t.toCome = a.context.instruction :: rest
  script : a.script = a.context.instruction.handler

/-- The points at which a thread can stand, with what of it is on the stack and in the queue and a
bound on the steps that it has still to take. `said` are the messages that it has logged, `after`
is the world that it comes to, and `told` says that the services were told of its end. -/
inductive Stand (plugins : Plugins σ) (id : ThreadId) (after : World) (t : ThreadState)
    (said : List String) (told : Prop) : List (Work σ) → List (Task σ) → Nat → Prop
  /-- The thread was created. -/
  | created {steps : Nat} (hgoes : Goes t said after t.toCome) (hstarted : t.started = false)
      (hfree : t.inFlight = none) (hsteps : effort t.toCome + 8 ≤ steps) :
      Stand plugins id after t said told [.start id] [] steps
  /-- Its first run waits in the queue. -/
  | queued {steps : Nat} (hgoes : Goes t said after t.toCome) (hstarted : t.started = false)
      (hfree : t.inFlight = none) (hsteps : effort t.toCome + 7 ≤ steps) :
      Stand plugins id after t said told [] [.start id] steps
  /-- The cursor machine came to an instruction. -/
  | arriving {steps j k : Nat} {stopping leftover : List (Work σ)} {a : Instance}
      {rest : List Instruction} (hstopping : Stopping plugins id stopping j)
      (hleftover : Leftover id t.isCurrent leftover k) (hflies : Flies t a rest)
      (hgoes : Goes t said after (a.context.instruction :: rest))
      (hsteps : effort (a.context.instruction :: rest) + 6 + j + k ≤ steps) :
      Stand plugins id after t said told (stopping ++ .arrive id (.dispatch a) :: leftover) [] steps
  /-- Its script is about to become a task. -/
  | spawning {steps k : Nat} {leftover : List (Work σ)} {a : Instance} {rest : List Instruction}
      (hleftover : Leftover id t.isCurrent leftover k) (hflies : Flies t a rest)
      (hgoes : Goes t said after (a.context.instruction :: rest))
      (hsteps : effort (a.context.instruction :: rest) + 5 + k ≤ steps) :
      Stand plugins id after t said told (.spawn a :: leftover) [] steps
  /-- Its script waits in the queue. -/
  | waiting {steps k : Nat} {leftover : List (Work σ)} {a : Instance} {rest : List Instruction}
      (hleftover : Leftover id t.isCurrent leftover k) (hflies : Flies t a rest)
      (hgoes : Goes t said after (a.context.instruction :: rest))
      (hsteps : effort (a.context.instruction :: rest) + 4 + k ≤ steps) :
      Stand plugins id after t said told leftover [.begin a] steps
  /-- Its script runs. -/
  | acting {steps more : Nat} {a : Instance} {rest : List Instruction}
      {code : Behaviour σ Wait Outcome} (hflies : Flies t a rest) (hphase : t.phase = .running)
      (hfits : ∀ i ∈ a.context.instruction :: rest, i.Fits)
      (hacts : Acts a.context rest ⟨t.vars, said⟩ after code more)
      (hsteps : more + effort rest + 6 ≤ steps) :
      Stand plugins id after t said told [.script a.context code] [] steps
  /-- Its script ended well. -/
  | completing {steps : Nat} {a : Instance} {rest : List Instruction} (hflies : Flies t a rest)
      (hgoes : Goes t said after rest) (hsteps : effort rest + 7 ≤ steps) :
      Stand plugins id after t said told [.complete a.context] [] steps
  /-- The cursor machine came to the end of the program. -/
  | exhausted {steps k : Nat} {leftover : List (Work σ)}
      (hleftover : Leftover id (fun _ => false) leftover k) (hgoes : Goes t said after [])
      (hsteps : 6 + k ≤ steps) :
      Stand plugins id after t said told (.arrive id .exhausted :: leftover) [] steps
  /-- The thread is about to be destroyed. -/
  | ending {steps k : Nat} {leftover : List (Work σ)}
      (hleftover : Leftover id (fun _ => false) leftover k) (hgoes : Goes t said after [])
      (hsteps : 5 + k ≤ steps) :
      Stand plugins id after t said told (.destroy id :: leftover) [] steps
  /-- The services are being told. -/
  | telling {steps k : Nat} {telling leftover : List (Work σ)} (htelling : Telling id telling)
      (hleftover : Leftover id (fun _ => false) leftover k) (hphase : t.phase = .destroying)
      (hworld : (⟨t.vars, said⟩ : World) = after) (hsteps : 4 + k ≤ steps) :
      Stand plugins id after t said told (telling ++ .clear id :: leftover) [] steps
  /-- The services were told. -/
  | clearing {steps k : Nat} {leftover : List (Work σ)}
      (hleftover : Leftover id (fun _ => false) leftover k) (hphase : t.phase = .destroying)
      (hworld : (⟨t.vars, said⟩ : World) = after) (htold : told) (hsteps : 4 + k ≤ steps) :
      Stand plugins id after t said told (.clear id :: leftover) [] steps
  /-- Everything was taken from the thread. -/
  | releasing {steps j k : Nat} {stopping leftover : List (Work σ)}
      (hstopping : Stopping plugins id stopping j)
      (hleftover : Leftover id (fun _ => false) leftover k) (hphase : t.phase = .destroyed)
      (hsaid : said = after.messages) (htold : told) (hsteps : 1 + j + k ≤ steps) :
      Stand plugins id after t said told (stopping ++ .release id :: leftover) [] steps
  /-- The thread has ended. -/
  | ended {steps k : Nat} {leftover : List (Work σ)}
      (hleftover : Leftover id (fun _ => false) leftover k) (hphase : t.phase = .destroyed)
      (hended : t.ended = true) (hsaid : said = after.messages) (htold : told)
      (hsteps : k ≤ steps) : Stand plugins id after t said told leftover [] steps

theorem Leftover.tells {id : ThreadId} {current : Nat → Bool} {leftover : List (Work σ)} {k : Nat}
    (h : Leftover id current leftover k) {work : Work σ} (hwork : work ∈ leftover) :
    work.tells? = none := by
  cases h with
  | nothing => cases hwork
  | script =>
    rw [List.mem_singleton.1 hwork]
    rfl
  | complete =>
    rw [List.mem_singleton.1 hwork]
    rfl

theorem Stopping.tells {plugins : Plugins σ} {id : ThreadId} {stopping : List (Work σ)} {j : Nat}
    (h : Stopping plugins id stopping j) {work : Work σ} (hwork : work ∈ stopping) :
    work.tells? = none := by
  cases h with
  | nothing => cases hwork
  | abort =>
    rw [List.mem_singleton.1 hwork]
    rfl
  | hook =>
    rw [List.mem_singleton.1 hwork]
    rfl

theorem Telling.tells {id : ThreadId} {telling : List (Work σ)} (h : Telling id telling)
    {work : Work σ} (hwork : work ∈ telling) : work.tells? = some (.willDestroy id) := by
  cases h with
  | notify =>
    rw [List.mem_singleton.1 hwork]
    rfl
  | hook =>
    simp only [List.mem_cons, List.not_mem_nil, or_false] at hwork
    rcases hwork with rfl | rfl <;> rfl

namespace Stand

variable {plugins : Plugins σ} {id : ThreadId} {after : World} {t : ThreadState}
  {said : List String} {told told' : Prop} {own : List (Work σ)} {tasks : List (Task σ)}
  {steps : Nat}

theorem of_told (h : Stand plugins id after t said told own tasks steps) (htold : told → told') :
    Stand plugins id after t said told' own tasks steps := by
  cases h with
  | created hgoes hstarted hfree hsteps => exact .created hgoes hstarted hfree hsteps
  | queued hgoes hstarted hfree hsteps => exact .queued hgoes hstarted hfree hsteps
  | arriving hstopping hleftover hflies hgoes hsteps =>
    exact .arriving hstopping hleftover hflies hgoes hsteps
  | spawning hleftover hflies hgoes hsteps => exact .spawning hleftover hflies hgoes hsteps
  | waiting hleftover hflies hgoes hsteps => exact .waiting hleftover hflies hgoes hsteps
  | acting hflies hphase hfits hacts hsteps => exact .acting hflies hphase hfits hacts hsteps
  | completing hflies hgoes hsteps => exact .completing hflies hgoes hsteps
  | exhausted hleftover hgoes hsteps => exact .exhausted hleftover hgoes hsteps
  | ending hleftover hgoes hsteps => exact .ending hleftover hgoes hsteps
  | telling htelling hleftover hphase hworld hsteps =>
    exact .telling htelling hleftover hphase hworld hsteps
  | clearing hleftover hphase hworld h hsteps =>
    exact .clearing hleftover hphase hworld (htold h) hsteps
  | releasing hstopping hleftover hphase hsaid h hsteps =>
    exact .releasing hstopping hleftover hphase hsaid (htold h) hsteps
  | ended hleftover hphase hended hsaid h hsteps =>
    exact .ended hleftover hphase hended hsaid (htold h) hsteps

/-- Until a thread has ended, something of it is due. -/
theorem due (h : Stand plugins id after t said told own tasks steps) (hended : t.ended = false) :
    own ≠ [] ∨ tasks ≠ [] := by
  cases h with
  | queued => exact .inr (List.cons_ne_nil _ _)
  | waiting => exact .inr (List.cons_ne_nil _ _)
  | ended _ _ hlast =>
    -- the only point without anything due is the end itself
    rw [hlast] at hended
    cases hended
  | _ => exact .inl (by simp)

/-- A thread of which nothing is left has come to where the interpreter comes to, and the services
were told. -/
theorem destroyed (h : Stand plugins id after t said told own tasks steps)
    (hphase : t.phase = .destroyed) : said = after.messages ∧ told := by
  have running : t.phase ≠ .running := by simp [hphase]
  have destroying : t.phase ≠ .destroying := by simp [hphase]
  cases h with
  | created hgoes => exact absurd hgoes.phase running
  | queued hgoes => exact absurd hgoes.phase running
  | arriving _ _ _ hgoes => exact absurd hgoes.phase running
  | spawning _ _ hgoes => exact absurd hgoes.phase running
  | waiting _ _ hgoes => exact absurd hgoes.phase running
  | acting _ hrunning => exact absurd hrunning running
  | completing _ hgoes => exact absurd hgoes.phase running
  | exhausted _ hgoes => exact absurd hgoes.phase running
  | ending _ hgoes => exact absurd hgoes.phase running
  | telling _ _ hdestroying => exact absurd hdestroying destroying
  | clearing _ hdestroying => exact absurd hdestroying destroying
  | releasing _ _ _ hsaid htold => exact ⟨hsaid, htold⟩
  | ended _ _ _ hsaid htold => exact ⟨hsaid, htold⟩

/-- Nothing of a thread tells of anything, except while the services are told of its end. By then
the thread has come to where the interpreter comes to. -/
theorem tells (h : Stand plugins id after t said told own tasks steps) {work : Work σ}
    (hwork : work ∈ own) : work.tells? = none ∨
      work.tells? = some (.willDestroy id) ∧ (⟨t.vars, said⟩ : World) = after := by
  cases h with
  | created =>
    rw [List.mem_singleton.1 hwork]
    exact .inl rfl
  | queued => cases hwork
  | arriving hstopping hleftover =>
    rcases List.mem_append.1 hwork with hwork | hwork
    · exact .inl (hstopping.tells hwork)
    · rcases List.mem_cons.1 hwork with rfl | hwork
      · exact .inl rfl
      · exact .inl (hleftover.tells hwork)
  | spawning hleftover =>
    rcases List.mem_cons.1 hwork with rfl | hwork
    · exact .inl rfl
    · exact .inl (hleftover.tells hwork)
  | waiting hleftover => exact .inl (hleftover.tells hwork)
  | acting =>
    rw [List.mem_singleton.1 hwork]
    exact .inl rfl
  | completing =>
    rw [List.mem_singleton.1 hwork]
    exact .inl rfl
  | exhausted hleftover =>
    rcases List.mem_cons.1 hwork with rfl | hwork
    · exact .inl rfl
    · exact .inl (hleftover.tells hwork)
  | ending hleftover =>
    rcases List.mem_cons.1 hwork with rfl | hwork
    · exact .inl rfl
    · exact .inl (hleftover.tells hwork)
  | telling htelling hleftover _ hworld =>
    rcases List.mem_append.1 hwork with hwork | hwork
    · exact .inr ⟨htelling.tells hwork, hworld⟩
    · rcases List.mem_cons.1 hwork with rfl | hwork
      · exact .inl rfl
      · exact .inl (hleftover.tells hwork)
  | clearing hleftover =>
    rcases List.mem_cons.1 hwork with rfl | hwork
    · exact .inl rfl
    · exact .inl (hleftover.tells hwork)
  | releasing hstopping hleftover =>
    rcases List.mem_append.1 hwork with hwork | hwork
    · exact .inl (hstopping.tells hwork)
    · rcases List.mem_cons.1 hwork with rfl | hwork
      · exact .inl rfl
      · exact .inl (hleftover.tells hwork)
  | ended hleftover => exact .inl (hleftover.tells hwork)

end Stand

/-! ## The engine around a thread -/

namespace Engine

variable {e e' : Engine σ} {id : ThreadId} {t t' : ThreadState} {tasks : List (Task σ)}

/-- What an engine holds of a thread. -/
structure Holds (e : Engine σ) (id : ThreadId) (t : ThreadState) (tasks : List (Task σ)) :
    Prop where
  thread : e.thread? id = some t
  number : t.id = id
  awake : e.Awake id
  tasks : e.tasksOf id = tasks

theorem Holds.apart (h : e.Holds id t tasks) (hapart : e.Apart id e') : e'.Holds id t tasks where
  thread := hapart.thread.trans h.thread
  number := h.number
  awake := hapart.awake h.awake
  tasks := (hapart.tasks h.awake).trans h.tasks

theorem Holds.set (h : e.Holds id t tasks) (hid : t'.id = id) :
    (e.setThread t').Holds id t' tasks where
  thread := by
    subst hid
    exact thread?_setThread_self h.thread
  number := hid
  awake := h.awake
  tasks := h.tasks

theorem Holds.modify (h : e.Holds id t tasks) {f : ThreadState → ThreadState}
    (hf : (f t).id = t.id) : (e.modifyThread id f).Holds id (f t) tasks := by
  rw [modifyThread_eq h.thread]
  exact h.set (hf.trans h.number)

theorem Holds.enqueue (h : e.Holds id t tasks) {task : Task σ} (howner : task.owner = id) :
    (e.enqueue task).Holds id t (tasks ++ [task]) where
  thread := h.thread
  number := h.number
  awake := h.awake
  tasks := by
    rw [← h.tasks]
    simp [tasksOf, Engine.enqueue, List.filter_append, howner]

theorem Holds.cancel (h : e.Holds id t tasks) {context : Context} (hthread : context.thread = id) :
    (e.cancel context).Holds id { t with cancelled := context.ticket :: t.cancelled } tasks := by
  subst hthread
  have hmarked : (e.modifyThread context.thread fun t =>
      { t with cancelled := context.ticket :: t.cancelled }).Holds context.thread
        { t with cancelled := context.ticket :: t.cancelled } tasks := h.modify rfl
  exact hmarked.apart (apart_wakeCancelled fun c =>
    c.thread == context.thread && c.ticket == context.ticket)

theorem Holds.release (h : e.Holds id t tasks) :
    (e.release id).Holds id { t with ended := true } tasks := by
  have hended : (e.modifyThread id fun t => { t with ended := true }).Holds id
      { t with ended := true } tasks := h.modify rfl
  have hwoken := hended.apart (apart_wakeCancelled fun c => c.thread == id)
  exact ⟨hwoken.thread, hwoken.number, hwoken.awake, hwoken.tasks⟩

/-- A task that is taken up was all that the thread had in the queue. -/
theorem Holds.take {x task : Task σ} {before rest : List (Task σ)} (h : e.Holds id t [x])
    (hqueue : e.queue = before ++ task :: rest) (howner : task.owner = id) :
    task = x ∧ Holds { e with queue := before ++ rest } id t [] := by
  have htasks : e.queue.filter (·.owner == id) = [x] := h.tasks
  have hself : (task :: rest).filter (·.owner == id) = task :: rest.filter (·.owner == id) :=
    List.filter_cons_of_pos (beq_iff_eq.2 howner)
  rw [hqueue, List.filter_append, hself] at htasks
  obtain ⟨hbefore, hlast⟩ | ⟨-, hlast⟩ := List.append_eq_singleton_iff.1 htasks
  · obtain ⟨rfl, hrest⟩ := List.cons_eq_cons.1 hlast
    refine ⟨rfl, h.thread, h.number, h.awake, ?_⟩
    show (before ++ rest).filter (·.owner == id) = []
    rw [List.filter_append, hbefore, hrest, List.append_nil]
  · cases hlast

/-- A thread without tasks has none to be taken up. -/
theorem Holds.not_take {task : Task σ} {before rest : List (Task σ)} (h : e.Holds id t [])
    (hqueue : e.queue = before ++ task :: rest) : task.owner ≠ id := by
  intro howner
  have hmem : task ∈ e.queue := by simp [hqueue]
  exact List.filter_eq_nil_iff.1 h.tasks task hmem (beq_iff_eq.2 howner)

/-- A first run that is given up leaves nothing behind. -/
theorem Holds.dropStart (h : e.Holds id t []) :
    ∃ t', t.Agrees t' ∧ (e.dropStart id).Holds id t' [] := by
  unfold Engine.dropStart
  split
  · let dropped : Engine σ := { e with queue := e.queue.filter fun task => !task.isStartOf id }
    have hdropped : dropped.Holds id t [] := by
      refine ⟨h.thread, h.number, h.awake, ?_⟩
      have hnone := List.filter_eq_nil_iff.1 h.tasks
      show dropped.queue.filter _ = []
      rw [List.filter_eq_nil_iff]
      intro task htask
      exact hnone task (List.mem_filter.1 htask).1
    refine ⟨{ t with startPending := false }, ?_, hdropped.modify rfl⟩
    exact t.agrees_marks _ _ _ _
  · exact ⟨t, .refl t, h⟩

end Engine

/-! ## Steps of a thread -/

namespace Plugins

/-- The code behind the built-in scripts is there. -/
def HasBuiltins (plugins : Plugins σ) : Prop :=
  ∀ name factory, (name, factory) ∈ Scripts.builtin →
    plugins.script factory.script = Scripts.code factory.script

theorem HasBuiltins.script {plugins : Plugins σ} (h : plugins.HasBuiltins) {i : Instruction}
    (hfits : i.Fits) : plugins.script i.handler = Scripts.code i.handler := by
  obtain ⟨fields, hmem⟩ := hfits.mem_builtin
  exact h i.handler _ hmem

end Plugins

/-- No built-in script has an abort hook. -/
theorem Scripts.abort_code (script : ScriptId) (context : Context) :
    (Scripts.code script : Script σ).abort context = .pure () := by
  unfold Scripts.code
  split
  · rfl
  · split
    · rfl
    · split <;> rfl

theorem Plugins.abort_eq {plugins : Plugins σ} {script : ScriptId}
    (h : plugins.script script = Scripts.code script) (context : Context) :
    (plugins.script script).abort context = .pure () := by
  rw [h]
  exact Scripts.abort_code script context

/-! ### Agreement -/

theorem Goes.of_same {t t' : ThreadState} {said : List String} {after : World}
    {toCome : List Instruction} (h : Goes t said after toCome) (hphase : t.phase = t'.phase)
    (hvars : t.vars = t'.vars) : Goes t' said after toCome where
  phase := hphase.symm.trans h.phase
  fits := h.fits
  leads := by
    rw [← hvars]
    exact h.leads

theorem Goes.agrees {t t' : ThreadState} {said : List String} {after : World}
    {toCome : List Instruction} (h : Goes t said after toCome) (hagree : t.Agrees t') :
    Goes t' said after toCome :=
  h.of_same hagree.phase hagree.vars

theorem Flies.agrees {t t' : ThreadState} {a : Instance} {rest : List Instruction}
    (h : Flies t a rest) (hagree : t.Agrees t') : Flies t' a rest where
  flight := hagree.inFlight.symm.trans h.flight
  toCome := by
    rw [ThreadState.toCome, ← hagree.frames]
    exact h.toCome
  script := h.script

theorem Leftover.of_imp {id : ThreadId} {current current' : Nat → Bool} {own : List (Work σ)}
    {k : Nat} (h : Leftover id current own k)
    (himp : ∀ ticket, current ticket = false → current' ticket = false) :
    Leftover id current' own k := by
  cases h with
  | nothing => exact .nothing
  | script hthread hstale => exact .script hthread (himp _ hstale)
  | complete hthread hstale => exact .complete hthread (himp _ hstale)

theorem Leftover.agrees {id : ThreadId} {t t' : ThreadState} {own : List (Work σ)} {k : Nat}
    (h : Leftover id t.isCurrent own k) (hagree : t.Agrees t') :
    Leftover id t'.isCurrent own k := by
  refine h.of_imp ?_
  intro ticket hstale
  rwa [← hagree.isCurrent]

/-- A thread that stands at a point, in an engine that holds it. -/
structure Stands (plugins : Plugins σ) (id : ThreadId) (after : World) (e : Engine σ)
    (t : ThreadState) (said : List String) (told : Prop) (own : List (Work σ))
    (tasks : List (Task σ)) (steps : Nat) : Prop where
  holds : e.Holds id t tasks
  scripts : t.scripts.HoldsBuiltins
  flight : ∀ a, t.inFlight = some a → plugins.script a.script = Scripts.code a.script
  stand : Stand plugins id after t said told own tasks steps

/-! ## Work of a thread -/

section Work

variable {plugins : Plugins σ} {id : ThreadId} {after : World} {t : ThreadState}
  {said : List String} {told : Prop} {e : Engine σ} {tasks : List (Task σ)} {work : Work σ}
  {own more : List (Work σ)} {j k : Nat}

theorem Stopping.agrees_perform (h : Stopping plugins id (work :: more) j)
    (hholds : e.Holds id t tasks) :
    more = [] ∧ ∃ j' t', j' < j ∧ t.Agrees t' ∧
      (Machine.perform plugins e work).2.Holds id t' tasks ∧
      Stopping plugins id ((Machine.perform plugins e work).1.filter (·.concerns id)) j' := by
  cases h with
  | @abort a hthread habort =>
    refine ⟨rfl, 1, { t with cancelled := a.context.ticket :: t.cancelled }, by omega, ?_, ?_, ?_⟩
    · exact t.agrees_marks _ _ _ _
    · exact hholds.cancel hthread
    · have hown : (Machine.perform plugins e (.abort a)).1.filter (·.concerns id) =
          [.abortHook a.context (.pure ())] := by
        simp [Machine.perform, habort, Work.concerns, Work.owner?, hthread]
      rw [hown]
      exact .hook hthread
  | hook hthread =>
    refine ⟨rfl, 0, t, by omega, .refl t, hholds, ?_⟩
    exact .nothing

/-- What is left of a script does nothing. -/
theorem Leftover.perform {current : Nat → Bool} (h : Leftover id current (work :: more) k)
    (hholds : e.Holds id t tasks)
    (hstale : ∀ ticket, current ticket = false → t.isCurrent ticket = false) :
    more = [] ∧ (Machine.perform plugins e work).2 = e ∧ ∃ k', k' < k ∧
      Leftover id current ((Machine.perform plugins e work).1.filter (·.concerns id)) k' := by
  cases h with
  | @script context hthread hcurrent =>
    have hperform : Machine.perform plugins e (.script context .succeed) =
        Machine.settle e context (.ok ()) := rfl
    refine ⟨rfl, ?_⟩
    rw [hperform]
    unfold Machine.settle
    dsimp only
    split
    · refine ⟨rfl, 1, by omega, ?_⟩
      have hown : ([.notify (e.servicesOf context.thread)
          (.after context.thread context.instruction), .complete context] :
            List (Work σ)).filter (·.concerns id) = [.complete context] :=
        Work.filter_told rfl (congrArg some hthread)
      rw [hown]
      exact .complete hthread hcurrent
    · exact ⟨rfl, 0, by omega, .nothing⟩
  | @complete context hthread hcurrent =>
    have hperform : Machine.perform plugins e (.complete context) = ([], e) := by
      subst hthread
      simp [Machine.perform, hholds.thread, hstale _ hcurrent]
    refine ⟨rfl, ?_⟩
    rw [hperform]
    exact ⟨rfl, 0, by omega, .nothing⟩

variable (told) in
/-- Where the cursor machine lands: at the next instruction, or at the end of the program. -/
theorem stand_of_ran {p t' : ThreadState} {r : Advance × ThreadState} {leftover : List (Work σ)}
    {steps : Nat} (hran : p.Ran r) (hagree : r.2.Agrees t') (hscripts : p.scripts.HoldsBuiltins)
    (hgoes : Goes p said after p.toCome)
    (hflight : ∀ b, p.inFlight = some b → b.context.thread = id ∧
      plugins.script b.script = Scripts.code b.script)
    (hplugins : plugins.HasBuiltins)
    (hleftover : Leftover id (fun ticket => decide (p.ticket < ticket)) leftover k)
    (hsteps : effort p.toCome + 6 + (if p.inFlight.isSome then 2 else 0) + k ≤ steps) :
    (∀ a, t'.inFlight = some a → plugins.script a.script = Scripts.code a.script) ∧
      Stand plugins id after t' said told (Engine.advanceWork id r.1 ++ leftover) [] steps := by
  cases hran with
  | exhausted hstack hbefore hafter =>
    -- a script that handed over an empty program stays in flight; nothing is left to come
    rw [hbefore] at hgoes
    constructor
    · intro a ha
      exact (hflight a (hagree.inFlight.trans ha)).2
    · have hgoes' : Goes t' said after [] := hgoes.of_same hagree.phase hagree.vars
      exact .exhausted (hleftover.of_imp fun _ _ => rfl) hgoes' (by omega)
  | @unknown _ i rest hstack hbefore hafter hpoints hfind =>
    -- only built-in scripts are called for, and they are registered
    rw [hbefore] at hgoes
    obtain ⟨entry, hentry⟩ := hscripts.exists_entry (hgoes.fits i List.mem_cons_self)
    rw [hfind] at hentry
    cases hentry
  | @dispatched frames i rest entry hstack hbefore hafter hpoints hfind =>
    rw [hbefore] at hgoes hsteps
    have hname : entry.script = i.handler := (hscripts.cases hfind).1
    have hi : i.Fits := hgoes.fits i List.mem_cons_self
    constructor
    · intro a ha
      have hlast := hagree.inFlight.trans ha
      cases hlast
      rw [hname]
      exact hplugins.script hi
    · -- the new ticket is larger than every one before, so what is left over is stale
      have hlanded : ∀ {stopping j}, Stopping plugins id stopping j →
          effort (i :: rest) + 6 + j + k ≤ steps →
          Stand plugins id after t' said told
            (stopping ++ .arrive id (.dispatch ⟨entry.script, ⟨p.id, p.ticket + 1, i⟩⟩) ::
              leftover) [] steps := by
        intro stopping j hstopping hsteps
        have hflies : Flies t' ⟨entry.script, ⟨p.id, p.ticket + 1, i⟩⟩ rest := by
          refine ⟨hagree.inFlight.symm, ?_, hname⟩
          rw [ThreadState.toCome, ← hagree.frames]
          exact hafter
        have hgoes' : Goes t' said after (i :: rest) := hgoes.of_same hagree.phase hagree.vars
        refine .arriving hstopping (hleftover.of_imp ?_) hflies hgoes' hsteps
        intro ticket hold
        have hle : ticket ≤ p.ticket := by simpa using hold
        have hne : ¬ p.ticket + 1 = ticket := by omega
        simp [ThreadState.isCurrent, hflies.flight, hne]
      rcases hb : p.inFlight with _ | b
      · rw [hb] at hsteps
        exact hlanded .nothing (by simpa using hsteps)
      · rw [hb] at hsteps
        obtain ⟨hthread, hcode⟩ := hflight b hb
        exact hlanded (.abort hthread (Plugins.abort_eq hcode _)) (by simpa using hsteps)

/-- What the cursor machine leaves to do concerns its own thread. -/
theorem filter_advanceWork {p : ThreadState} {r : Advance × ThreadState} (hran : p.Ran r)
    (hid : p.id = id) (hflight : ∀ b, p.inFlight = some b → b.context.thread = id) :
    (Engine.advanceWork id r.1 : List (Work σ)).filter (·.concerns id) =
      Engine.advanceWork id r.1 := by
  rw [List.filter_eq_self]
  intro work hwork
  apply Work.concerns_of_owner
  have hstop : ∀ b, p.inFlight = some b → (.abort b : Work σ).owner? = some id := by
    intro b hb
    exact congrArg some (hflight b hb)
  unfold Engine.advanceWork at hwork
  cases hran with
  | exhausted =>
    rw [List.mem_singleton.1 hwork]
    rfl
  | unknown =>
    split at hwork
    next b hb =>
      rcases List.mem_cons.1 hwork with rfl | hlast
      · exact hstop b hb
      · rw [List.mem_singleton.1 hlast]
        rfl
    next =>
      rw [List.mem_singleton.1 hwork]
      rfl
  | dispatched =>
    split at hwork
    next b hb =>
      rcases List.mem_cons.1 hwork with rfl | hlast
      · exact hstop b hb
      · rw [List.mem_singleton.1 hlast]
        exact congrArg some hid
    next =>
      rw [List.mem_singleton.1 hwork]
      exact congrArg some hid

/-- Work of a thread leaves it at another point, closer to its end. -/
def Proceeds (plugins : Plugins σ) (id : ThreadId) (after : World)
    (result : List (Work σ) × Engine σ) (own : List (Work σ)) (said : List String) (told : Prop)
    (steps : Nat) : Prop :=
  ∃ t tasks fewer, fewer < steps ∧ Stands plugins id after result.2 t said told
    (result.1.filter (·.concerns id) ++ own) tasks fewer

variable {t' : ThreadState} {tasks' : List (Task σ)} {steps : Nat}
  {result : List (Work σ) × Engine σ} {a : Instance} {rest : List Instruction}
  {leftover stopping : List (Work σ)}

theorem proceeds_of_holds {mine : List (Work σ)} (fewer : Nat)
    (hholds : result.2.Holds id t' tasks')
    (hscripts : t'.scripts.HoldsBuiltins)
    (hflight : ∀ a, t'.inFlight = some a → plugins.script a.script = Scripts.code a.script)
    (hmine : result.1.filter (·.concerns id) = mine) (hlt : fewer < steps)
    (hstand : Stand plugins id after t' said told (mine ++ own) tasks' fewer) :
    Proceeds plugins id after result own said told steps := by
  refine ⟨t', tasks', fewer, hlt, hholds, hscripts, hflight, ?_⟩
  rw [hmine]
  exact hstand

section Point

variable (hholds : e.Holds id t tasks) (hscripts : t.scripts.HoldsBuiltins)
  (hflight : ∀ a, t.inFlight = some a → plugins.script a.script = Scripts.code a.script)

include hholds hscripts hflight

/-- The first run becomes a task. -/
theorem proceeds_start (hnone : tasks = []) (hgoes : Goes t said after t.toCome)
    (hstarted : t.started = false) (hfree : t.inFlight = none)
    (hsteps : effort t.toCome + 8 ≤ steps) :
    Proceeds plugins id after (Machine.perform plugins e (.start id)) [] said told steps := by
  subst hnone
  have howner : (Task.start id : Task σ).owner = id := rfl
  have hqueued := (hholds.enqueue howner).modify (f := fun t =>
    if t.isRunning && !t.started then { t with startPending := true } else t) (by split <;> rfl)
  have hmarked : (if t.isRunning && !t.started then { t with startPending := true } else t) =
      { t with startPending := true } := by
    simp [ThreadState.isRunning_iff.2 hgoes.phase, hstarted]
  rw [hmarked] at hqueued
  refine proceeds_of_holds (effort t.toCome + 7) hqueued hscripts hflight rfl
    (by omega) ?_
  exact .queued ⟨hgoes.phase, hgoes.fits, hgoes.leads⟩ hstarted hfree (Nat.le_refl _)

/-- The script that lost its place is told to stop. -/
theorem proceeds_stopping (hnone : tasks = [])
    (hstopping : Stopping plugins id (work :: stopping) j)
    (hleftover : Leftover id t.isCurrent leftover k) (hflies : Flies t a rest)
    (hgoes : Goes t said after (a.context.instruction :: rest))
    (hsteps : effort (a.context.instruction :: rest) + 6 + j + k ≤ steps) :
    Proceeds plugins id after (Machine.perform plugins e work)
      (stopping ++ .arrive id (.dispatch a) :: leftover) said told steps := by
  subst hnone
  obtain ⟨rfl, j', t', hlt, hagree, hholds', hstopping'⟩ := hstopping.agrees_perform hholds
  refine proceeds_of_holds (effort (a.context.instruction :: rest) + 6 + j' + k) hholds'
    (hagree.scripts ▸ hscripts) (hagree.inFlight ▸ hflight) rfl (by omega) ?_
  exact .arriving hstopping' (hleftover.agrees hagree) (hflies.agrees hagree) (hgoes.agrees hagree)
    (Nat.le_refl _)

/-- The services are told of a dispatch. -/
theorem proceeds_arrive (hnone : tasks = []) (hthread : a.context.thread = id)
    (hleftover : Leftover id t.isCurrent leftover k) (hflies : Flies t a rest)
    (hgoes : Goes t said after (a.context.instruction :: rest))
    (hsteps : effort (a.context.instruction :: rest) + 6 + k ≤ steps) :
    Proceeds plugins id after (Machine.perform plugins e (.arrive id (.dispatch a))) leftover said
      told steps := by
  subst hnone
  have hmine : (Machine.perform plugins e (.arrive id (.dispatch a))).1.filter (·.concerns id) =
      [.spawn a] :=
    Work.filter_told rfl (congrArg some hthread)
  refine proceeds_of_holds (effort (a.context.instruction :: rest) + 5 + k) hholds hscripts
    hflight hmine (by omega) ?_
  exact .spawning hleftover hflies hgoes (Nat.le_refl _)

/-- A dispatched script becomes a task. -/
theorem proceeds_spawn (hnone : tasks = []) (hthread : a.context.thread = id)
    (hleftover : Leftover id t.isCurrent leftover k) (hflies : Flies t a rest)
    (hgoes : Goes t said after (a.context.instruction :: rest))
    (hsteps : effort (a.context.instruction :: rest) + 5 + k ≤ steps) :
    Proceeds plugins id after (Machine.perform plugins e (.spawn a)) leftover said told steps := by
  subst hnone
  have howner : (Task.begin a : Task σ).owner = id := hthread
  refine proceeds_of_holds (effort (a.context.instruction :: rest) + 4 + k)
    (hholds.enqueue howner) hscripts hflight rfl (by omega) ?_
  exact .waiting hleftover hflies hgoes (Nat.le_refl _)

/-- What is left of an earlier script goes while the next one waits. -/
theorem proceeds_leftover (htasks : tasks = [.begin a])
    (hleftover : Leftover id t.isCurrent (work :: own) k) (hflies : Flies t a rest)
    (hgoes : Goes t said after (a.context.instruction :: rest))
    (hsteps : effort (a.context.instruction :: rest) + 4 + k ≤ steps) :
    Proceeds plugins id after (Machine.perform plugins e work) own said told steps := by
  subst htasks
  obtain ⟨rfl, hengine, k', hlt, hleftover'⟩ := hleftover.perform hholds fun _ h => h
  rw [← hengine] at hholds
  refine proceeds_of_holds (effort (a.context.instruction :: rest) + 4 + k') hholds hscripts
    hflight rfl (by omega) ?_
  rw [List.append_nil]
  exact .waiting hleftover' hflies hgoes (Nat.le_refl _)

/-- The message of `log` is written. -/
theorem proceeds_log {message : String} (hnone : tasks = []) (hthread : a.context.thread = id)
    (hflies : Flies t a rest) (hphase : t.phase = .running)
    (hfits : ∀ i ∈ a.context.instruction :: rest, i.Fits)
    (hleads : effects rest (World.say ⟨t.vars, said⟩ message) = after)
    (hsteps : 3 + effort rest + 6 ≤ steps) :
    Proceeds plugins id after (Machine.perform plugins e
      (.script a.context (.log (Scripts.entry a.context.thread message) .succeed))) []
        (said ++ [message]) told steps := by
  subst hnone
  have hwritten : (e.write (Scripts.entry a.context.thread message)).Holds id t [] :=
    hholds.apart (.of_eq rfl rfl rfl rfl)
  have hmine : ([.script a.context .succeed] : List (Work σ)).filter (·.concerns id) =
      [.script a.context .succeed] :=
    Work.filter_own (congrArg some hthread)
  refine proceeds_of_holds (2 + effort rest + 6) hwritten hscripts hflight hmine (by omega) ?_
  exact .acting hflies hphase hfits (acts_succeed hleads) (Nat.le_refl _)

/-- A script that has nothing left to do ends. -/
theorem proceeds_succeed (hnone : tasks = []) (hthread : a.context.thread = id)
    (hflies : Flies t a rest) (hgoes : Goes t said after rest)
    (hsteps : 2 + effort rest + 6 ≤ steps) :
    Proceeds plugins id after (Machine.perform plugins e (.script a.context .succeed)) [] said told
      steps := by
  subst hnone
  have hrunning : e.look a.context.thread false (·.isRunning) = true := by
    rw [hthread, Engine.look_eq hholds.thread]
    exact ThreadState.isRunning_iff.2 hgoes.phase
  have hperform : Machine.perform plugins e (.script a.context .succeed) =
      ([.notify (e.servicesOf a.context.thread) (.after a.context.thread a.context.instruction),
        .complete a.context], e) := by
    show Machine.settle e a.context (.ok ()) = _
    simp only [Machine.settle, hrunning, if_true]
  have hmine : (Machine.perform plugins e (.script a.context .succeed)).1.filter
      (·.concerns id) = [.complete a.context] := by
    rw [hperform]
    exact Work.filter_told rfl (congrArg some hthread)
  have hstill : (Machine.perform plugins e (.script a.context .succeed)).2.Holds id t [] := by
    rw [hperform]
    exact hholds
  refine proceeds_of_holds (effort rest + 7) hstill hscripts hflight hmine (by omega) ?_
  exact .completing hflies hgoes (Nat.le_refl _)

/-- A variable is written. -/
theorem proceeds_assign {name : String} {value : Json} {entries : Members} (hnone : tasks = [])
    (hthread : a.context.thread = id) (hflies : Flies t a rest) (hphase : t.phase = .running)
    (hfits : ∀ i ∈ a.context.instruction :: rest, i.Fits)
    (hleads : effects rest (World.assign ⟨t.vars, said⟩ ((name, value) :: entries)) = after)
    (hsteps : entries.length + 3 + effort rest + 6 ≤ steps) :
    Proceeds plugins id after (Machine.perform plugins e
      (.script a.context (Scripts.assign a.context.thread ((name, value) :: entries)))) [] said told
        steps := by
  subst hnone
  have hset : t.setVar name value =
      { t with vars := (World.write ⟨t.vars, said⟩ name value).vars } := by
    unfold ThreadState.setVar World.write
    simp only [hphase, reduceCtorEq, if_false]
    split <;> rfl
  have hwritten : (e.modifyThread a.context.thread (·.setVar name value)).Holds id
      { t with vars := (World.write ⟨t.vars, said⟩ name value).vars } [] := by
    rw [hthread, ← hset]
    refine hholds.modify ?_
    rw [hset]
  have hmine : ([.script a.context (Scripts.assign a.context.thread entries)] :
      List (Work σ)).filter (·.concerns id) =
        [.script a.context (Scripts.assign a.context.thread entries)] :=
    Work.filter_own (congrArg some hthread)
  refine proceeds_of_holds (entries.length + 2 + effort rest + 6) hwritten hscripts hflight hmine
    (by omega) ?_
  exact .acting ⟨hflies.flight, hflies.toCome, hflies.script⟩ hphase hfits (.assign hleads)
    (Nat.le_refl _)

/-- The script `if` looks at the variables and chooses. -/
theorem proceeds_choose {next : Members → Behaviour σ Wait Outcome} {i : Instruction}
    (hnone : tasks = []) (hthread : a.context.thread = id) (hflies : Flies t a rest)
    (hphase : t.phase = .running) (hrest : ∀ i ∈ a.context.instruction :: rest, i.Fits)
    (hfits : i.Fits) (hname : i.handler = "if")
    (hleads : effects rest (i.effect ⟨t.vars, said⟩) = after)
    (hnext : ∀ vars, next vars = match i.branch? vars with
      | some program => .handOver a.context program.asSequence none
      | none => .succeed)
    (hsteps : 9 * i.weight - 3 + effort rest + 6 ≤ steps) :
    Proceeds plugins id after (Machine.perform plugins e
      (.script a.context (.ask (.vars a.context.thread) next))) [] said told steps := by
  subst hnone
  have hlook : e.look a.context.thread [] (·.vars) = t.vars := by
    rw [hthread, Engine.look_eq hholds.thread]
  have hmine : (Machine.perform plugins e
      (.script a.context (.ask (.vars a.context.thread) next))).1.filter (·.concerns id) =
        [.script a.context (next t.vars)] := by
    show ([.script a.context (next (e.look a.context.thread [] (·.vars)))] :
      List (Work σ)).filter _ = _
    rw [hlook]
    exact Work.filter_own (congrArg some hthread)
  have hpos := i.weight_pos
  have hacts : ∃ more, more + 1 ≤ 9 * i.weight - 3 ∧
      Acts a.context rest ⟨t.vars, said⟩ after (next t.vars) more := by
    rw [hnext]
    rw [Instruction.effect_if hname] at hleads
    dsimp only at hleads
    rcases hbranch : i.branch? t.vars with _ | program
    · -- no branch is there to run
      rw [hbranch] at hleads
      exact ⟨2, by omega, acts_succeed hleads⟩
    · -- the branch comes before what follows the instruction
      rw [hbranch] at hleads
      have heffort := Instruction.effort_branch hbranch
      refine ⟨effort (Sequence.instructions program.asSequence) + 5, by omega, .handOver ?_ ?_⟩
      · exact hfits.branch hname hbranch
      · dsimp only at hleads
        rwa [interpret_eq, ← effects_append] at hleads
  obtain ⟨more, hmore, hacts⟩ := hacts
  refine proceeds_of_holds (more + effort rest + 6) hholds hscripts hflight hmine (by omega) ?_
  exact .acting hflies hphase hrest hacts (Nat.le_refl _)

variable (leftover) in
/-- The cursor machine sets the thread going. -/
theorem proceeds_run {move : Move} {p : ThreadState} (hsound : t.Sound)
    (hplugins : plugins.HasBuiltins) (hprep : t.Prepares move p)
    (hgoes : Goes p said after p.toCome) (hresult : result.2.Holds id t' [])
    (hagree : p.run.2.Agrees t')
    (hmine : result.1.filter (·.concerns id) = Engine.advanceWork id p.run.1 ++ leftover)
    (hleftover : Leftover id (fun ticket => decide (p.ticket < ticket)) leftover k)
    (hsteps : effort p.toCome + 6 + (if p.inFlight.isSome then 2 else 0) + k < steps) :
    Proceeds plugins id after result [] said told steps := by
  have hbefore : ∀ b, p.inFlight = some b →
      b.context.thread = id ∧ plugins.script b.script = Scripts.code b.script := by
    intro b hb
    have hb' : t.inFlight = some b := by
      cases hprep with
      | resumed => exact hb
      | executed => exact hb
      | completed => cases hb
    exact ⟨(hsound.ticketed b hb').1.trans hholds.number, hflight b hb'⟩
  have hkept : p.scripts.HoldsBuiltins := by
    rw [← hprep.kin.scripts]
    exact hscripts
  obtain ⟨hflight', hstand⟩ := stand_of_ran told (hprep.ran hsound) hagree hkept hgoes
    hbefore hplugins hleftover (Nat.le_refl _)
  refine proceeds_of_holds _ hresult ?_ hflight' hmine hsteps ?_
  · rw [← hagree.scripts, ← hprep.kin_run.scripts]
    exact hscripts
  · rw [List.append_nil]
    exact hstand

/-- A script hands control over. -/
theorem proceeds_handOver {program : Sequence} (hsound : t.Sound) (hplugins : plugins.HasBuiltins)
    (hnone : tasks = []) (hthread : a.context.thread = id) (hflies : Flies t a rest)
    (hphase : t.phase = .running) (hrest : ∀ i ∈ a.context.instruction :: rest, i.Fits)
    (hfits : ∀ j ∈ Sequence.instructions program, j.Fits)
    (hleads : effects (Sequence.instructions program ++ rest) ⟨t.vars, said⟩ = after)
    (hsteps : effort (Sequence.instructions program) + 5 + effort rest + 6 ≤ steps) :
    Proceeds plugins id after (Machine.perform plugins e
      (.script a.context (.handOver a.context program none))) [] said told steps := by
  subst hnone
  have hcurrent : t.isCurrent a.context.ticket = true :=
    ThreadState.isCurrent_iff.2 ⟨hphase, a, hflies.flight, rfl⟩
  have hgrants : t.grants (some a.context) program none = true := by
    have hentry : (program.entry none).isOk = true := rfl
    simp [ThreadState.grants, ThreadState.isRunning_iff.2 hphase, hcurrent, hentry]
  obtain ⟨p, hprep⟩ := ThreadState.exists_prepares_of_grants hgrants
  have hcome : p.toCome = Sequence.instructions program ++ rest := by
    obtain ⟨start, hentry, hcome⟩ := ThreadState.toCome_executed hprep hsound
    have hstart : start = 0 := by
      cases hentry
      rfl
    rw [hcome, hstart, hflies.flight, hflies.toCome]
    rfl
  have hticket : p.ticket = t.ticket ∧ p.inFlight = some a := by
    cases hprep
    exact ⟨rfl, hflies.flight⟩
  have hid : p.run.2.id = id := hprep.kin_run.id.symm.trans hholds.number
  have hanswer : e.answer (.transfer a.context program none) =
      ⟨.ok (), Engine.advanceWork id p.run.1, (e.setThread p.run.2).dropStart id⟩ := by
    show e.transfer a.context.thread (some a.context) program none = _
    unfold Engine.transfer
    rw [hthread, hholds.thread]
    dsimp only
    rw [hprep.transfer_eq]
  have hperform : Machine.perform plugins e (.script a.context (.handOver a.context program none)) =
      (Engine.advanceWork id p.run.1 ++ [.script a.context .succeed],
        (e.setThread p.run.2).dropStart id) := by
    simp only [Machine.perform, Behaviour.handOver, Engine.stepCode, hanswer]
  obtain ⟨t', hagree, hresult⟩ := (hholds.set hid).dropStart
  rw [hperform]
  -- the script that handed over loses its place, and what is left of it comes last
  refine proceeds_run [.script a.context .succeed] hholds hscripts hflight hsound
    hplugins hprep ?_ hresult hagree ?_ (.script hthread ?_) ?_
  · rw [hcome]
    refine ⟨hprep.phase.2, ?_, ?_⟩
    · intro j hj
      rcases List.mem_append.1 hj with hj | hj
      · exact hfits j hj
      · exact hrest j (List.mem_cons_of_mem _ hj)
    · rw [← hprep.kin.vars]
      exact hleads
  · rw [List.filter_append, filter_advanceWork (hprep.ran hsound)
      (hprep.kin.id.symm.trans hholds.number)]
    · have howner : (.script a.context .succeed : Work σ).owner? = some id :=
        congrArg some hthread
      rw [Work.filter_own howner]
    · intro b hb
      cases hticket.2.symm.trans hb
      exact hthread
  · have hlast := (hsound.ticketed a hflies.flight).2
    rw [hticket.1, hlast]
    simp
  · rw [hcome, hticket.2, effort_append]
    simp only [Option.isSome_some, if_true]
    omega

/-- The next instruction comes after the end of a script. -/
theorem proceeds_complete (hsound : t.Sound) (hplugins : plugins.HasBuiltins) (hnone : tasks = [])
    (hthread : a.context.thread = id) (hflies : Flies t a rest) (hgoes : Goes t said after rest)
    (hsteps : effort rest + 7 ≤ steps) :
    Proceeds plugins id after (Machine.perform plugins e (.complete a.context)) [] said told
      steps := by
  subst hnone
  have hcurrent : t.isCurrent a.context.ticket = true :=
    ThreadState.isCurrent_iff.2 ⟨hgoes.phase, a, hflies.flight, rfl⟩
  have hprep := ThreadState.Prepares.completed hcurrent
  have hcome := ThreadState.toCome_completed hprep hsound
  rw [hflies.toCome, List.tail_cons] at hcome
  have hperform : Machine.perform plugins e (.complete a.context) =
      (Engine.advanceWork id t.complete.1, e.setThread t.complete.2) := by
    simp [Machine.perform, hthread, hholds.thread, hcurrent]
  rw [hperform, ThreadState.complete_eq]
  have hid := hprep.kin_run.id.symm.trans hholds.number
  refine proceeds_run [] hholds hscripts hflight hsound hplugins hprep ?_
    (hholds.set hid) (.refl _) ?_ .nothing ?_
  · rw [hcome]
    exact ⟨hprep.phase.2, hgoes.fits, hgoes.leads⟩
  · rw [List.append_nil]
    refine filter_advanceWork (hprep.ran hsound) (hprep.kin.id.symm.trans hholds.number) ?_
    intro b hb
    cases hb
  · rw [hcome]
    simp only [Option.isSome_none, Bool.false_eq_true, if_false]
    omega

/-- At the end of its program a thread is destroyed. -/
theorem proceeds_exhausted (hnone : tasks = [])
    (hleftover : Leftover id (fun _ => false) leftover k) (hgoes : Goes t said after [])
    (hsteps : 6 + k ≤ steps) :
    Proceeds plugins id after (Machine.perform plugins e (.arrive id .exhausted)) leftover said
      told steps := by
  subst hnone
  refine proceeds_of_holds (5 + k) hholds hscripts hflight (Work.filter_own rfl) (by omega) ?_
  exact .ending hleftover hgoes (Nat.le_refl _)

/-- The services are about to be told. -/
theorem proceeds_destroy (hnone : tasks = [])
    (hleftover : Leftover id (fun _ => false) leftover k) (hgoes : Goes t said after [])
    (hsteps : 5 + k ≤ steps) :
    Proceeds plugins id after (Machine.perform plugins e (.destroy id)) leftover said told
      steps := by
  subst hnone
  have hrunning : e.look id false (·.isRunning) = true := by
    rw [Engine.look_eq hholds.thread]
    exact ThreadState.isRunning_iff.2 hgoes.phase
  have hmine : (Machine.perform plugins e (.destroy id)).1.filter (·.concerns id) =
      [.notify (e.servicesOf id) (.willDestroy id), .clear id] := by
    simp [Machine.perform, hrunning, Work.concerns, Work.owner?, Work.tells?,
      Notification.isFinal]
  have hdestroying : (Machine.perform plugins e (.destroy id)).2.Holds id
      { t with phase := .destroying } [] := by
    simp only [Machine.perform, hrunning, if_true]
    exact hholds.modify rfl
  refine proceeds_of_holds (4 + k) hdestroying hscripts hflight hmine (by omega) ?_
  exact .telling (.notify _) hleftover rfl hgoes.leads (Nat.le_refl _)

/-- Everything is taken from the thread. -/
theorem proceeds_clear (hsound : t.Sound) (hnone : tasks = [])
    (hleftover : Leftover id (fun _ => false) leftover k)
    (hworld : (⟨t.vars, said⟩ : World) = after) (htold : told) (hsteps : 4 + k ≤ steps) :
    Proceeds plugins id after (Machine.perform plugins e (.clear id)) leftover said told steps := by
  subst hnone
  obtain ⟨t', hagree, hdropped⟩ := hholds.dropStart
  have hcleared : (Machine.perform plugins e (.clear id)).2.Holds id t'.clear [] :=
    hdropped.modify rfl
  have hlook : e.look id none (·.inFlight) = t.inFlight := Engine.look_eq hholds.thread
  have hkept : t'.clear.scripts.HoldsBuiltins := by
    rw [← hagree.clear.scripts]
    exact hscripts
  have hidle : ∀ a, t'.clear.inFlight = some a →
      plugins.script a.script = Scripts.code a.script := by
    intro a ha
    cases ha
  have hlanded : ∀ {stopping j}, Stopping plugins id stopping j → j ≤ 2 →
      (Machine.perform plugins e (.clear id)).1.filter (·.concerns id) =
        stopping ++ [.release id] →
      Proceeds plugins id after (Machine.perform plugins e (.clear id)) leftover said told
        steps := by
    intro stopping j hstopping hj hmine
    refine proceeds_of_holds (1 + j + k) hcleared hkept hidle hmine (by omega) ?_
    rw [List.append_assoc]
    exact .releasing hstopping hleftover rfl (congrArg World.messages hworld) htold
      (Nat.le_refl _)
  rcases hb : t.inFlight with _ | b
  · -- nothing is in flight
    refine hlanded .nothing (by omega) ?_
    simp [Machine.perform, hlook, hb, Work.concerns, Work.owner?]
  · -- the last script handed over an empty program and is told to stop
    have hthread : b.context.thread = id := (hsound.ticketed b hb).1.trans hholds.number
    refine hlanded (.abort hthread (Plugins.abort_eq (hflight b hb) _)) (by omega) ?_
    simp [Machine.perform, hlook, hb, Work.concerns, Work.owner?, hthread]

/-- The script that the thread leaves behind is told to stop. -/
theorem proceeds_abort (hnone : tasks = []) (hstopping : Stopping plugins id (work :: stopping) j)
    (hleftover : Leftover id (fun _ => false) leftover k) (hphase : t.phase = .destroyed)
    (hsaid : said = after.messages) (htold : told) (hsteps : 1 + j + k ≤ steps) :
    Proceeds plugins id after (Machine.perform plugins e work)
      (stopping ++ .release id :: leftover) said told steps := by
  subst hnone
  obtain ⟨rfl, j', t', hlt, hagree, hholds', hstopping'⟩ := hstopping.agrees_perform hholds
  refine proceeds_of_holds (1 + j' + k) hholds' (hagree.scripts ▸ hscripts)
    (hagree.inFlight ▸ hflight) rfl (by omega) ?_
  exact .releasing hstopping' hleftover (hagree.phase ▸ hphase) hsaid htold (Nat.le_refl _)

/-- The thread ends. -/
theorem proceeds_release (hnone : tasks = [])
    (hleftover : Leftover id (fun _ => false) leftover k) (hphase : t.phase = .destroyed)
    (hsaid : said = after.messages) (htold : told) (hsteps : 1 + k ≤ steps) :
    Proceeds plugins id after (Machine.perform plugins e (.release id)) leftover said told
      steps := by
  subst hnone
  refine proceeds_of_holds k hholds.release hscripts hflight rfl (by omega) ?_
  exact .ended hleftover hphase rfl hsaid htold (Nat.le_refl _)

/-- What is left of a script goes after the end of its thread. -/
theorem proceeds_ended (hnone : tasks = [])
    (hleftover : Leftover id (fun _ => false) (work :: own) k) (hphase : t.phase = .destroyed)
    (hended : t.ended = true) (hsaid : said = after.messages) (htold : told)
    (hsteps : k ≤ steps) :
    Proceeds plugins id after (Machine.perform plugins e work) own said told steps := by
  subst hnone
  have hstale : ∀ ticket, t.isCurrent ticket = false := by
    intro ticket
    simp [ThreadState.isCurrent, ThreadState.isRunning, hphase]
  obtain ⟨rfl, hengine, k', hlt, hleftover'⟩ :=
    hleftover.perform hholds fun ticket _ => hstale ticket
  rw [← hengine] at hholds
  refine proceeds_of_holds k' hholds hscripts hflight rfl (by omega) ?_
  rw [List.append_nil]
  exact .ended hleftover' hphase hended hsaid htold (Nat.le_refl _)

/-- The first run begins. -/
theorem proceeds_resume (hsound : t.Sound) (hplugins : plugins.HasBuiltins) (hnone : tasks = [])
    (hgoes : Goes t said after t.toCome) (hstarted : t.started = false)
    (hfree : t.inFlight = none) (hsteps : effort t.toCome + 7 ≤ steps) :
    Proceeds plugins id after
      ((Machine.take plugins e (.start id)).stack, (Machine.take plugins e (.start id)).engine) []
        said told steps := by
  subst hnone
  rw [Machine.take_start_some hholds.thread]
  rcases t.resume_cases with ⟨hstale, -⟩ | ⟨p, hprep, hresume⟩
  · -- nothing else can have set the thread going
    simp [ThreadState.isFresh, ThreadState.isRunning_iff.2 hgoes.phase, hstarted, hfree] at hstale
  · rw [hresume]
    have hid := hprep.kin_run.id.symm.trans hholds.number
    have hcome : p.toCome = t.toCome ∧ p.inFlight = none := by
      cases hprep
      exact ⟨rfl, hfree⟩
    refine proceeds_run [] hholds hscripts hflight hsound hplugins hprep ?_ (hholds.set hid)
      (.refl _) ?_ .nothing ?_
    · rw [hcome.1]
      exact hgoes.of_same hprep.kin.phase hprep.kin.vars
    · rw [List.append_nil]
      refine filter_advanceWork (hprep.ran hsound) (hprep.kin.id.symm.trans hholds.number) ?_
      intro b hb
      cases hcome.2.symm.trans hb
    · rw [hcome.1, hcome.2]
      simp only [Option.isSome_none, Bool.false_eq_true, if_false]
      omega

/-- A script begins. -/
theorem proceeds_begin (hnone : tasks = []) (hthread : a.context.thread = id)
    (hflies : Flies t a rest) (hgoes : Goes t said after (a.context.instruction :: rest))
    (hsteps : effort (a.context.instruction :: rest) + 4 ≤ steps) :
    Proceeds plugins id after
      ((Machine.take plugins e (.begin a)).stack, (Machine.take plugins e (.begin a)).engine) []
        said told steps := by
  subst hnone
  have hfits : a.context.instruction.Fits := hgoes.fits _ List.mem_cons_self
  obtain ⟨more, hmore, hacts⟩ := acts_execute (σ := σ) hfits hgoes.leads
  have hcode : (plugins.script a.script).execute a.context =
      (Scripts.code a.context.instruction.handler).execute a.context := by
    rw [hflight a hflies.flight, hflies.script]
  have hmine : (Machine.take plugins e (.begin a)).stack.filter (·.concerns id) =
      [.script a.context ((Scripts.code a.context.instruction.handler).execute a.context)] := by
    simp [Machine.take, hcode, Work.concerns, Work.owner?, hthread]
  simp only [effort] at hsteps
  refine proceeds_of_holds (more + effort rest + 6) hholds hscripts hflight hmine (by omega) ?_
  exact .acting hflies hgoes.phase hgoes.fits hacts (Nat.le_refl _)

end Point

end Work

end SentenceEngine
