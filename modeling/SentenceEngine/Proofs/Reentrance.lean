import SentenceEngine.Proofs.Tokens

/-!
# Calls back into the engine

Scripts, services and abort hooks all call back into the engine, and what they ask for is done
before whatever waits below them on the stack. What waits there is only put off: it stays where it
is until everything above it is done, however much comes in between. A round of the services whose
code asks for nothing is the one thing that nothing comes between.

* `Machine.Run.reached`, `Machine.Run.onward`: a run up to one of its steps, and from there on.
* `Machine.Run.since`: what holds from one of its steps on.
* `Machine.Begets`, `Machine.Step.begets`: what a step puts on the stack, all together.
* `Machine.Puts`: what it takes to put an item there.
* `Machine.InRound`: a round of the services is going on above what comes after it.
* `Machine.Hushed`: a round in which the services ask for nothing.
* `Machine.Underway`: a destruction that has begun is still on the stack until it is over.
-/

namespace SentenceEngine

namespace Work

variable {σ : Type}

/-- Work of which the engine does not have to keep track: all but rounds of the services, failures,
the end of the engine and the two halves of a destruction. -/
def isLoose : Work σ → Bool
  | .notify _ _ => false
  | .announce .coreDestroy => false
  | .arrive _ (.fatal _) => false
  | .fail _ _ => false
  | .clear _ => false
  | .release _ => false
  | _ => true

/-- The thread that an item of work lets fail. -/
def fails? : Work σ → Option ThreadId
  | .arrive id (.fatal _) => some id
  | .fail id _ => some id
  | _ => none

theorem fails?_of_isLoose {work : Work σ} (h : work.isLoose = true) : work.fails? = none := by
  cases work with
  | arrive id arrival => cases arrival <;> first | rfl | cases h
  | fail id error => cases h
  | _ => rfl

end Work

namespace Machine

variable {σ : Type} {plugins : Plugins σ} {m m' : Machine σ} {event : Event σ} {id : ThreadId}
  {e : Engine σ} {n : Notification} {above todo rest stack : List (Work σ)} {t : ThreadState}

/-! ## Parts of a run -/

/-- Each step of a run was taken from where the steps before it led. -/
theorem Run.reached {start : Machine σ} {stages earlier later : List (Stage σ)} {s : Stage σ}
    (h : Run plugins start stages m) (hstages : stages = earlier ++ s :: later) :
    Run plugins start earlier s.before ∧ Step plugins s.before s.event s.after := by
  induction h generalizing later with
  | start => simp at hstages
  | @step stages m m' event hrun hstep ih =>
    -- the step in question is the last one, or was taken before
    rcases List.eq_nil_or_concat later with rfl | ⟨shorter, last, rfl⟩
    · obtain ⟨rfl, hlast⟩ := List.append_inj' hstages rfl
      cases hlast
      exact ⟨hrun, hstep⟩
    · have hsplit : stages ++ [⟨m, event, m'⟩] = (earlier ++ s :: shorter) ++ [last] := by
        rw [hstages]
        simp
      exact ih (List.append_inj' hsplit rfl).1

/-- What holds after a step and is kept by all steps holds from there on. -/
theorem Run.since {start : Machine σ} {stages earlier later : List (Stage σ)} {s : Stage σ}
    {P : Machine σ → Prop} (h : Run plugins start stages m)
    (hstages : stages = earlier ++ s :: later) (hfirst : P s.after)
    (hnext : ∀ {stages m event m'}, Run plugins start stages m → Step plugins m event m' →
      P m → P m') :
    P m ∧ ∀ r ∈ later, P r.before := by
  induction h generalizing later with
  | start => simp at hstages
  | @step stages m m' event hrun hstep ih =>
    rcases List.eq_nil_or_concat later with rfl | ⟨shorter, last, rfl⟩
    · obtain ⟨-, hlast⟩ := List.append_inj' hstages rfl
      cases hlast
      exact ⟨hfirst, by simp⟩
    · have hsplit : stages ++ [⟨m, event, m'⟩] = (earlier ++ s :: shorter) ++ [last] := by
        rw [hstages]
        simp
      obtain ⟨hshorter, hlast⟩ := List.append_inj' hsplit rfl
      cases hlast
      obtain ⟨hm, hbefore⟩ := ih hshorter
      refine ⟨hnext hrun hstep hm, ?_⟩
      intro r hr
      rw [List.concat_eq_append] at hr
      rcases List.mem_append.1 hr with hr | hr
      · exact hbefore r hr
      · rw [List.mem_singleton.1 hr]
        exact hm

/-- From where a step led, the run goes on with the steps after it. -/
theorem Run.onward {start : Machine σ} {stages earlier later : List (Stage σ)} {s : Stage σ}
    (h : Run plugins start stages m) (hstages : stages = earlier ++ s :: later) :
    Run plugins s.after later m := by
  induction h generalizing later with
  | start => simp at hstages
  | @step stages m m' event hrun hstep ih =>
    rcases List.eq_nil_or_concat later with rfl | ⟨shorter, last, rfl⟩
    · obtain ⟨-, hlast⟩ := List.append_inj' hstages rfl
      cases hlast
      exact .start
    · have hsplit : stages ++ [⟨m, event, m'⟩] = (earlier ++ s :: shorter) ++ [last] := by
        rw [hstages]
        simp
      obtain ⟨hshorter, hlast⟩ := List.append_inj' hsplit rfl
      cases hlast
      rw [List.concat_eq_append]
      exact (ih hshorter).step hstep

/-- A run goes on with the item on top of the stack. -/
theorem Run.work {start : Machine σ} {stages : List (Stage σ)} (h : Run plugins start stages m)
    {item : Work σ} (hstack : m.stack = item :: rest) :
    Run plugins start
      (stages ++ [⟨m, .work item, ⟨(perform plugins m.engine item).2,
        (perform plugins m.engine item).1 ++ rest⟩⟩])
      ⟨(perform plugins m.engine item).2, (perform plugins m.engine item).1 ++ rest⟩ := by
  obtain ⟨e, stack⟩ := m
  cases hstack
  exact h.step .work

/-- A run goes on with a request from outside. -/
theorem Run.ask {start : Machine σ} {stages : List (Stage σ)} (h : Run plugins start stages m)
    (hstack : m.stack = []) (query : Query) :
    Run plugins start (stages ++ [⟨m, .ask query, (m.ask query).2⟩]) (m.ask query).2 := by
  obtain ⟨e, stack⟩ := m
  cases hstack
  exact h.step (.ask query)

/-! ## What a step puts on the stack -/

/-- All that a step can put on the stack. -/
inductive Begets (plugins : Plugins σ) (e : Engine σ) : Event σ → List (Work σ) → Prop
  | loose {event : Event σ} {todo : List (Work σ)} (hloose : ∀ work ∈ todo, work.isLoose = true) :
      Begets plugins e event todo
  /-- The cursor machine of a thread that runs was set going. -/
  | moved {event : Event σ} {id : ThreadId} {advance : Advance} {more : List (Work σ)}
      (hrunning : e.phase? id = some .running) (hmore : ∀ work ∈ more, work.isLoose = true) :
      Begets plugins e event (Engine.advanceWork id advance ++ more)
  /-- The services are told, and then comes what they were told of. -/
  | told {event : Event σ} {services : ServiceSet} {notification : Notification}
      {more : List (Work σ)} (hmore : ∀ work ∈ more, work.isLoose = true) :
      Begets plugins e event (.notify services notification :: more)
  /-- The next service of a round is called. -/
  | called {first : ServiceId} {services : ServiceSet} {notification : Notification} :
      Begets plugins e (.work (.notify (first :: services) notification))
        [.hook notification (plugins.service first notification), .notify services notification]
  | failing {event : Event σ} {id : ThreadId} {error : ThreadError}
      (hfails : event.item?.bind Work.fails? = some id ∨ e.phase? id = some .running) :
      Begets plugins e event [.fail id error]
  | ending {id : ThreadId} {services : ServiceSet} :
      Begets plugins e (.work (.destroy id)) [.notify services (.willDestroy id), .clear id]
  | cleared {id : ThreadId} {script : Option Instance} :
      Begets plugins e (.work (.clear id)) ((script.map Work.abort).toList ++ [.release id])
  /-- The engine is to be destroyed after all its threads. -/
  | closing {event : Event σ} {more : List (Work σ)}
      (hasks : event.asks? = some (.core .destroyCore))
      (hmore : ∀ work ∈ more, work.isLoose = true) :
      Begets plugins e event (e.active.map .destroy ++ .announce .coreDestroy :: .reopen :: more)

/-- What comes of a run of the cursor machine. -/
theorem mem_advanceWork {advance : Advance} {work : Work σ}
    (hwork : work ∈ Engine.advanceWork id advance) :
    (∃ script, work = .abort script) ∨ work = .arrive id advance.arrival := by
  rcases Engine.advanceWork_cases (σ := σ) id advance with ⟨aborted, hadvance⟩ | hadvance
  · simp only [hadvance, List.mem_cons, List.not_mem_nil, or_false] at hwork
    rcases hwork with rfl | rfl
    · exact .inl ⟨aborted, rfl⟩
    · exact .inr rfl
  · rw [hadvance] at hwork
    exact .inr (List.mem_singleton.1 hwork)

/-- What it takes to put an item on the stack. -/
inductive Puts (e : Engine σ) : Event σ → Work σ → Prop
  | loose {event : Event σ} {work : Work σ} (hloose : work.isLoose = true) : Puts e event work
  | round {event : Event σ} {services : ServiceSet} {notification : Notification} :
      Puts e event (.notify services notification)
  | fatal {event : Event σ} {id : ThreadId} {error : ThreadError}
      (hrunning : e.phase? id = some .running) : Puts e event (.arrive id (.fatal error))
  | failing {event : Event σ} {id : ThreadId} {error : ThreadError}
      (hfails : event.item?.bind Work.fails? = some id ∨ e.phase? id = some .running) :
      Puts e event (.fail id error)
  | clear {id : ThreadId} : Puts e (.work (.destroy id)) (.clear id)
  | release {id : ThreadId} : Puts e (.work (.clear id)) (.release id)
  | closing {event : Event σ} (hasks : event.asks? = some (.core .destroyCore)) :
      Puts e event (.announce .coreDestroy)

theorem Begets.puts (h : Begets plugins e event todo) {work : Work σ} (hwork : work ∈ todo) :
    Puts e event work := by
  cases h with
  | loose hloose => exact .loose (hloose work hwork)
  | @moved _ id advance more hrunning hmore =>
    rcases List.mem_append.1 hwork with hwork | hwork
    · rcases mem_advanceWork hwork with ⟨script, rfl⟩ | rfl
      · exact .loose rfl
      · cases advance.arrival with
        | fatal error => exact .fatal hrunning
        | _ => exact .loose rfl
    · exact .loose (hmore work hwork)
  | told hmore =>
    rcases List.mem_cons.1 hwork with rfl | hwork
    · exact .round
    · exact .loose (hmore work hwork)
  | called =>
    simp only [List.mem_cons, List.not_mem_nil, or_false] at hwork
    rcases hwork with rfl | rfl
    · exact .loose rfl
    · exact .round
  | failing hfails =>
    rw [List.mem_singleton.1 hwork]
    exact .failing hfails
  | ending =>
    simp only [List.mem_cons, List.not_mem_nil, or_false] at hwork
    rcases hwork with rfl | rfl
    · exact .round
    · exact .clear
  | @cleared id script =>
    rcases List.mem_append.1 hwork with hwork | hwork
    · obtain ⟨a, -, rfl⟩ := Option.map_eq_some_iff.1 (Option.mem_toList.1 hwork)
      exact .loose rfl
    · rw [List.mem_singleton.1 hwork]
      exact .release
  | closing hasks hmore =>
    rcases List.mem_append.1 hwork with hwork | hwork
    · obtain ⟨other, -, rfl⟩ := List.mem_map.1 hwork
      exact .loose rfl
    · simp only [List.mem_cons] at hwork
      rcases hwork with rfl | rfl | hwork
      · exact .closing hasks
      · exact .loose rfl
      · exact .loose (hmore work hwork)

theorem begets_answer {query : Query} (hasks : event.asks? = some query) {more : List (Work σ)}
    (hmore : ∀ work ∈ more, work.isLoose = true) :
    Begets plugins e event ((e.answer query).todo ++ more) := by
  have moved : ∀ id caller program entry,
      Begets plugins e event ((e.transfer id caller program entry).todo ++ more) := by
    intro id caller program entry
    rcases Engine.transfer_cases (e := e) id caller program entry with
      ⟨error, hrefused⟩ | ⟨t, p, ht, hprep, hgranted⟩
    · rw [hrefused]
      exact .loose hmore
    · rw [hgranted]
      exact .moved ((Engine.phase?_eq ht).trans (congrArg some hprep.phase.1)) hmore
  cases query with
  | execute id program entry => exact moved _ _ _ _
  | transfer context program entry => exact moved _ _ _ _
  | destroy id =>
    simp only [Engine.answer, Engine.destroyThread]
    split
    · apply Begets.loose
      simpa [Work.isLoose] using hmore
    · exact .loose hmore
  | core query =>
    simp only [Engine.answer]
    split
    · cases query with
      | createThread overrides =>
        rcases Engine.createThread_cases (e := e) overrides with
          ⟨error, -, htodo, -⟩ | ⟨-, htodo, -⟩
        · simp only [Engine.answerCore, htodo]
          exact .loose hmore
        · simp only [Engine.answerCore, htodo]
          apply Begets.told
          simpa [Work.isLoose] using hmore
      | destroyAll =>
        apply Begets.loose
        intro work hwork
        rcases List.mem_append.1 hwork with hwork | hwork
        · obtain ⟨id, -, rfl⟩ := List.mem_map.1 hwork
          rfl
        · exact hmore work hwork
      | destroyCore =>
        simp only [Engine.answerCore, List.append_assoc]
        exact .closing hasks hmore
      | initializeCore =>
        simp only [Engine.answerCore]
        split
        · exact .loose hmore
        · apply Begets.loose
          simpa [Work.isLoose] using hmore
      | _ => exact .loose hmore
    · exact .loose hmore
  | _ => exact .loose hmore

theorem begets_of_workedOff {work : Work σ} {e' : Engine σ}
    (h : e.WorkedOff plugins work todo e') : Begets plugins e (.work work) todo := by
  have goes_on : ∀ {work next : Work σ}, next.isLoose = true →
      Begets plugins e (.work work) [next] := by
    intro work next hnext
    exact .loose (by simpa using hnext)
  cases h with
  | @asked _ next query hasks hnext =>
    have hevent : (Event.work work).asks? = some query := hasks
    apply begets_answer hevent
    cases hnext <;> simp [Work.isLoose]
  | continued hasks hnext => cases hnext <;> exact goes_on rfl
  | ended hrunning => exact .told (by simp [Work.isLoose])
  | failed hcurrent =>
    obtain ⟨t, ht, hcurrent⟩ := Engine.exists_of_look hcurrent
    obtain ⟨hphase, -⟩ := ThreadState.isCurrent_iff.1 hcurrent
    exact .failing (.inr ((Engine.phase?_eq ht).trans (congrArg some hphase)))
  | called => exact .called
  | announced => exact .told (by simp)
  | aborted => exact goes_on rfl
  | exhausted => exact goes_on rfl
  | fatal => exact .failing (.inl rfl)
  | dispatched => exact .told (by simp [Work.isLoose])
  | @completed context t p ht hprep =>
    have hmoved : Begets plugins e (.work (.complete context))
        (Engine.advanceWork context.thread p.run.1 ++ []) :=
      .moved ((Engine.phase?_eq ht).trans (congrArg some hprep.phase.1)) (by simp)
    rwa [List.append_nil] at hmoved
  | reported => exact .told (by simp [Work.isLoose])
  | destroying hrunning => exact .ending
  | cleared => exact .cleared
  | _ => exact .loose (by simp)

/-- What a step puts on the stack comes above all that it leaves there. -/
theorem Step.begets (h : Step plugins m event m') :
    ∃ todo, m'.stack = todo ++ m.stack.tail ∧ Begets plugins m.engine event todo := by
  cases h with
  | @work e work rest =>
    exact ⟨_, rfl, begets_of_workedOff (Engine.workedOff_perform plugins e work)⟩
  | @task e before after task hqueue =>
    refine ⟨_, (List.append_nil _).symm, ?_⟩
    cases task with
    | start other =>
      rcases take_start_cases plugins { e with queue := before ++ after } other with
        ⟨-, htake⟩ | ⟨t, ht, ⟨-, -, htake⟩ | ⟨p, hprep, htake⟩⟩
      · rw [htake]
        exact .loose (by simp)
      · rw [htake]
        exact .loose (by simp [Work.isLoose])
      · have hphase : e.phase? other = some .running :=
          (Engine.phase?_eq ht).trans (congrArg some hprep.phase.1)
        have hmoved : Begets plugins e (.task (.start other))
            (Engine.advanceWork other p.run.1 ++ []) := .moved hphase (by simp)
        rw [htake]
        rwa [List.append_nil] at hmoved
    | begin script => exact .loose (by simp [take, Work.isLoose])
    | resume context rest => exact .loose (by simp [take, Work.isLoose])
  | @ask e query =>
    have hanswer : Begets plugins e (.ask query) ((e.answer query).todo ++ []) :=
      begets_answer rfl (by simp)
    rw [List.append_nil] at hanswer
    exact ⟨_, rfl, hanswer⟩
  | permits tag count => exact ⟨[], rfl, .loose (by simp)⟩
  | letGo => exact ⟨[], rfl, .loose (by simp)⟩
  | outside host log => exact ⟨[], rfl, .loose (by simp)⟩

/-- What stands somewhere on the stack after a step was put there, or stood there before, below the
item that was done. -/
theorem Step.split_cases (h : Step plugins m event m') {next : Work σ} {below : List (Work σ)}
    (hsplit : m'.stack = above ++ next :: below) :
    (∃ more, Begets plugins m.engine event (above ++ next :: more) ∧
        below = more ++ m.stack.tail) ∨
      ∃ first todo lower, m.stack = first :: (lower ++ next :: below) ∧ above = todo ++ lower := by
  obtain ⟨todo, hstack', hbegets⟩ := h.begets
  rw [hstack'] at hsplit
  have stood : ∀ lower, m.stack.tail = lower ++ next :: below →
      ∃ first, m.stack = first :: (lower ++ next :: below) := by
    intro lower htail
    cases hstack : m.stack with
    | nil => simp [hstack] at htail
    | cons first rest =>
      rw [hstack] at htail
      exact ⟨first, congrArg _ htail⟩
  rcases List.append_eq_append_iff.1 hsplit with ⟨lower, habove, htail⟩ | ⟨more, htodo, hbelow⟩
  · obtain ⟨first, hstack⟩ := stood lower htail
    exact .inr ⟨first, todo, lower, hstack, habove⟩
  · cases more with
    | nil =>
      obtain ⟨first, hstack⟩ := stood [] hbelow.symm
      exact .inr ⟨first, above, [], hstack, (List.append_nil _).symm⟩
    | cons put more =>
      cases hbelow
      exact .inl ⟨more, htodo ▸ hbegets, rfl⟩

/-! ## Rounds of the services -/

/-- A round of the services is going on, and `rest` comes after it. -/
def InRound (n : Notification) (rest stack : List (Work σ)) : Prop :=
  ∃ above services, stack = above ++ .notify services n :: rest

/-- Whatever a step of a round does, the round goes on, or it is over. -/
theorem Step.inRound (h : Step plugins m event m') (hround : InRound n rest m.stack) :
    InRound n rest m'.stack ∨ m'.stack = rest := by
  obtain ⟨above, services, hstack⟩ := hround
  cases above with
  | nil =>
    obtain ⟨e, stack⟩ := m
    cases hstack
    cases h
    cases services with
    | nil => exact .inr rfl
    | cons first services => exact .inl ⟨[_], services, rfl⟩
  | cons first above =>
    -- the round is below what is done first, and stays there
    obtain ⟨todo, hstack', -⟩ := h.begets
    rw [hstack] at hstack'
    exact .inl ⟨todo ++ above, services, by simp [hstack']⟩

/-- Services that ask for nothing are called one after the other, and nothing else is done until
they are. -/
def Hushed (n : Notification) (stack : List (Work σ)) : Prop :=
  ∀ above services rest, stack = above ++ .notify services n :: rest →
    above = [] ∨ ∃ code, above = [.hook n code] ∧ code.Quiet

/-- A round is put on top of the stack, or it goes on below the service that is called. -/
theorem Begets.round_first {services : ServiceSet} {more : List (Work σ)}
    (h : Begets plugins e event (above ++ .notify services n :: more)) :
    above = [] ∨ ∃ first, event = .work (.notify (first :: services) n) ∧
      above = [.hook n (plugins.service first n)] := by
  generalize htodo : above ++ .notify services n :: more = todo at h
  have hmem : .notify services n ∈ todo := by
    rw [← htodo]
    exact List.mem_append_right _ List.mem_cons_self
  -- nothing but the first item tells the services
  have first : ∀ {work : Work σ} {below : List (Work σ)}, todo = work :: below →
      .notify services n ∉ below → above = [] := by
    intro work below heq hnot
    rw [← htodo] at heq
    cases above with
    | nil => rfl
    | cons top above =>
      cases heq
      exact absurd (List.mem_append_right _ List.mem_cons_self) hnot
  have not_loose : ∀ {below : List (Work σ)}, (∀ work ∈ below, work.isLoose = true) →
      .notify services n ∉ below := by
    intro below hloose hnotify
    cases hloose _ hnotify
  cases h with
  | loose hloose => exact absurd hmem (not_loose hloose)
  | moved hrunning hmore =>
    rcases List.mem_append.1 hmem with hmem | hmem
    · rcases mem_advanceWork hmem with ⟨script, habort⟩ | harrive
      · cases habort
      · cases harrive
    · exact absurd hmem (not_loose hmore)
  | told hmore => exact .inl (first rfl (not_loose hmore))
  | @called called services' notification =>
    cases above with
    | nil => exact .inl rfl
    | cons top above =>
      obtain ⟨rfl, hbelow⟩ := List.cons.inj htodo
      rcases List.append_eq_singleton_iff.1 hbelow with ⟨rfl, hnotify⟩ | ⟨-, hnil⟩
      · cases hnotify
        exact .inr ⟨called, rfl, rfl⟩
      · cases hnil
  | failing hfails => simp at hmem
  | ending => exact .inl (first rfl (by simp))
  | cleared => simp at hmem
  | closing hasks hmore =>
    simp only [List.mem_append, List.mem_map, List.mem_cons, reduceCtorEq, false_or, and_false,
      exists_false] at hmem
    exact absurd hmem (not_loose hmore)

theorem Step.hushed (h : Step plugins m event m')
    (hquiet : ∀ service, (plugins.service service n).Quiet) (hhushed : Hushed n m.stack) :
    Hushed n m'.stack := by
  intro above services rest hsplit
  rcases h.split_cases hsplit with ⟨more, hbegets, -⟩ | ⟨first, todo, lower, hbelow, rfl⟩
  · rcases hbegets.round_first with habove | ⟨first, -, habove⟩
    · exact .inl habove
    · exact .inr ⟨_, habove, hquiet first⟩
  · -- the round is below what is done first, which is a service that asks for nothing
    rcases hhushed (first :: lower) _ _ hbelow with hnil | ⟨code, hfirst, hcode⟩
    · cases hnil
    · cases hfirst
      obtain ⟨e, stack⟩ := m
      cases hbelow
      cases h
      rw [List.append_nil] at hsplit ⊢
      have htodo := List.append_cancel_right hsplit
      subst htodo
      cases hcode with
      | pure outcome => cases outcome <;> exact .inl rfl
      | log hnext => exact .inr ⟨_, rfl, hnext⟩
      | update hnext => exact .inr ⟨_, rfl, hnext _⟩
      | @wait reason _ _ => cases reason

theorem Run.hushed {host : σ} {config : CoreConfig} {stages : List (Stage σ)}
    (h : Run plugins (opened host config) stages m)
    (hquiet : ∀ service, (plugins.service service n).Quiet) : Hushed n m.stack := by
  induction h with
  | start =>
    intro above services rest hsplit
    simp [opened] at hsplit
  | step hrun hstep ih => exact hstep.hushed hquiet ih

/-- A step in a round in which services ask for nothing calls a service, or is a step of one. -/
theorem Hushed.event_cases (hhushed : Hushed n m.stack) (h : Step plugins m event m')
    (hround : InRound n rest m.stack) :
    (∃ services, event = .work (.notify services n)) ∨
      ∃ code, event = .work (.hook n code) ∧ code.Quiet := by
  obtain ⟨above, services, hstack⟩ := hround
  rcases hhushed _ _ _ hstack with rfl | ⟨code, rfl, hcode⟩
  · exact .inl ⟨services, h.event_of_stack hstack⟩
  · exact .inr ⟨code, h.event_of_stack hstack, hcode⟩

/-! ## Destructions -/

/-- What is on the stack stays there until it is done. -/
theorem Step.stays (h : Step plugins m event m') {work : Work σ} (hwork : work ∈ m.stack)
    (hnot : event ≠ .work work) : work ∈ m'.stack := by
  obtain ⟨todo, hstack', -⟩ := h.begets
  rw [hstack']
  cases hstack : m.stack with
  | nil =>
    rw [hstack] at hwork
    cases hwork
  | cons first rest =>
    rw [hstack] at hwork
    rcases List.mem_cons.1 hwork with rfl | hwork
    · exact absurd (h.event_of_stack hstack) hnot
    · exact List.mem_append_right _ hwork

theorem Step.clear_mem_of_ends (h : Step plugins m event m')
    (hends : event.ends? m.engine = some id) : .clear id ∈ m'.stack := by
  obtain ⟨rfl, hrunning⟩ := Event.ends?_eq_some_iff.1 hends
  cases h with
  | work =>
    rw [← Engine.look_isRunning_iff] at hrunning
    simp [perform, hrunning]

theorem Step.release_mem_of_clears (h : Step plugins m event m')
    (hclears : event.clears? = some id) : .release id ∈ m'.stack := by
  cases Event.clears?_eq_some_iff.1 hclears
  cases h with
  | work => simp [perform]

/-- A destruction that has begun is still on the stack until it is over. -/
structure Underway (m : Machine σ) : Prop where
  known : ∀ id ∈ m.engine.active, m.engine.thread? id ≠ none
  clearing : ∀ id, m.engine.phase? id = some .destroying → .clear id ∈ m.stack
  releasing : ∀ id ∈ m.engine.active, m.engine.phase? id = some .destroyed → .release id ∈ m.stack

/-- An active thread was active before, or has just come into being. -/
theorem Step.active_cases (h : Step plugins m event m') (hactive : id ∈ m'.engine.active) :
    (id ∈ m.engine.active ∧ event ≠ .work (.release id)) ∨
      m.engine.thread? id = none ∧ m'.engine.thread? id ≠ none := by
  have active_eq : ∀ {active count}, m'.engine.roll = (active, count) → m'.engine.active = active :=
    fun hroll => congrArg Prod.fst hroll
  cases h.enrols with
  | same hreleases hroll =>
    rw [active_eq hroll] at hactive
    refine .inl ⟨hactive, ?_⟩
    rintro rfl
    cases hreleases
  | created hasks hreply hroll =>
    rw [active_eq hroll] at hactive
    rcases List.mem_append.1 hactive with hactive | hnew
    · refine .inl ⟨hactive, ?_⟩
      rintro rfl
      cases hasks
    · -- the thread that was created stands behind all the others
      have hcount : m'.engine.threads.length = m.engine.threads.length + 1 :=
        congrArg Prod.snd hroll
      rw [List.mem_singleton.1 hnew]
      simp [Engine.thread?, hcount]
  | released hevent hroll =>
    rw [active_eq hroll] at hactive
    obtain ⟨hactive, hne⟩ := List.mem_filter.1 hactive
    refine .inl ⟨hactive, ?_⟩
    rw [hevent]
    rintro ⟨⟩
    simp at hne

/-- Threads are never forgotten. -/
theorem Step.thread?_ne_none (h : Step plugins m event m') (hn : m.engine.Numbered)
    (hthread : m.engine.thread? id ≠ none) : m'.engine.thread? id ≠ none := by
  obtain ⟨t, ht⟩ := Option.ne_none_iff_exists'.1 hthread
  obtain ⟨t', ht', -⟩ := h.affects hn ht
  simp [ht']

theorem Underway.step (hu : Underway m) (h : Step plugins m event m') (hn : m.engine.Numbered) :
    Underway m' where
  known := by
    intro id hactive
    rcases h.active_cases hactive with ⟨hactive, -⟩ | ⟨-, hborn⟩
    · exact h.thread?_ne_none hn (hu.known id hactive)
    · exact hborn
  clearing := by
    intro id hdestroying
    cases h.ages hn id with
    | same hends hclears hphase =>
      -- what is still to be cleared stays on the stack, as this step does not clear it
      have hbefore := hphase.symm.trans hdestroying
      refine h.stays (hu.clearing id hbefore) ?_
      intro hevent
      cases (hclears (Event.clears?_eq_some_iff.2 hevent)).symm.trans hbefore
    | born hbefore hafter => cases hafter.symm.trans hdestroying
    | ending hends hafter => exact h.clear_mem_of_ends hends
    | cleared hclears hafter => cases hafter.symm.trans hdestroying
  releasing := by
    intro id hactive hdestroyed
    cases h.ages hn id with
    | same hends hclears hphase =>
      have hbefore := hphase.symm.trans hdestroyed
      rcases h.active_cases hactive with ⟨hactive, hnot⟩ | ⟨hnone, -⟩
      · exact h.stays (hu.releasing id hactive hbefore) hnot
      · cases (Engine.phase?_eq_none_iff.2 hnone).symm.trans hbefore
    | born hbefore hafter => cases hafter.symm.trans hdestroyed
    | ending hends hafter => cases hafter.symm.trans hdestroyed
    | cleared hclears hafter => exact h.release_mem_of_clears hclears

theorem Run.underway {host : σ} {config : CoreConfig} {stages : List (Stage σ)}
    (h : Run plugins (opened host config) stages m) : Underway m := by
  induction h with
  | start =>
    constructor
    · simp [opened, Engine.new]
    · simp [opened, Engine.new, Engine.phase?, Engine.thread?]
    · simp [opened, Engine.new]
  | step hrun hstep ih => exact ih.step hstep hrun.invariant.numbered

/-- A thread that stays active without running is being destroyed. -/
theorem Underway.leaving (hu : Underway m) (hactive : id ∈ m.engine.active)
    (hphase : m.engine.phase? id ≠ some .running) :
    .clear id ∈ m.stack ∨ .release id ∈ m.stack := by
  rcases hsome : m.engine.phase? id with _ | phase
  · exact absurd (Engine.phase?_eq_none_iff.1 hsome) (hu.known id hactive)
  · cases phase with
    | running => exact absurd hsome hphase
    | destroying => exact .inl (hu.clearing id hsome)
    | destroyed => exact .inr (hu.releasing id hactive hsome)

/-! ## Threads that run no more -/

/-- A thread is there and does not run any more. -/
def Past (id : ThreadId) (m : Machine σ) : Prop :=
  ∃ t, m.engine.thread? id = some t ∧ t.phase ≠ .running

theorem Past.not_running (h : Past id m) : m.engine.phase? id ≠ some .running := by
  obtain ⟨t, ht, hphase⟩ := h
  rw [Engine.phase?_eq ht]
  simpa using hphase

theorem Past.step (h : Past id m) (hstep : Step plugins m event m') (hn : m.engine.Numbered) :
    Past id m' := by
  obtain ⟨t, ht, hphase⟩ := h
  obtain ⟨t', ht', haffects⟩ := hstep.affects hn ht
  exact ⟨t', ht', fun hrunning => hphase (haffects.running hrunning)⟩

/-- A thread whose destruction was asked for runs no more. -/
theorem Step.past_of_destroy (hstep : Step plugins m (.work (.destroy id)) m')
    (hn : m.engine.Numbered) (ht : m.engine.thread? id = some t) : Past id m' := by
  obtain ⟨t', ht', -⟩ := hstep.affects hn ht
  refine ⟨t', ht', ?_⟩
  have hthere : m.engine.phase? id ≠ none := by simp [Engine.phase?_eq ht]
  cases hstep.ages hn id with
  | same hends hclears hphase =>
    intro hrunning
    rw [Engine.phase?_eq ht', hrunning] at hphase
    exact hends (Event.ends?_eq_some_iff.2 ⟨rfl, hphase.symm⟩)
  | born hbefore hafter => exact absurd hbefore hthere
  | ending hends hafter =>
    rw [Engine.phase?_eq ht'] at hafter
    simp [Option.some.inj hafter]
  | cleared hclears hafter => cases hclears

/-! ## Dispatches -/

/-- Only a thread that runs dispatches, when it is taken up, handed to a program or completed. -/
theorem Step.dispatching (h : Step plugins m event m') (hm : Invariant m) {a : Instance}
    (hdispatched : Stage.dispatched? id ⟨m, event, m'⟩ = some a) :
    m.engine.phase? id = some .running ∧
      (m.stack = [] ∨ (∃ query, event.asks? = some query) ∨
        ∃ context, event = .work (.complete context)) := by
  rcases ht : m.engine.thread? id with _ | t
  · obtain ⟨-, hticket, -, hticket'⟩ := h.slot_of_none hm ht
    simp [Stage.dispatched?, hticket, hticket'] at hdispatched
  · obtain ⟨t', ht', haffects⟩ := h.affects hm.numbered ht
    have unmoved : t'.ticket ≠ t.ticket := by
      intro hticket
      simp [Stage.dispatched?, lastTicket_eq ht, lastTicket_eq ht', hticket] at hdispatched
    rw [Engine.phase?_eq ht]
    revert haffects
    generalize event.moveOf id t = move
    intro haffects
    cases haffects with
    | still hagree => exact absurd hagree.ticket.symm unmoved
    | assigned hagree => exact absurd hagree.of_setVar.ticket.symm unmoved
    | resumed hprep hagree hbefore => exact ⟨congrArg some hprep.phase.1, .inl hbefore⟩
    | executed hprep hagree hasks =>
      exact ⟨congrArg some hprep.phase.1, .inr (.inl ⟨_, hasks⟩)⟩
    | completed hid hprep hagree hbefore =>
      exact ⟨congrArg some hprep.phase.1, .inr (.inr ⟨_, h.event_of_stack hbefore⟩)⟩
    | failed hid hcurrent hagree => exact absurd hagree.ticket.symm unmoved
    | destroying hphase hagree => exact absurd hagree.ticket.symm unmoved
    | cleared hagree => exact absurd hagree.ticket.symm unmoved

/-! ## A small engine with a service -/

/-- The small engine with one service, once its thread is created. -/
def attended : Machine Unit :=
  let registered :=
    ((opened () sampleConfig).ask (.core (.registerScript "a" ⟨"a", some [], "a"⟩))).2
  let served := (registered.ask (.core (.registerService 0))).2
  (served.ask (.core (.createThread none))).2

theorem exists_run_attended (plugins : Plugins Unit) :
    ∃ stages, Run plugins (opened () sampleConfig) stages attended := by
  have hregistered := (.start : Run plugins (opened () sampleConfig) [] _).step
    (.ask (.core (.registerScript "a" ⟨"a", some [], "a"⟩)))
  have hserved := hregistered.step (.ask (.core (.registerService 0)))
  exact ⟨_, hserved.step (.ask (.core (.createThread none)))⟩

end Machine
end SentenceEngine
