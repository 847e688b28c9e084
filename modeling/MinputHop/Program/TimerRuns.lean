import MinputHop.Program.Upkeep

/-!
# Runs of the timer

As long as only the timer fires and every message box is closed at once, the message
loop of Windows is the loop that Unix has: it goes through the same iterations, between
which it is in the same states, and it ends with the same error.
-/

namespace MinputHop

/-- An iteration comes to what `minput_loop_iter` returns. -/
theorem minputLoopIter_of_visits {host : Host} {input : IterInput} {s s' : Sys} {retval : Int}
    (visits : Visits host input s (.returned retval) s') :
    minputLoopIter host input s = (retval, s') := by
  have same := visits.eq_of_rests rfl (minputLoopIter_visits host input s) rfl
  obtain ⟨stage_eq, rfl⟩ := Prod.mk.inj same
  obtain rfl := Stage.returned.inj stage_eq
  rfl

theorem osioLoop_concat {host : Host} {inputs : List IterInput} {input : IterInput}
    {s before s' : Sys} {retval : Int} (looped : osioLoop host inputs s = (0, before))
    (iterated : minputLoopIter host input before = (retval, s')) :
    osioLoop host (inputs ++ [input]) s = (retval, s') := by
  rw [osioLoop_append looped, osioLoop_cons iterated]
  split
  · next ok => rw [ok, osioLoop]
  · rfl

theorem closeAtOnce_at (stage : Stage) (s : Sys) : closeAtOnce (.at stage, s) = (.at stage, s) := rfl

/-- Where the message loop is, when the loop of Unix started in the same state. -/
inductive Mirrors (host : Host) (start : Sys) : MessageLoop → Prop where
  /-- Between two iterations. -/
  | idle {inputs : List IterInput} {s : Sys} {msg : Option Delivery}
      (looped : osioLoop host inputs start = (0, s))
      (timers : ∀ delivery, msg = some delivery → ∃ input, delivery.message = .timer input) :
      Mirrors host start ⟨⟨[], s, .running⟩, msg, none, none⟩
  /-- In an iteration, maybe in front of a message box that is about to be closed. -/
  | inside {inputs : List IterInput} {before settled : Sys} {stage : Stage} {input : IterInput}
      {delivery : Delivery} {reached : Point × Sys}
      (looped : osioLoop host inputs start = (0, before))
      (visits : Visits host input before stage settled)
      (settles : closeAtOnce (closeAtOnce reached) = (.at stage, settled))
      (timer : ∃ input, delivery.message = .timer input) :
      Mirrors host start (.inside delivery input reached)
  /-- Behind an iteration that failed. -/
  | broke {inputs : List IterInput} {code : Int} {s : Sys} {delivery : Delivery}
      (looped : osioLoop host inputs start = (code, s)) (failed : code ≠ 0)
      (timer : ∃ input, delivery.message = .timer input) :
      Mirrors host start
        ⟨⟨[], osioWinQuit false s, .quitting⟩, some delivery, some (.failed code), none⟩
  | ended {inputs : List IterInput} {code : Int} {s : Sys} {delivery : Delivery}
      (looped : osioLoop host inputs start = (code, s)) (failed : code ≠ 0) :
      Mirrors host start
        ⟨⟨[], osioPrintf .info "leaving message loop..." [] (osioWinQuit false s), .quitting⟩,
          some delivery, some (.failed code), some delivery.result⟩

section Mirrors

variable {platform : Platform} {host : Host} {start s s' : Sys} {loop next : MessageLoop}
  {delivery : Delivery} {input : IterInput} {reached : Point × Sys}

/-- What an action inside of an iteration does, it does to the innermost activation. -/
theorem MessageLoop.act_inside {action : ThreadAct}
    (taken : (MessageLoop.inside delivery input reached).act platform host (.dispatch action) =
      some next) :
    ∃ thread, Thread.act host action ⟨[⟨input, reached.1⟩], reached.2, .running⟩ = some thread ∧
      next = ⟨thread, some delivery,
        Thread.cause? action ⟨[⟨input, reached.1⟩], reached.2, .running⟩, none⟩ := by
  obtain ⟨_, taken⟩ := Option.ite_none_right_eq_some.mp taken
  obtain ⟨thread, nested, rfl⟩ := Option.map_eq_some_iff.mp taken
  obtain ⟨thread', acted, rfl⟩ := Option.map_eq_some_iff.mp nested
  refine ⟨thread', acted, ?_⟩
  split
  · next running => rw [← running]; rfl
  · rfl

/-- The iteration goes on by a stage, or ends. -/
theorem mirrors_proceed {inputs : List IterInput} {before : Sys} {stage : Stage}
    (looped : osioLoop host inputs start = (0, before))
    (visits : Visits host input before stage s) (timer : ∃ input, delivery.message = .timer input)
    (taken : (MessageLoop.inside delivery input (.at stage, s)).act platform host
      (.dispatch (.proceed true)) = some next) : Mirrors host start next := by
  obtain ⟨thread, acted, rfl⟩ := MessageLoop.act_inside taken
  cases stage with
  | connect | fetch | process | keepalive =>
      rw [Thread.act_proceed fun _ => Stage.noConfusion] at acted
      obtain rfl := Option.some.inj acted
      exact .inside looped visits.step (closeAtOnce_stepPoint host input _ s) timer
  | returned retval =>
      have iterated := osioLoop_concat looped (minputLoopIter_of_visits visits)
      by_cases ok : retval = 0
      · subst ok
        obtain rfl := Option.some.inj acted
        exact .idle iterated fun other same => Option.some.inj same ▸ timer
      · rw [Thread.act, if_neg ok] at acted
        obtain rfl := Option.some.inj acted
        rw [Thread.cause?, if_neg ok]
        exact .broke iterated ok timer

/-- So it does when a message box is closed. -/
theorem mirrors_dispatched {action : ThreadAct} {inputs : List IterInput} {before settled : Sys}
    {stage : Stage} (admitted : undisturbed (.dispatch action) (.inside delivery input reached))
    (looped : osioLoop host inputs start = (0, before))
    (visits : Visits host input before stage settled)
    (settles : closeAtOnce (closeAtOnce reached) = (.at stage, settled))
    (timer : ∃ input, delivery.message = .timer input)
    (taken : (MessageLoop.inside delivery input reached).act platform host (.dispatch action) =
      some next) : Mirrors host start next := by
  cases action with
  | timer | exit | save | leave => exact absurd admitted id
  | proceed allocated =>
      obtain rfl : allocated = true := admitted
      obtain ⟨stage' | dialog, s⟩ := reached
      · obtain ⟨point_eq, rfl⟩ := Prod.mk.inj settles
        obtain rfl := Point.at.inj point_eq
        exact mirrors_proceed looped visits timer taken
      · obtain ⟨thread, acted, _⟩ := MessageLoop.act_inside taken
        cases acted
  | close =>
      obtain ⟨thread, acted, rfl⟩ := MessageLoop.act_inside taken
      obtain ⟨stage' | dialog, s⟩ := reached
      · cases acted
      · obtain ⟨⟨point, s'⟩, closes, rfl⟩ := Option.map_eq_some_iff.mp acted
        have once : closeAtOnce (.dialog dialog, s) = (point, s') := by
          rw [closeAtOnce, closes]
          rfl
        rw [once] at settles
        have settled_eq : closeAtOnce (closeAtOnce (point, s')) = (.at stage, settled) := by
          rw [settles, closeAtOnce_at]
        exact .inside looped visits settled_eq timer

theorem Delivery.of_timer (timer : delivery.message = .timer input) (s : Sys) (phase : Phase) :
    afterDispatch delivery s phase = (delivery.result, s, phase) ∧ 0 < delivery.result ∧
      delivery.message.isModal = false := by
  obtain ⟨message, result, contract⟩ := delivery
  obtain rfl : message = .timer input := timer
  exact ⟨rfl, contract, rfl⟩

/-- Behind the iteration the loop goes round, or the timer fires. -/
theorem mirrors_between {action : LoopAct} {inputs : List IterInput} {msg : Option Delivery}
    (looped : osioLoop host inputs start = (0, s))
    (timers : ∀ delivery, msg = some delivery → ∃ input, delivery.message = .timer input)
    (admitted : undisturbed action ⟨⟨[], s, .running⟩, msg, none, none⟩)
    (moves : MessageLoop.Moves platform host action ⟨⟨[], s, .running⟩, msg, none, none⟩ next) :
    Mirrors host start next := by
  cases moves with
  | @got delivery _ _ _ quit handled =>
      obtain ⟨input, timer⟩ := admitted
      rw [timer] at handled
      cases Option.some.inj handled
      have entered : Mirrors host start (.inside delivery input (.at .connect, s)) :=
        .inside looped .enter (closeAtOnce_at .connect s) ⟨input, timer⟩
      exact entered
  | @dispatched _ delivery _ _ _ nests open' taken =>
      obtain ⟨input, timer⟩ := timers delivery rfl
      obtain ⟨_, _, notModal⟩ := Delivery.of_timer timer s .running
      rw [notModal] at open'
      exact absurd open' (by simp)
  | @again delivery _ s' _ _ retval behind more =>
      obtain ⟨input, timer⟩ := timers delivery rfl
      obtain ⟨same, _, _⟩ := Delivery.of_timer timer s .running
      obtain rfl : s = s' := (Prod.mk.inj (Prod.mk.inj (same.symm.trans behind)).2).1
      exact .idle looped fun delivery none => absurd none nofun
  | @left delivery _ s' _ phase' _ retval behind last =>
      obtain ⟨input, timer⟩ := timers delivery rfl
      obtain ⟨same, positive, _⟩ := Delivery.of_timer timer s .running
      obtain ⟨value, rest⟩ := Prod.mk.inj (same.symm.trans behind)
      exact absurd ⟨(Prod.mk.inj rest).2.symm, value ▸ positive⟩ last

/-- Behind a failure the loop is left. -/
theorem mirrors_broken {action : LoopAct} {inputs : List IterInput} {code : Int}
    (looped : osioLoop host inputs start = (code, s)) (failed : code ≠ 0)
    (timer : ∃ input, delivery.message = .timer input)
    (moves : MessageLoop.Moves platform host action
      ⟨⟨[], osioWinQuit false s, .quitting⟩, some delivery, some (.failed code), none⟩ next) :
    Mirrors host start next := by
  obtain ⟨input, timer⟩ := timer
  obtain ⟨same, _, notModal⟩ := Delivery.of_timer timer (osioWinQuit false s) .quitting
  cases moves with
  | dispatched nests open' taken =>
      rw [notModal] at open'
      exact absurd open' (by simp)
  | again behind more =>
      have phase := (Prod.mk.inj (Prod.mk.inj (same.symm.trans behind)).2).2
      cases phase
  | left behind last =>
      obtain ⟨rfl, rest⟩ := Prod.mk.inj (same.symm.trans behind)
      obtain ⟨rfl, rfl⟩ := Prod.mk.inj rest
      exact .ended looped failed

/-- Each action keeps the loops together. -/
theorem Mirrors.act {action : LoopAct} (mirrors : Mirrors host start loop)
    (admitted : undisturbed action loop) (taken : loop.act platform host action = some next) :
    Mirrors host start next := by
  cases mirrors with
  | ended => cases action <;> cases taken
  | inside looped visits settles timer =>
      cases action with
      | getMessage | test => cases taken
      | dispatch action => exact mirrors_dispatched admitted looped visits settles timer taken
  | broke looped failed timer =>
      exact mirrors_broken looped failed timer (MessageLoop.act_moves taken)
  | idle looped timers => exact mirrors_between looped timers admitted (MessageLoop.act_moves taken)

/-- Whatever the timer and the message boxes do, the loops stay together. -/
theorem MessageLoop.Reach.mirrors (reach : Reach platform host undisturbed (.start start true) loop) :
    Mirrors host start loop := by
  have looped : osioLoop host [] start = (0, start) := rfl
  have initial : Mirrors host start (.start start true) :=
    .idle looped fun delivery none => absurd none nofun
  exact ActionSystem.Reach.invariant initial
    (fun _ _ _ admitted taken mirrors => mirrors.act admitted taken) reach

/-- An iteration that fails ends the loop in this state. -/
theorem MessageLoop.Reach.ended {code : Int} (result : Int) (positive : 0 < result)
    (reach : Reach platform host undisturbed (.start start true) (.idle s))
    (iterated : minputLoopIter host input s = (code, s')) (failed : code ≠ 0) :
    Reach platform host undisturbed (.start start true)
      ⟨⟨[], osioPrintf .info "leaving message loop..." [] (osioWinQuit false s'), .quitting⟩,
        some (.timer input result positive), some (.failed code), some result⟩ := by
  have broke := Reach.dispatched (.proceed true) (Reach.fired result positive reach iterated) rfl rfl
    (if_neg failed)
  rw [Thread.cause?, if_neg failed] at broke
  exact .step .test broke trivial rfl

/-- With nothing but the timer, the message loop of Windows is between two iterations in
just the states that the loop of Unix is, and it ends with an error in just the states that
Unix ends with it, up to the quit and the last line of the log. -/
theorem timerRuns_iff (platform : Platform) (host : Host) (start : Sys) :
    (∀ s, MessageLoop.Reach platform host undisturbed (.start start true) (.idle s) ↔
      ∃ inputs, osioLoop host inputs start = (0, s)) ∧
    ∀ code thread, (∃ loop, MessageLoop.Reach platform host undisturbed (.start start true) loop ∧
        loop.cause = some (.failed code) ∧ loop.returned.isSome = true ∧ loop.thread = thread) ↔
      code ≠ 0 ∧ ∃ inputs s, osioLoop host inputs start = (code, s) ∧ thread =
        ⟨[], osioPrintf .info "leaving message loop..." [] (osioWinQuit false s), .quitting⟩ := by
  constructor
  · intro s
    constructor
    · intro reach
      cases reach.mirrors with
      | idle looped => exact ⟨_, looped⟩
    · rintro ⟨inputs, looped⟩
      exact MessageLoop.Reach.looped .start looped
  · intro code thread
    constructor
    · rintro ⟨loop, reach, cause, returned, rfl⟩
      cases reach.mirrors with
      | idle | inside => cases cause
      | broke => cases returned
      | ended looped failed =>
          cases cause
          exact ⟨failed, _, _, looped, rfl⟩
    · rintro ⟨failed, inputs, s, looped, rfl⟩
      obtain ⟨before, input, after, mid, _, around, iterated⟩ := osioLoop_failed looped failed
      have idle : MessageLoop.Reach platform host undisturbed (.start start true) (.idle mid) :=
        MessageLoop.Reach.looped .start around
      exact ⟨_, MessageLoop.Reach.ended 1 Int.one_pos idle iterated failed, rfl, rfl, rfl⟩

/-- A run in stages is a run of whole iterations, and one that is not finished. -/
theorem Reach.exists_osioLoop {Admits : IterInput → Stage → Sys → Prop} {stage : Stage}
    (reach : Reach host Admits start input stage s) :
    ∃ inputs before, osioLoop host inputs start = (0, before) ∧ Visits host input before stage s := by
  induction reach with
  | first input => exact ⟨[], start, rfl, .enter⟩
  | step _ _ ih =>
      obtain ⟨inputs, before, looped, visits⟩ := ih
      exact ⟨inputs, before, looped, visits.step⟩
  | next fresh _ ih =>
      obtain ⟨inputs, before, looped, visits⟩ := ih
      exact ⟨_, _, osioLoop_concat looped (minputLoopIter_of_visits visits), .enter⟩

/-- Behind an iteration the run in stages is a run of the message loop. -/
theorem Reach.on_windows {Admits : IterInput → Stage → Sys → Prop}
    (reach : Reach host Admits start input (.returned 0) s) :
    MessageLoop.Reach platform host undisturbed (.start start true) (.idle s) := by
  obtain ⟨inputs, before, looped, visits⟩ := Reach.exists_osioLoop reach
  exact MessageLoop.Reach.looped .start (osioLoop_concat looped (minputLoopIter_of_visits visits))

end Mirrors

end MinputHop
