import MinputHop.Program.Dialogs

/-!
# What `osio_loop` returns

On Unix the loop is left with what the last iteration returned.  On Windows the
loop keeps the value of `GetMessage()` in the same variable, and a quit that a
message leads to ends it before `WM_QUIT` is read.
-/

namespace MinputHop

/-! ## The message loop -/

/-- A message, by what `WndProc` does with it. -/
inductive Message where
  /-- `WM_TIMER` of the loop. -/
  | timer (input : IterInput)
  /-- A command to quit: "Exit" in the menu of the window, or on 16-bit Windows `WM_CLOSE`. -/
  | exit
  | save (fields : Fields) (input : IterInput)
  /-- The menu of the tray icon and what else reads messages until it is done. -/
  | modal
  /-- `WM_QUIT` -/
  | quit (wParam : Int)
  | other

def Message.isQuit : Message → Bool
  | .quit _ => true
  | _ => false

def Message.isModal : Message → Bool
  | .modal => true
  | _ => false

/-- A message, and what `GetMessage()` returns with it. -/
structure Delivery where
  message : Message
  result : Int
  contract : if message.isQuit then result = 0 else 0 < result

/-- Why `osio_win_quit` was called. -/
inductive Cause where
  /-- `WM_CREATE` could not set the window up. -/
  | create
  /-- An iteration returned this. -/
  | failed (retval : Int)
  | exit
  deriving DecidableEq

/-- `osio_loop` on Windows; `g_running` is 1 as long as the phase is `running`. -/
structure MessageLoop where
  thread : Thread
  /-- The message in hand. -/
  msg : Option Delivery
  /-- Why `g_running` was set to 0 first. -/
  cause : Option Cause
  returned : Option Int

/-- The call of `osio_loop`, which may find that `osio_ui_setup` led to a quit. -/
def MessageLoop.start (s : Sys) (gRunning : Bool) : MessageLoop :=
  ⟨⟨[], s, if gRunning then .running else .quitting⟩, none,
    if gRunning then none else some .create, none⟩

inductive LoopAct where
  | getMessage (delivery : Delivery)
  /-- Something goes on inside of `DispatchMessage()`. -/
  | dispatch (action : ThreadAct)
  /-- The rest of the loop, with its condition. -/
  | test

/-- Neither the button nor the end of the loop can be reached in the middle of a message. -/
def ThreadAct.nests : ThreadAct → Bool
  | .save _ _ | .leave => false
  | .timer _ | .exit | .proceed _ | .close => true

/-- An action inside of `DispatchMessage()`, where a menu reads messages even if
`osio_win_quit` was called before. -/
def Thread.nested (host : Host) (action : ThreadAct) (thread : Thread) : Option Thread :=
  (Thread.act host action { thread with phase := .running }).map fun next =>
    if next.phase = .running then { next with phase := thread.phase } else next

/-- What an action of the thread calls `osio_win_quit` for. -/
def Thread.cause? : ThreadAct → Thread → Option Cause
  | .exit, _ => some .exit
  | .proceed _, ⟨⟨_, .at (.returned retval)⟩ :: _, _, _⟩ =>
      if retval = 0 then none else some (.failed retval)
  | _, _ => none

/-- `WndProc`, up to where it calls a function that reads messages itself. -/
def wndProc (platform : Platform) (host : Host) : Message → Thread → Option (Option Cause × Thread)
  | .timer input, ⟨stack, s, phase⟩ => some (none, ⟨⟨input, .at .connect⟩ :: stack, s, phase⟩)
  | .exit, ⟨stack, s, _⟩ => some (some .exit, ⟨stack, osioWinQuit true s, .quitting⟩)
  | .save fields input, ⟨stack, s, phase⟩ =>
      (osioWinSaveFields platform host fields input s).map fun s => (none, ⟨stack, s, phase⟩)
  | .modal, thread | .quit _, thread | .other, thread => some (none, thread)

/-- The body of the loop behind `DispatchMessage()`: the value left in `retval`,
and `g_running`. -/
def afterDispatch (delivery : Delivery) (s : Sys) (phase : Phase) : Int × Sys × Phase :=
  match delivery.message with
  | .quit wParam =>
      (wParam,
        if phase = .running then
          osioPrintf .debug "found quit message while still running!" [] s
        else s,
        .quitting)
  | _ => (delivery.result, s, phase)

def MessageLoop.act (platform : Platform) (host : Host) :
    LoopAct → MessageLoop → Option MessageLoop
  | .getMessage delivery, ⟨thread, none, cause, none⟩ =>
      (wndProc platform host delivery.message thread).map fun (quit, thread) =>
        ⟨thread, some delivery, cause.or quit, none⟩
  | .dispatch action, ⟨thread, some delivery, cause, none⟩ =>
      if action.nests ∧ (thread.stack.isEmpty = false ∨ delivery.message.isModal) then
        (thread.nested host action).map fun next =>
          ⟨next, some delivery, cause.or (thread.cause? action), none⟩
      else none
  | .test, ⟨⟨[], s, phase⟩, some delivery, cause, none⟩ =>
      let (retval, s, phase) := afterDispatch delivery s phase
      if phase = .running ∧ 0 < retval then some ⟨⟨[], s, phase⟩, none, cause, none⟩
      else
        some ⟨⟨[], osioPrintf .info "leaving message loop..." [] s, phase⟩, some delivery, cause,
          some retval⟩
  | _, _ => none

/-- The states met in the runs of the loop all of whose actions are admitted. -/
abbrev MessageLoop.Reach (platform : Platform) (host : Host) :=
  ActionSystem.Reach (MessageLoop.act platform host)

def anyLoopAct (_ : LoopAct) (_ : MessageLoop) : Prop := True

/-- What `WinMain` says about the value that comes back to it. -/
def winMainReport (retval : Int) : List Event :=
  if retval ≠ 0 then [.printf true .error "quitting: %d" [.num retval]] else []

/-! ## What each action can do -/

/-- Every way the message loop can go. -/
inductive MessageLoop.Moves (platform : Platform) (host : Host) :
    LoopAct → MessageLoop → MessageLoop → Prop where
  | got {delivery : Delivery} {thread next : Thread} {cause quit : Option Cause}
      (handled : wndProc platform host delivery.message thread = some (quit, next)) :
      Moves platform host (.getMessage delivery) ⟨thread, none, cause, none⟩
        ⟨next, some delivery, cause.or quit, none⟩
  | dispatched {action : ThreadAct} {delivery : Delivery} {thread next : Thread}
      {cause : Option Cause} (nests : action.nests = true)
      (open' : thread.stack.isEmpty = false ∨ delivery.message.isModal = true)
      (taken : thread.nested host action = some next) :
      Moves platform host (.dispatch action) ⟨thread, some delivery, cause, none⟩
        ⟨next, some delivery, cause.or (thread.cause? action), none⟩
  | again {delivery : Delivery} {s s' : Sys} {phase : Phase} {cause : Option Cause} {retval : Int}
      (behind : afterDispatch delivery s phase = (retval, s', .running)) (more : 0 < retval) :
      Moves platform host .test ⟨⟨[], s, phase⟩, some delivery, cause, none⟩
        ⟨⟨[], s', .running⟩, none, cause, none⟩
  | left {delivery : Delivery} {s s' : Sys} {phase phase' : Phase} {cause : Option Cause}
      {retval : Int} (behind : afterDispatch delivery s phase = (retval, s', phase'))
      (last : ¬(phase' = .running ∧ 0 < retval)) :
      Moves platform host .test ⟨⟨[], s, phase⟩, some delivery, cause, none⟩
        ⟨⟨[], osioPrintf .info "leaving message loop..." [] s', phase'⟩, some delivery, cause,
          some retval⟩

section Moves

variable {platform : Platform} {host : Host}

theorem MessageLoop.act_moves {action : LoopAct} {loop next : MessageLoop}
    (taken : loop.act platform host action = some next) : Moves platform host action loop next := by
  obtain ⟨thread, msg, cause, returned⟩ := loop
  cases action with
  | getMessage delivery =>
      cases msg with
      | some delivery => cases taken
      | none =>
          cases returned with
          | some retval => cases taken
          | none =>
              obtain ⟨⟨quit, next⟩, handled, rfl⟩ := Option.map_eq_some_iff.mp taken
              exact .got handled
  | dispatch action =>
      cases msg with
      | none => cases taken
      | some delivery =>
          cases returned with
          | some retval => cases taken
          | none =>
              obtain ⟨⟨nests, open'⟩, taken⟩ := Option.ite_none_right_eq_some.mp taken
              obtain ⟨next, stepped, rfl⟩ := Option.map_eq_some_iff.mp taken
              exact .dispatched nests open' stepped
  | test =>
      obtain ⟨_ | ⟨activation, rest⟩, s, phase⟩ := thread
      · cases msg with
        | none => cases taken
        | some delivery =>
            cases returned with
            | some retval => cases taken
            | none =>
                rcases behind : afterDispatch delivery s phase with ⟨retval, s', phase'⟩
                rw [act, behind] at taken
                dsimp only at taken
                split at taken
                · next more =>
                    obtain ⟨rfl, more⟩ := more
                    exact Option.some.inj taken ▸ .again behind more
                · next last => exact Option.some.inj taken ▸ .left behind last
      · cases taken

/-- `osio_win_quit` is what ends the phase, and always does. -/
theorem Thread.phase_of_act {action : ThreadAct} {thread next : Thread}
    (nests : action.nests = true) (taken : thread.act host action = some next) :
    (thread.cause? action = none ∧ next.phase = thread.phase) ∨
      ((thread.cause? action).isSome = true ∧ next.phase = .quitting) := by
  cases Thread.act_moves taken with
  | entered | closed | again => exact .inl ⟨rfl, rfl⟩
  | exited => exact .inr ⟨rfl, rfl⟩
  | @proceeded _ _ stage _ _ _ _ _ running =>
      cases stage with
      | returned retval => exact absurd rfl (running retval)
      | connect | fetch | process | keepalive => exact .inl ⟨rfl, rfl⟩
  | broke error => exact .inr ⟨by rw [cause?, if_neg error]; rfl, rfl⟩
  | saved | left => exact absurd nests Bool.false_ne_true

theorem Thread.cause?_phase (action : ThreadAct) (thread : Thread) (phase : Phase) :
    Thread.cause? action { thread with phase := phase } = thread.cause? action := by
  cases action with
  | timer | exit | close | save | leave => rfl
  | proceed allocated =>
      obtain ⟨_ | ⟨⟨input, stage | dialog⟩, rest⟩, s, _⟩ := thread
      · rfl
      · cases stage <;> rfl
      · rfl

/-- Inside of a message it is the same. -/
theorem Thread.phase_of_nested {action : ThreadAct} {thread next : Thread}
    (nests : action.nests = true) (taken : thread.nested host action = some next) :
    (thread.cause? action = none ∧ next.phase = thread.phase) ∨
      ((thread.cause? action).isSome = true ∧ next.phase = .quitting) := by
  obtain ⟨reached, acted, rfl⟩ := Option.map_eq_some_iff.mp taken
  have phase := phase_of_act nests acted
  rw [cause?_phase] at phase
  rcases phase with ⟨quiet, kept⟩ | ⟨quits, ended⟩
  · rw [if_pos kept]
    exact .inl ⟨quiet, rfl⟩
  · rw [if_neg (by rw [ended]; decide)]
    exact .inr ⟨quits, ended⟩

/-- Before a quit the thread is the one of the main loop. -/
theorem Thread.nested_of_running {action : ThreadAct} {thread next : Thread}
    (running : thread.phase = .running) (taken : thread.act host action = some next) :
    thread.nested host action = some next := by
  obtain ⟨stack, s, phase⟩ := thread
  subst running
  rw [nested, taken, Option.map_some]
  split
  · next same => rw [← same]
  · rfl

theorem phase_of_wndProc {message : Message} {thread next : Thread} {quit : Option Cause}
    (handled : wndProc platform host message thread = some (quit, next)) :
    (quit = none ∧ next.phase = thread.phase) ∨ (quit = some .exit ∧ next.phase = .quitting) := by
  cases message with
  | timer | modal | quit | other =>
      cases Option.some.inj handled
      exact .inl ⟨rfl, rfl⟩
  | exit =>
      cases Option.some.inj handled
      exact .inr ⟨rfl, rfl⟩
  | save fields input =>
      obtain ⟨s, _, same⟩ := Option.map_eq_some_iff.mp handled
      cases same
      exact .inl ⟨rfl, rfl⟩

end Moves

/-! ## What comes back -/

/-- The status tells why the loop ended: with the code of the iteration that ended
it, with 0 when the user did; and only an error is reported. -/
structure ExitStatus (cause : Option Cause) (retval : Int) : Prop where
  failed : ∀ code, cause = some (.failed code) → retval = code
  exited : cause = some .exit → retval = 0
  reported : winMainReport retval ≠ [] → ∃ error, cause = some error ∧ error ≠ .exit

/-- The value that a message leaves in `retval`. -/
def Delivery.value (delivery : Delivery) : Int :=
  match delivery.message with
  | .quit wParam => wParam
  | _ => delivery.result

theorem Delivery.value_pos {delivery : Delivery} (other : ¬delivery.message.isQuit = true) :
    delivery.value = delivery.result ∧ 0 < delivery.value := by
  obtain ⟨message, result, contract⟩ := delivery
  rw [if_neg other] at contract
  cases message with
  | quit wParam => exact absurd rfl other
  | timer | exit | save | modal | other => exact ⟨rfl, contract⟩

theorem afterDispatch_eq {delivery : Delivery} {s s' : Sys} {phase phase' : Phase} {retval : Int}
    (behind : afterDispatch delivery s phase = (retval, s', phase')) :
    retval = delivery.value ∧
      phase' = if delivery.message.isQuit then .quitting else phase := by
  obtain ⟨message, result, contract⟩ := delivery
  cases message with
  | quit | timer | exit | save | modal | other =>
      cases behind
      exact ⟨rfl, rfl⟩

/-- `g_running` is 1 until there is a cause; a value has come from the message in
hand, and without a cause this was `WM_QUIT`. -/
structure MessageLoop.Consistent (loop : MessageLoop) : Prop where
  running : loop.returned = none → (loop.thread.phase = .running ↔ loop.cause = none)
  /-- Nothing has been dispatched, or only `WM_QUIT`. -/
  between : (∀ delivery, loop.msg = some delivery → delivery.message.isQuit = true) →
    loop.thread.stack = [] ∧ (loop.cause = none ∨ loop.cause = some .create)
  left : ∀ retval, loop.returned = some retval → ∃ delivery, loop.msg = some delivery ∧
    retval = delivery.value ∧ (loop.cause = none → delivery.message.isQuit = true)

section Consistent

variable {platform : Platform} {host : Host}

theorem MessageLoop.consistent_start (s : Sys) (gRunning : Bool) :
    (MessageLoop.start s gRunning).Consistent := by
  cases gRunning with
  | true => exact ⟨fun _ => ⟨fun _ => rfl, fun _ => rfl⟩, fun _ => ⟨rfl, .inl rfl⟩, nofun⟩
  | false => exact ⟨fun _ => ⟨nofun, nofun⟩, fun _ => ⟨rfl, .inr rfl⟩, nofun⟩

theorem MessageLoop.Moves.consistent {action : LoopAct} {loop next : MessageLoop}
    (moves : Moves platform host action loop next) (inv : loop.Consistent) : next.Consistent := by
  cases moves with
  | @got delivery thread next cause quit handled =>
      obtain ⟨idle, quiet⟩ := inv.between nofun
      have running := inv.running rfl
      refine ⟨fun _ => ?_, fun only => ?_, nofun⟩
      · rcases phase_of_wndProc handled with ⟨rfl, same⟩ | ⟨rfl, ended⟩
        · rw [Option.or_none, same]
          exact running
        · rw [ended]
          exact ⟨nofun, fun none => absurd (Option.or_eq_none_iff.mp none).2 nofun⟩
      · have isQuit := only delivery rfl
        obtain ⟨message, result, contract⟩ := delivery
        cases message with
        | quit wParam =>
            cases Option.some.inj handled
            rw [Option.or_none]
            exact ⟨idle, quiet⟩
        | timer | exit | save | modal | other => exact absurd isQuit Bool.false_ne_true
  | @dispatched action delivery thread next cause nests open' taken =>
      have running := inv.running rfl
      refine ⟨fun _ => ?_, fun only => ?_, nofun⟩
      · rcases Thread.phase_of_nested nests taken with ⟨quiet, same⟩ | ⟨quits, ended⟩
        · rw [quiet, Option.or_none, same]
          exact running
        · rw [ended]
          refine ⟨nofun, fun none => ?_⟩
          rw [(Option.or_eq_none_iff.mp none).2] at quits
          exact absurd quits Bool.false_ne_true
      · obtain ⟨idle, _⟩ := inv.between only
        have isQuit := only delivery rfl
        rcases open' with busy | modal
        · rw [show thread.stack = [] from idle] at busy
          exact absurd busy Bool.noConfusion
        · obtain ⟨message, result, contract⟩ := delivery
          cases message with
          | modal => exact absurd isQuit Bool.false_ne_true
          | timer | exit | save | quit | other => exact absurd modal Bool.false_ne_true
  | @again delivery s s' phase cause retval behind more =>
      obtain ⟨_, phase_eq⟩ := afterDispatch_eq behind
      split at phase_eq
      · cases phase_eq
      · have none : cause = none := (inv.running rfl).mp phase_eq.symm
        exact ⟨fun _ => ⟨fun _ => none, fun _ => rfl⟩, fun _ => ⟨rfl, .inl none⟩, nofun⟩
  | @left delivery s s' phase phase' cause retval behind last =>
      obtain ⟨value, phase_eq⟩ := afterDispatch_eq behind
      refine ⟨nofun, inv.between, fun _ same => ?_⟩
      obtain rfl := Option.some.inj same
      refine ⟨delivery, rfl, value, fun none => ?_⟩
      by_contra other
      rw [if_neg other] at phase_eq
      refine last ⟨?_, ?_⟩
      · rw [phase_eq]
        exact (inv.running rfl).mpr none
      · rw [value]
        exact (Delivery.value_pos other).2

theorem MessageLoop.Reach.consistent {Admits : LoopAct → MessageLoop → Prop} {s : Sys}
    {gRunning : Bool} {loop : MessageLoop}
    (reach : Reach platform host Admits (.start s gRunning) loop) : loop.Consistent :=
  ActionSystem.Reach.invariant (MessageLoop.consistent_start s gRunning)
    (fun _ _ _ _ taken inv => (MessageLoop.act_moves taken).consistent inv) reach

end Consistent

/-- The value of `GetMessage()` happens to be the status, if the loop ended for
this cause with this message. -/
def Delivery.Tells (delivery : Delivery) : Option Cause → Prop
  | none => delivery.message = .quit 0
  | some .create => True
  | some (.failed code) => delivery.result = code
  | some .exit => False

theorem ExitStatus.iff_values {cause : Option Cause} {retval : Int} :
    ExitStatus cause retval ↔
      (∀ code, cause = some (.failed code) → retval = code) ∧
        (cause = some .exit ∨ cause = none → retval = 0) := by
  have quiet : winMainReport retval ≠ [] ↔ retval ≠ 0 := by
    rw [winMainReport]
    by_cases zero : retval = 0
    · rw [if_neg (not_not.mpr zero)]
      exact iff_of_false (absurd rfl) (absurd zero)
    · rw [if_pos zero]
      exact iff_of_true (List.cons_ne_nil _ _) zero
  constructor
  · intro status
    refine ⟨status.failed, fun ended => ?_⟩
    by_contra reports
    obtain ⟨error, same, notExit⟩ := status.reported (quiet.mpr reports)
    rcases ended with exited | none
    · exact notExit (Option.some.inj (same.symm.trans exited))
    · exact absurd (same.symm.trans none) nofun
  · rintro ⟨failed, ended⟩
    refine ⟨failed, fun exited => ended (.inl exited), fun reports => ?_⟩
    have nonzero := quiet.mp reports
    cases cause with
    | none => exact absurd (ended (.inr rfl)) nonzero
    | some error => exact ⟨error, rfl, fun exit => nonzero (ended (.inl (exit ▸ rfl)))⟩

/-- On Windows the status is right exactly when the value of `GetMessage()`
happens to be. -/
theorem MessageLoop.exitStatus_iff {platform : Platform} {host : Host}
    {Admits : LoopAct → MessageLoop → Prop} {s : Sys} {gRunning : Bool} {loop : MessageLoop}
    {retval : Int} (reach : Reach platform host Admits (.start s gRunning) loop)
    (returned : loop.returned = some retval) :
    ∃ delivery, loop.msg = some delivery ∧
      (ExitStatus loop.cause retval ↔ delivery.Tells loop.cause) := by
  have inv := Reach.consistent reach
  obtain ⟨delivery, msg, rfl, unasked⟩ := inv.left retval returned
  refine ⟨delivery, msg, ?_⟩
  rw [ExitStatus.iff_values]
  have dispatched : ∀ cause, loop.cause = some cause → cause ≠ .create →
      delivery.value = delivery.result ∧ 0 < delivery.value := by
    intro cause same known
    refine delivery.value_pos fun isQuit => ?_
    obtain ⟨_, none | create⟩ := inv.between fun delivery' held => by
      rw [msg] at held
      exact Option.some.inj held ▸ isQuit
    · exact absurd (same.symm.trans none) nofun
    · exact known (Option.some.inj (same.symm.trans create))
  cases cause : loop.cause with
  | none =>
      obtain ⟨message, result, contract⟩ := delivery
      have isQuit := unasked cause
      cases message with
      | timer | exit | save | modal | other => exact absurd isQuit Bool.false_ne_true
      | quit wParam =>
          refine ⟨fun status => congrArg Message.quit (status.2 (.inr rfl)), fun told => ?_⟩
          exact ⟨nofun, fun _ => Message.quit.inj told⟩
  | some error =>
      cases error with
      | create => exact iff_of_true ⟨nofun, fun ended => ended.elim nofun nofun⟩ trivial
      | failed code =>
          have value := (dispatched _ cause nofun).1
          refine ⟨fun status => value.symm.trans (status.1 code rfl), fun told => ?_⟩
          refine ⟨fun code' same => ?_, fun ended => ended.elim nofun nofun⟩
          rw [value, told]
          exact Cause.failed.inj (Option.some.inj same)
      | exit =>
          have positive := (dispatched _ cause nofun).2
          exact ⟨fun status => absurd (status.2 (.inl rfl)) (by omega), False.elim⟩

/-! ## The loop that Unix has -/

/-- Behind an iteration that returns 0 the loop goes round, and else it ends. -/
theorem osioLoop_cons {host : Host} {input : IterInput} {s after : Sys} {code : Int}
    (iterated : minputLoopIter host input s = (code, after)) (rest : List IterInput) :
    osioLoop host (input :: rest) s =
      if code = 0 then osioLoop host rest after else (code, after) := by
  rw [osioLoop, iterated]

/-- A loop that returns 0 began with an iteration that did. -/
theorem osioLoop_zero {host : Host} {input : IterInput} {rest : List IterInput} {s s' : Sys}
    (looped : osioLoop host (input :: rest) s = (0, s')) :
    ∃ mid, minputLoopIter host input s = (0, mid) ∧ osioLoop host rest mid = (0, s') := by
  rcases iterated : minputLoopIter host input s with ⟨code, mid⟩
  rw [osioLoop_cons iterated] at looped
  by_cases ok : code = 0
  · rw [if_pos ok] at looped
    exact ⟨mid, by rw [ok], looped⟩
  · rw [if_neg ok] at looped
    exact absurd (Prod.mk.inj looped).1 ok

/-- The Unix loop ends with what the iteration that ended it returned. -/
theorem osioLoop_failed {host : Host} {inputs : List IterInput} {s s' : Sys} {retval : Int}
    (ran : osioLoop host inputs s = (retval, s')) (failed : retval ≠ 0) :
    ∃ before input after mid, inputs = before ++ input :: after ∧
      osioLoop host before s = (0, mid) ∧ minputLoopIter host input mid = (retval, s') := by
  induction inputs generalizing s with
  | nil => exact absurd (Prod.mk.inj ran).1.symm failed
  | cons input rest ih =>
      rcases iterated : minputLoopIter host input s with ⟨code, after⟩
      rw [osioLoop_cons iterated] at ran
      by_cases ok : code = 0
      · rw [if_pos ok] at ran
        obtain ⟨before, last, later, mid, rfl, looped, returned⟩ := ih ran
        refine ⟨input :: before, last, later, mid, rfl, ?_, returned⟩
        exact (osioLoop_cons iterated before).trans ((if_pos ok).trans looped)
      · rw [if_neg ok] at ran
        exact ⟨[], input, rest, s, rfl, rfl, iterated.trans ran⟩

theorem osioLoop_append {host : Host} {before : List IterInput} {s mid : Sys}
    (looped : osioLoop host before s = (0, mid)) (inputs : List IterInput) :
    osioLoop host (before ++ inputs) s = osioLoop host inputs mid := by
  induction before generalizing s with
  | nil => rw [← (Prod.mk.inj looped).2, List.nil_append]
  | cons input rest ih =>
      obtain ⟨after, iterated, looped⟩ := osioLoop_zero looped
      rw [List.cons_append, osioLoop_cons iterated, if_pos rfl]
      exact ih looped

/-- Only the timer fires, and every message box is closed at once. -/
def undisturbed : LoopAct → MessageLoop → Prop
  | .getMessage delivery, _ => ∃ input, delivery.message = .timer input
  | .dispatch (.proceed allocated), _ => allocated = true
  | .dispatch .close, _ | .test, _ => True
  | .dispatch _, _ => False

/-- The timer fires. -/
def Delivery.timer (input : IterInput) (result : Int) (positive : 0 < result) : Delivery where
  message := .timer input
  result := result
  contract := positive

section Undisturbed

variable {platform : Platform} {host : Host} {start : MessageLoop} {delivery : Delivery}
  {input : IterInput} {s s' : Sys}

/-- The state with one iteration at this point. -/
def MessageLoop.inside (delivery : Delivery) (input : IterInput) (reached : Point × Sys) :
    MessageLoop :=
  ⟨⟨[⟨input, reached.1⟩], reached.2, .running⟩, some delivery, none, none⟩

/-- What the innermost activation can do is an action of the loop. -/
theorem MessageLoop.Reach.dispatched {reached : Point × Sys} {next : Thread} (action : ThreadAct)
    (reach : Reach platform host undisturbed start (.inside delivery input reached))
    (admitted : undisturbed (.dispatch action) (.inside delivery input reached))
    (nests : action.nests = true)
    (taken : Thread.act host action ⟨[⟨input, reached.1⟩], reached.2, .running⟩ = some next) :
    Reach platform host undisturbed start
      ⟨next, some delivery, Thread.cause? action ⟨[⟨input, reached.1⟩], reached.2, .running⟩,
        none⟩ := by
  refine .step (.dispatch action) reach admitted ?_
  change (if action.nests = true ∧ _ then _ else _) = _
  rw [if_pos ⟨nests, .inl rfl⟩, Thread.nested_of_running rfl taken]
  rfl

theorem MessageLoop.Reach.closed {reached : Point × Sys}
    (reach : Reach platform host undisturbed start (.inside delivery input reached)) :
    Reach platform host undisturbed start (.inside delivery input (closeAtOnce reached)) := by
  obtain ⟨stage | dialog, s⟩ := reached
  · exact reach
  · rw [closeAtOnce]
    cases closes : closeDialog dialog s with
    | none => exact reach
    | some closed =>
        refine Reach.dispatched .close reach trivial rfl ?_
        change (closeDialog dialog s).map _ = _
        rw [closes]
        rfl

theorem MessageLoop.Reach.staged {stage : Stage}
    (reach : Reach platform host undisturbed start (.inside delivery input (.at stage, s))) :
    Reach platform host undisturbed start
      (.inside delivery input
        (.at (stageStep host input stage s).1, (stageStep host input stage s).2)) := by
  rw [← closeAtOnce_stepPoint]
  refine Reach.closed (Reach.closed ?_)
  cases stage with
  | returned retval => exact reach
  | connect | fetch | process | keepalive =>
      exact Reach.dispatched (.proceed true) reach rfl rfl rfl

/-- The whole iteration runs while the message of the timer is in hand. -/
theorem MessageLoop.Reach.iterated
    (reach : Reach platform host undisturbed start (.inside delivery input (.at .connect, s))) :
    Reach platform host undisturbed start
      (.inside delivery input
        (.at (.returned (minputLoopIter host input s).1), (minputLoopIter host input s).2)) := by
  have visited : ∀ {stage : Stage} {s' : Sys}, Visits host input s stage s' →
      Reach platform host undisturbed start (.inside delivery input (.at stage, s')) := by
    intro stage s' visits
    induction visits with
    | enter => exact reach
    | step _ ih => exact ih.staged
  exact visited (minputLoopIter_visits host input s)

/-- The loop before a message is read. -/
def MessageLoop.idle (s : Sys) : MessageLoop := ⟨⟨[], s, .running⟩, none, none, none⟩

/-- The timer fires, and an iteration runs up to what it returns. -/
theorem MessageLoop.Reach.fired {retval : Int} (result : Int) (positive : 0 < result)
    (reach : Reach platform host undisturbed start (.idle s))
    (iterated : minputLoopIter host input s = (retval, s')) :
    Reach platform host undisturbed start
      (.inside (.timer input result positive) input (.at (.returned retval), s')) := by
  have entered : Reach platform host undisturbed start
      (.inside (.timer input result positive) input (.at .connect, s)) :=
    .step (.getMessage (.timer input result positive)) reach ⟨input, rfl⟩ rfl
  have returned := Reach.iterated entered
  rwa [iterated] at returned

/-- An iteration that returns 0 brings the loop round. -/
theorem MessageLoop.Reach.again (result : Int) (positive : 0 < result)
    (reach : Reach platform host undisturbed start (.idle s))
    (iterated : minputLoopIter host input s = (0, s')) :
    Reach platform host undisturbed start (.idle s') := by
  have popped : Reach platform host undisturbed start
      ⟨⟨[], s', .running⟩, some (.timer input result positive), none, none⟩ :=
    Reach.dispatched (.proceed true) (Reach.fired result positive reach iterated) rfl rfl rfl
  refine .step .test popped trivial ?_
  exact if_pos ⟨rfl, positive⟩

/-- An iteration that fails is the last one. -/
theorem MessageLoop.Reach.failed {retval : Int} (result : Int) (positive : 0 < result)
    (reach : Reach platform host undisturbed start (.idle s))
    (iterated : minputLoopIter host input s = (retval, s')) (failed : retval ≠ 0) :
    ∃ loop, Reach platform host undisturbed start loop ∧ loop.cause = some (.failed retval) ∧
      loop.returned = some result := by
  have returned := Reach.fired result positive reach iterated
  have broke := Reach.dispatched (.proceed true) returned rfl rfl (if_neg failed)
  rw [Thread.cause?, if_neg failed] at broke
  exact ⟨_, .step .test broke trivial rfl, rfl, rfl⟩

/-- Iterations that return 0 bring the loop round. -/
theorem MessageLoop.Reach.looped {inputs : List IterInput}
    (reach : Reach platform host undisturbed start (.idle s))
    (looped : osioLoop host inputs s = (0, s')) :
    Reach platform host undisturbed start (.idle s') := by
  induction inputs generalizing s with
  | nil => exact (Prod.mk.inj looped).2 ▸ reach
  | cons input rest ih =>
      obtain ⟨after, iterated, looped⟩ := osioLoop_zero looped
      exact ih (Reach.again 1 Int.one_pos reach iterated) looped

end Undisturbed

/-- The Unix loop always returns what the iteration that ended it returned.  The
Windows loop returns the right status exactly when the value of `GetMessage()`
happens to be that, and so in a run of the same iterations. -/
theorem osioLoop_exitStatus (platform : Platform) (host : Host) (s : Sys) :
    (∀ inputs retval s', osioLoop host inputs s = (retval, s') → retval ≠ 0 →
      ∃ before input after mid, inputs = before ++ input :: after ∧
        osioLoop host before s = (0, mid) ∧ minputLoopIter host input mid = (retval, s')) ∧
    (∀ gRunning loop retval,
      MessageLoop.Reach platform host anyLoopAct (.start s gRunning) loop →
      loop.returned = some retval →
      ∃ delivery, loop.msg = some delivery ∧
        (ExitStatus loop.cause retval ↔ delivery.Tells loop.cause)) ∧
    (∀ inputs input mid s' retval result, osioLoop host inputs s = (0, mid) →
      minputLoopIter host input mid = (retval, s') → retval ≠ 0 → 0 < result →
      osioLoop host (inputs ++ [input]) s = (retval, s') ∧
        ∃ loop, MessageLoop.Reach platform host undisturbed (.start s true) loop ∧
          loop.cause = some (.failed retval) ∧ loop.returned = some result) := by
  refine ⟨fun _ _ _ => osioLoop_failed, fun _ _ _ => MessageLoop.exitStatus_iff, ?_⟩
  intro inputs input mid s' retval result looped iterated failed positive
  constructor
  · rw [osioLoop_append looped, osioLoop_cons iterated, if_neg failed]
  · have around : MessageLoop.Reach platform host undisturbed (.start s true) (.idle mid) :=
      MessageLoop.Reach.looped .start looped
    exact MessageLoop.Reach.failed result positive around iterated failed

/-- A keepalive, and then `realloc()` fails: Unix returns the error, Windows what
`GetMessage()` returned. -/
theorem osioLoop_exitStatus_refused :
    (∃ before input after mid s', [receives calvChunk, refuses fullChunk] = before ++ input :: after ∧
      osioLoop unixHost before defaultSetup = (0, mid) ∧
      minputLoopIter unixHost input mid = (minhopErrAlloc, s')) ∧
    ∃ loop delivery, MessageLoop.Reach .win32 unixHost undisturbed (.start defaultSetup true) loop ∧
      loop.cause = some (.failed minhopErrAlloc) ∧ loop.returned = some 1 ∧
      loop.msg = some delivery ∧ ¬delivery.Tells loop.cause := by
  cases looped : osioLoop unixHost [receives calvChunk] defaultSetup with
  | mk ok mid =>
      cases iterated : minputLoopIter unixHost (refuses fullChunk) mid with
      | mk retval s' =>
          have facts : (osioLoop unixHost [receives calvChunk] defaultSetup).1 = 0 ∧
              (minputLoopIter unixHost (refuses fullChunk)
                (osioLoop unixHost [receives calvChunk] defaultSetup).2).1 = minhopErrAlloc := by
            decide +kernel
          rw [looped] at facts
          dsimp only at facts
          rw [iterated] at facts
          obtain ⟨rfl, rfl⟩ := facts
          have refused : minhopErrAlloc ≠ 0 := by decide
          obtain ⟨first, second, third⟩ := osioLoop_exitStatus .win32 unixHost defaultSetup
          obtain ⟨failed, loop, reach, cause, returned⟩ :=
            third _ _ _ _ _ 1 looped iterated refused Int.one_pos
          obtain ⟨before, input, after, mid', split, zero, fails⟩ := first _ _ _ failed refused
          obtain ⟨delivery, got, tells⟩ := second true loop 1
            (reach.mono fun _ _ _ => trivial) returned
          refine ⟨⟨before, input, after, mid', s', split, zero, fails⟩, loop, delivery, reach, cause,
            returned, got, fun told => ?_⟩
          exact absurd ((tells.mpr told).failed _ cause) (by decide)

/-- The user quits, and `GetMessage()` returned 1 for the message. -/
theorem exitStatus_not_always :
    ¬∀ (platform : Platform) (host : Host) (s : Sys) (gRunning : Bool) (loop : MessageLoop)
      (retval : Int), MessageLoop.Reach platform host anyLoopAct (.start s gRunning) loop →
      loop.returned = some retval → ExitStatus loop.cause retval := by
  intro always
  have got : MessageLoop.Reach .win32 unixHost anyLoopAct (.start defaultSetup true)
      ⟨⟨[], osioWinQuit true defaultSetup, .quitting⟩, some ⟨.exit, 1, Int.one_pos⟩, some .exit,
        none⟩ :=
    .step (.getMessage ⟨.exit, 1, Int.one_pos⟩) .start trivial rfl
  have status := always .win32 unixHost defaultSetup true _ 1 (.step .test got trivial rfl) rfl
  exact absurd (status.exited rfl) Int.one_ne_zero

end MinputHop
