import MinputHop.Program.ExitStatus

/-!
# What all runs keep

The process works in pieces: a stage of an iteration up to its message box, what
follows when the box is closed, the Save button, a quit, the clean-up.  What each
piece keeps, every run keeps, with the messages interleaved and nested in any way.
-/

namespace MinputHop

/-- What a stage does to the thread, up to its message box. -/
theorem Thread.act_proceed {host : Host} {allocated : Bool} {input : IterInput} {stage : Stage}
    {rest : List Activation} {s : Sys} {phase : Phase}
    (running : ∀ retval, stage ≠ .returned retval) :
    Thread.act host (.proceed allocated) ⟨⟨input, .at stage⟩ :: rest, s, phase⟩ =
      some ⟨⟨input, (stepPoint host allocated input stage s).1⟩ :: rest,
        (stepPoint host allocated input stage s).2, phase⟩ := by
  cases stage with
  | connect | fetch | process | keepalive => rfl
  | returned retval => exact absurd rfl (running retval)

/-- A run of the message loop through these actions; `none` where one is not possible. -/
abbrev MessageLoop.run (platform : Platform) (host : Host) :=
  ActionSystem.run (MessageLoop.act platform host) fun _ _ => true

/-- What the Save button is told to save. -/
def Message.saved? : Message → Option Fields
  | .save fields _ => some fields
  | _ => none

def LoopAct.saved? : LoopAct → Option Fields
  | .getMessage delivery => delivery.message.saved?
  | .dispatch _ | .test => none

/-- What an iteration calls keeps this property of the state. -/
structure Pieces (host : Host) (Inv : Sys → Prop) : Prop where
  connects : ∀ input s, Inv s → Inv (ensureConnected host input s).2
  fetches : ∀ input s, Inv s → Inv (netioFetchPackets host input s).2
  handsOn : ∀ s, Inv s → Inv (handOn host s).2
  removes : ∀ claimSz retval s, Inv s → Inv (removePacket claimSz retval s).2
  waits : ∀ s, ¬Claimed s.config → Inv s → Inv (netioProcessPackets host s).2
  leaves : ∀ pktProcIter result, Inv result.2 → Inv (leavePacket pktProcIter result).2
  /-- The line of `osio_set_clipboard` about `GlobalAlloc()`. -/
  refused : ∀ args s, Inv s →
    Inv (osioPrintf .error "could not allocate clipboard buffer of %lu bytes!" args s)
  checks : ∀ s, Inv s → Inv (checkKeepalive host s)

namespace Pieces

variable {host : Host} {Inv : Sys → Prop}

/-- So does a stage, up to its message box. -/
theorem stepPoint (pieces : Pieces host Inv) (allocated : Bool) (input : IterInput) (stage : Stage)
    {s : Sys} (inv : Inv s) : Inv (MinputHop.stepPoint host allocated input stage s).2 := by
  cases stage with
  | connect => exact pieces.connects input s inv
  | fetch => exact pieces.fetches input s inv
  | keepalive retval => exact pieces.checks s inv
  | returned retval => exact inv
  | process pktProcIter =>
      have handed := pieces.handsOn s inv
      rw [MinputHop.stepPoint]
      split
      · dsimp only
        split
        · exact handed
        · split
          · exact pieces.refused _ _ handed
          · exact pieces.leaves _ _ (pieces.removes _ _ _ handed)
      · next idle => exact pieces.leaves _ _ (pieces.waits s idle inv)

/-- And what follows when the box is closed. -/
theorem closeDialog (pieces : Pieces host Inv) {dialog : Dialog} {s s' : Sys} {point : Point}
    (closes : MinputHop.closeDialog dialog s = some (point, s')) (inv : Inv s) : Inv s' := by
  cases dialog with
  | realloc | offset =>
      cases closes
      exact inv
  | globalAlloc => cases closes
  | clipboard pktProcIter claimSz =>
      have left := pieces.leaves pktProcIter _ (pieces.removes claimSz minhopErrProtocol s inv)
      rwa [show leavePacket _ _ = _ from Option.some.inj closes] at left

end Pieces

/-- Every piece of the program but the Save button keeps this property of the state. -/
structure Routine (host : Host) (Inv : Sys → Prop) : Prop where
  staged : ∀ allocated input stage s, Inv s → Inv (stepPoint host allocated input stage s).2
  closed : ∀ dialog s point s', closeDialog dialog s = some (point, s') → Inv s → Inv s'
  quitted : ∀ fromUi s, Inv s → Inv (osioWinQuit fromUi s)
  cleaned : ∀ s, Inv s → Inv (minputMainCleanup s)
  /-- The line of the log about a `WM_QUIT` that nobody asked for. -/
  unasked : ∀ s, Inv s → Inv (osioPrintf .debug "found quit message while still running!" [] s)

/-- Every piece of the program keeps it. -/
structure Upkeep (platform : Platform) (host : Host) (Inv : Sys → Prop) : Prop
    extends Routine host Inv where
  saved : ∀ fields input s s', osioWinSaveFields platform host fields input s = some s' →
    Inv s → Inv s'

namespace Routine

variable {host : Host} {Inv : Sys → Prop}

theorem closeAtOnce (routine : Routine host Inv) {reached : Point × Sys}
    (inv : Inv reached.2) : Inv (MinputHop.closeAtOnce reached).2 := by
  obtain ⟨stage | dialog, s⟩ := reached
  · exact inv
  · rw [MinputHop.closeAtOnce]
    cases closes : closeDialog dialog s with
    | none => exact inv
    | some closed => exact routine.closed dialog s closed.1 closed.2 closes inv

/-- On Unix a stage is what it is with every message box closed at once. -/
theorem stageStep (routine : Routine host Inv) (input : IterInput) (stage : Stage) {s : Sys}
    (inv : Inv s) : Inv (MinputHop.stageStep host input stage s).2 := by
  have settled := routine.closeAtOnce (routine.closeAtOnce (routine.staged true input stage s inv))
  rwa [closeAtOnce_stepPoint] at settled

/-! ## Runs of the message loop -/

theorem act (routine : Routine host Inv) {action : ThreadAct} {thread next : Thread}
    (nests : action.nests = true) (taken : thread.act host action = some next)
    (inv : Inv thread.sys) : Inv next.sys := by
  cases action with
  | timer input =>
      obtain ⟨_, taken⟩ := Option.ite_none_right_eq_some.mp taken
      exact Option.some.inj taken ▸ inv
  | exit =>
      obtain ⟨_, taken⟩ := Option.ite_none_right_eq_some.mp taken
      exact Option.some.inj taken ▸ routine.quitted true _ inv
  | proceed allocated =>
      obtain ⟨_ | ⟨⟨input, stage | dialog⟩, rest⟩, s, phase⟩ := thread
      · cases taken
      · cases stage with
        | connect | fetch | process | keepalive =>
            rw [Thread.act_proceed (fun _ => Stage.noConfusion)] at taken
            exact Option.some.inj taken ▸ routine.staged allocated input _ s inv
        | returned retval =>
            by_cases ok : retval = 0
            · subst ok
              exact Option.some.inj taken ▸ inv
            · rw [Thread.act, if_neg ok] at taken
              exact Option.some.inj taken ▸ routine.quitted false s inv
      · cases taken
  | close =>
      obtain ⟨_ | ⟨⟨input, stage | dialog⟩, rest⟩, s, phase⟩ := thread
      · cases taken
      · cases taken
      · obtain ⟨⟨point, s'⟩, closes, rfl⟩ := Option.map_eq_some_iff.mp taken
        exact routine.closed dialog s point s' closes inv
  | save | leave => exact absurd nests Bool.false_ne_true

theorem nested (routine : Routine host Inv) {action : ThreadAct} {thread next : Thread}
    (nests : action.nests = true) (taken : thread.nested host action = some next)
    (inv : Inv thread.sys) : Inv next.sys := by
  obtain ⟨reached, acted, rfl⟩ := Option.map_eq_some_iff.mp taken
  have kept := routine.act nests acted inv
  split <;> exact kept

theorem wndProc (routine : Routine host Inv) {platform : Platform} {message : Message}
    {thread next : Thread} {quit : Option Cause} (noSave : message.saved? = none)
    (handled : MinputHop.wndProc platform host message thread = some (quit, next))
    (inv : Inv thread.sys) : Inv next.sys := by
  cases message with
  | timer | modal | quit | other =>
      cases Option.some.inj handled
      exact inv
  | exit =>
      cases Option.some.inj handled
      exact routine.quitted true _ inv
  | save fields input => cases noSave

theorem afterDispatch (routine : Routine host Inv) {delivery : Delivery} {s s' : Sys}
    {phase phase' : Phase} {retval : Int}
    (behind : MinputHop.afterDispatch delivery s phase = (retval, s', phase')) (inv : Inv s) :
    Inv s' := by
  obtain ⟨message, result, contract⟩ := delivery
  cases message with
  | timer | exit | save | modal | other =>
      cases behind
      exact inv
  | quit wParam =>
      obtain ⟨rfl, rfl, rfl⟩ := behind
      split
      · exact routine.unasked s inv
      · exact inv

/-- What every piece keeps, and the last line of the loop as well, each action keeps. -/
theorem moves (routine : Routine host Inv)
    (left : ∀ s, Inv s → Inv (osioPrintf .info "leaving message loop..." [] s))
    {platform : Platform} {action : LoopAct} {loop next : MessageLoop}
    (noSave : action.saved? = none)
    (moves : MessageLoop.Moves platform host action loop next) (inv : Inv loop.thread.sys) :
    Inv next.thread.sys := by
  cases moves with
  | got handled => exact routine.wndProc noSave handled inv
  | dispatched nests _ stepped => exact routine.nested nests stepped inv
  | again behind _ => exact routine.afterDispatch behind inv
  | left behind _ => exact left _ (routine.afterDispatch behind inv)

end Routine

namespace Upkeep

variable {platform : Platform} {host : Host} {Inv : Sys → Prop}

theorem wndProc (upkeep : Upkeep platform host Inv) {message : Message} {thread next : Thread}
    {quit : Option Cause} (handled : MinputHop.wndProc platform host message thread = some (quit, next))
    (inv : Inv thread.sys) : Inv next.sys := by
  cases message with
  | timer | modal | quit | other | exit => exact upkeep.toRoutine.wndProc rfl handled inv
  | save fields input =>
      obtain ⟨s, saved, same⟩ := Option.map_eq_some_iff.mp handled
      cases same
      exact upkeep.saved fields input _ s saved inv

/-- The property, up to the line about leaving that the end of the loop logs. -/
def Throughout (Inv : Sys → Prop) (loop : MessageLoop) : Prop :=
  match loop.returned with
  | none => Inv loop.thread.sys
  | some _ => ∃ s, Inv s ∧ loop.thread.sys = osioPrintf .info "leaving message loop..." [] s

/-- Every run of the message loop keeps what every piece of the program keeps. -/
theorem loop (upkeep : Upkeep platform host Inv) {Admits : LoopAct → MessageLoop → Prop} {s : Sys}
    {gRunning : Bool} {loop : MessageLoop} (initial : Inv s)
    (reach : MessageLoop.Reach platform host Admits (.start s gRunning) loop) :
    Throughout Inv loop := by
  refine ActionSystem.Reach.invariant (by exact initial) ?_ reach
  intro action state next _ taken inv
  cases MessageLoop.act_moves taken with
  | got handled => exact upkeep.wndProc handled inv
  | dispatched nests _ stepped => exact upkeep.nested nests stepped inv
  | again behind _ => exact upkeep.afterDispatch behind inv
  | left behind _ => exact ⟨_, upkeep.afterDispatch behind inv, rfl⟩

/-! ## Runs of the process -/

/-- The property, and another one from where the loop is left. -/
def Until (Inv Left : Sys → Prop) (session : Session) : Prop :=
  match session.place with
  | .idle | .inside _ _ => Inv session.sys
  | .leaving | .finished => Left session.sys

/-- So does every run of the process, in which a message waits for the one before, until
the loop is left. -/
theorem session (upkeep : Upkeep platform host Inv) {Left : Sys → Prop}
    (goes : ∀ s, Inv s → Left s) (left : ∀ s, Inv s → Left (leaveMessageLoop s))
    (cleaned : ∀ s, Left s → Left (minputMainCleanup s)) {Admits : Act → Session → Prop}
    {start session : Session} (initial : Until Inv Left start)
    (reach : Session.Reach platform host Admits start session) : Until Inv Left session := by
  induction reach with
  | start => exact initial
  | step action _ _ taken inv =>
      cases Session.act_moves taken with
      | iterated | again => exact inv
      | staged _ => exact upkeep.stageStep _ _ inv
      | broke _ ended =>
          subst ended
          split
          · exact goes _ inv
          · exact left _ (upkeep.quitted false _ inv)
      | saved _ saved => exact upkeep.saved _ _ _ _ saved inv
      | quitted _ => exact left _ (upkeep.quitted true _ inv)
      | stopped _ => exact left _ (upkeep.unasked _ inv)
      | cleaned => exact cleaned _ inv

end Upkeep

/-- The states met in any run that starts the main loop with `start`: in the message
loop, where messages nest, or in the whole process, where they do not. -/
inductive Met (platform : Platform) (host : Host) (start : Sys) : Sys → Prop where
  | loop {gRunning : Bool} {loop : MessageLoop}
      (reach : MessageLoop.Reach platform host anyLoopAct (.start start gRunning) loop) :
      Met platform host start loop.thread.sys
  | session {name : Text} {session : Session}
      (reach : Session.Reach platform host anyAct ⟨.idle, start, name⟩ session) :
      Met platform host start session.sys

/-- What every piece keeps, and the last line of the loop as well, holds in every run. -/
theorem Upkeep.met {platform : Platform} {host : Host} {Inv : Sys → Prop} {start s : Sys}
    (upkeep : Upkeep platform host Inv)
    (left : ∀ s, Inv s → Inv (osioPrintf .info "leaving message loop..." [] s))
    (initial : Inv start) (met : Met platform host start s) : Inv s := by
  cases met with
  | @session name session reach =>
      have inv := upkeep.session (fun _ => id) left upkeep.cleaned (by exact initial) reach
      unfold Until at inv
      split at inv <;> exact inv
  | @loop _ loop reach =>
      have inv := upkeep.loop initial reach
      unfold Throughout at inv
      cases returned : loop.returned with
      | none => rwa [returned] at inv
      | some retval =>
          rw [returned] at inv
          obtain ⟨before, inv, last⟩ := inv
          exact last ▸ left before inv

end MinputHop
