import MinputHop.Program.Cascade

/-!
# A quit is final

`osio_win_quit` stops the timer so that nothing reconnects.  Iterations may still be open
behind message boxes; they run to their end without a connection, and the message loop
reads no other message.
-/

namespace MinputHop

open ActionSystem

/-! ## Without a connection -/

/-- A call that needs a descriptor or makes one, but for the answers to packets. -/
def Event.network : Event → Bool
  | .socket _ | .connect .. | .close _ | .recv .. => true
  | _ => false

/-- There is no descriptor, and there was no such call since. -/
structure Offline (past : List Event) (s : Sys) : Prop where
  down : s.config.socketFd = 0
  since : ∃ calls, s.calls = past ++ calls ∧ ∀ e ∈ calls, e.network = false

/-- Behind these stages an iteration neither connects nor fetches any more. -/
def Stage.late : Stage → Bool
  | .connect | .fetch => false
  | .process _ | .keepalive _ | .returned _ => true

def Point.late : Point → Bool
  | .at stage => stage.late
  | .dialog _ => true

theorem late_afterPacket (pktProcIter : Nat) (s : Sys) :
    (afterPacket pktProcIter s).late = true := by
  unfold afterPacket
  split
  · rfl
  · rfl

section Offline

variable {host : Host} {input : IterInput} {stage stage' : Stage} {point : Point} {s s' : Sys}
  {past calls : List Event} {config : NetioCfg} {elapsed : Nat}

theorem offline_osioWinQuit (fromUi : Bool) (s : Sys) :
    Offline (osioWinQuit fromUi s).calls (osioWinQuit fromUi s) := by
  refine ⟨?_, [], (List.append_nil _).symm, List.forall_mem_nil _⟩
  rcases osioWinQuit_cases fromUi s with ⟨_, follows⟩ | ⟨down, follows⟩
  · rw [follows.config_eq]
  · rw [follows.config_eq]
    exact down

theorem Offline.extend (offline : Offline past s) (down : s'.config.socketFd = s.config.socketFd)
    (extended : s'.calls = s.calls ++ calls) (silent : ∀ e ∈ calls, e.network = false) :
    Offline past s' := by
  obtain ⟨before, calls_eq, quiet⟩ := offline.since
  refine ⟨down.trans offline.down, before ++ calls, ?_, ?_⟩
  · rw [extended, calls_eq, List.append_assoc]
  · exact List.forall_mem_append.mpr ⟨quiet, silent⟩

theorem Offline.quiet (offline : Offline past s) (follows : Follows s s' config elapsed [])
    (same : config.socketFd = s.config.socketFd) : Offline past s' :=
  offline.extend (by rw [follows.config_eq, same]) follows.calls_eq (List.forall_mem_nil _)

/-- A packet and its answers are no such calls. -/
theorem network_packet (time : Nat) (pktBuf : Nat → UInt8) (pktBufSz : UInt32) (sockfd : Int)
    (outputs : List Output) :
    ∀ e ∈ Event.dispatch time pktBuf pktBufSz :: outputs.map (Output.event sockfd),
      e.network = false := by
  intro e member
  rcases List.mem_cons.mp member with rfl | member
  · rfl
  · obtain ⟨output, _, rfl⟩ := List.mem_map.mp member
    cases output <;> rfl

theorem Offline.osioWinQuit (offline : Offline past s) (fromUi : Bool) :
    Offline past (MinputHop.osioWinQuit fromUi s) := by
  rcases osioWinQuit_cases fromUi s with ⟨up, _⟩ | ⟨_, follows⟩
  · exact absurd offline.down up
  · exact offline.quiet follows rfl

/-- Behind the fetch a stage makes no such call. -/
theorem Offline.step (offline : Offline past s) (late : stage.late = true)
    (step : Step host input stage s stage' s') : Offline past s' ∧ stage'.late = true := by
  cases step with
  | connected | failed | opened | starved | exhausted | filled => cases late
  | rested => exact ⟨offline, rfl⟩
  | dropped _ up _ => exact absurd offline.down up
  | kept _ follows => exact ⟨offline.quiet follows rfl, rfl⟩
  | waited _ follows => exact ⟨offline.quiet follows rfl, late_afterPacket _ _⟩
  | took _ _ dispatches =>
      refine ⟨offline.extend ?_ dispatches.calls_eq (network_packet _ _ _ _ _), late_afterPacket _ _⟩
      rw [dispatches.config_eq]
  | overran _ _ dispatches =>
      refine ⟨offline.extend ?_ dispatches.calls_eq (network_packet _ _ _ _ _), rfl⟩
      rw [dispatches.config_eq]

theorem Offline.proceeds (offline : Offline past s) (late : stage.late = true)
    (proceeds : Proceeds host input stage s point s') : Offline past s' ∧ point.late = true := by
  have handed (handsOn : HandsOn host s s') : Offline past s' :=
    offline.extend (by rw [handsOn.config_eq]) handsOn.calls_eq (network_packet _ _ _ _ _)
  cases proceeds with
  | stepped step => exact offline.step late step
  | refused step | overran step => exact ⟨(offline.step late step).1, rfl⟩
  | short _ handsOn | unallocated _ handsOn => exact ⟨handed handsOn, rfl⟩

theorem late_leavePacket (pktProcIter : Nat) (result : Int × Sys) :
    (leavePacket pktProcIter result).1.late = true := by
  unfold leavePacket
  dsimp only
  split_ifs <;> rfl

/-- Nor does what follows when a message box is closed. -/
theorem Offline.closes (offline : Offline past s) {dialog : Dialog}
    (closes : closeDialog dialog s = some (point, s')) : Offline past s' ∧ point.late = true := by
  cases dialog with
  | realloc | offset =>
      cases closes
      exact ⟨offline, rfl⟩
  | globalAlloc => cases closes
  | clipboard pktProcIter claimSz =>
      obtain ⟨config, removed⟩ := follows_removePacket claimSz minhopErrProtocol s
      have without : Offline past (removePacket claimSz minhopErrProtocol s).2 :=
        offline.extend (socketFd_removePacket _ _ _) removed.calls_eq (List.forall_mem_nil _)
      have left := without.quiet (follows_leavePacket pktProcIter _) rfl
      have late := late_leavePacket pktProcIter (removePacket claimSz minhopErrProtocol s)
      rw [show leavePacket _ _ = _ from Option.some.inj closes] at left late
      exact ⟨left, late⟩

end Offline

/-! ## The activations -/

/-- Every activation but the innermost is in front of a message box, and the message loop
reads a message only when there is none. -/
structure Nested (loop : MessageLoop) : Prop where
  suspended : ∀ activation ∈ loop.thread.stack.tail, activation.point.late = true
  empty : loop.msg = none → loop.thread.stack = []

/-- After a quit: the message in hand is the last one. -/
structure Quitted (past : List Event) (msg : Option Delivery) (loop : MessageLoop) : Prop where
  msg_eq : loop.msg = msg
  inHand : msg.isSome = true
  ended : loop.thread.phase = .quitting
  late : ∀ activation ∈ loop.thread.stack, activation.point.late = true
  offline : Offline past loop.thread.sys

/-- Why this action calls `osio_win_quit`. -/
def LoopAct.cause? : LoopAct → MessageLoop → Option Cause
  | .getMessage ⟨.exit, _, _⟩, _ => some .exit
  | .dispatch action, loop => loop.thread.cause? action
  | _, _ => none

/-- A timer message is handled. -/
def LoopAct.ticks : LoopAct → Bool
  | .getMessage ⟨.timer _, _, _⟩ | .dispatch (.timer _) => true
  | _ => false

def untimed (action : LoopAct) (_ : MessageLoop) : Prop := action.ticks = false

section Threads

variable {platform : Platform} {host : Host} {action : ThreadAct} {thread next : Thread}
  {past : List Event}

/-- Who listens has nothing but message boxes open. -/
theorem late_of_listens (listens : thread.listens = true)
    (suspended : ∀ activation ∈ thread.stack.tail, activation.point.late = true) :
    ∀ activation ∈ thread.stack, activation.point.late = true := by
  obtain ⟨_ | ⟨⟨input, stage | dialog⟩, rest⟩, s, phase⟩ := thread
  · exact List.forall_mem_nil _
  · cases listens
  · exact List.forall_mem_cons.mpr ⟨rfl, suspended⟩

theorem suspended_of_act (nests : action.nests = true) (taken : thread.act host action = some next)
    (suspended : ∀ activation ∈ thread.stack.tail, activation.point.late = true) :
    ∀ activation ∈ next.stack.tail, activation.point.late = true := by
  cases Thread.act_moves taken with
  | entered _ listens => exact late_of_listens listens suspended
  | exited | proceeded | closed => exact suspended
  | again | broke => exact fun activation member => suspended activation (List.mem_of_mem_tail member)
  | saved | left => exact absurd nests Bool.false_ne_true

/-- What calls `osio_win_quit` leaves message boxes only. -/
theorem quits_of_act (nests : action.nests = true) (taken : thread.act host action = some next)
    (suspended : ∀ activation ∈ thread.stack.tail, activation.point.late = true)
    (quits : (thread.cause? action).isSome = true) :
    next.phase = .quitting ∧ (∀ activation ∈ next.stack, activation.point.late = true) ∧
      Offline next.sys.calls next.sys := by
  cases Thread.act_moves taken with
  | exited listens =>
      have behind := late_of_listens listens suspended
      exact ⟨rfl, behind, offline_osioWinQuit _ _⟩
  | broke => exact ⟨rfl, suspended, offline_osioWinQuit _ _⟩
  | entered | again | closed => cases quits
  | @proceeded _ _ stage _ _ _ _ _ running =>
      cases stage with
      | returned retval => exact absurd rfl (running retval)
      | connect | fetch | process | keepalive => cases quits
  | saved | left => exact absurd nests Bool.false_ne_true

/-- Without a tick the activations go on without a connection. -/
theorem late_of_act (nests : action.nests = true) (noTimer : ∀ input, action ≠ .timer input)
    (taken : thread.act host action = some next)
    (late : ∀ activation ∈ thread.stack, activation.point.late = true)
    (offline : Offline past thread.sys) :
    (∀ activation ∈ next.stack, activation.point.late = true) ∧ Offline past next.sys := by
  cases Thread.act_moves taken with
  | entered input => exact absurd rfl (noTimer input)
  | exited => exact ⟨late, offline.osioWinQuit true⟩
  | again => exact ⟨(List.forall_mem_cons.mp late).2, offline⟩
  | broke => exact ⟨(List.forall_mem_cons.mp late).2, offline.osioWinQuit false⟩
  | proceeded _ proceeds =>
      obtain ⟨here, behind⟩ := List.forall_mem_cons.mp late
      obtain ⟨offline, here⟩ := offline.proceeds here proceeds
      exact ⟨List.forall_mem_cons.mpr ⟨here, behind⟩, offline⟩
  | closed closes =>
      obtain ⟨offline, here⟩ := offline.closes closes
      exact ⟨List.forall_mem_cons.mpr ⟨here, (List.forall_mem_cons.mp late).2⟩, offline⟩
  | saved | left => exact absurd nests Bool.false_ne_true

end Threads

/-! ## Runs of the message loop -/

section Runs

variable {platform : Platform} {host : Host} {action : LoopAct} {start : Sys} {gRunning : Bool}
  {loop next : MessageLoop} {past : List Event} {msg : Option Delivery}

/-- Inside of a message the stack is that of an action of the thread. -/
theorem act_of_nested {action : ThreadAct} {thread next : Thread}
    (taken : thread.nested host action = some next) :
    ∃ reached, Thread.act host action { thread with phase := .running } = some reached ∧
      next.stack = reached.stack ∧ next.sys = reached.sys ∧
      (reached.phase = .quitting → next.phase = .quitting) := by
  obtain ⟨reached, acted, rfl⟩ := Option.map_eq_some_iff.mp taken
  refine ⟨reached, acted, ?_⟩
  split
  · next running => exact ⟨rfl, rfl, fun ended => Phase.noConfusion (running.symm.trans ended)⟩
  · exact ⟨rfl, rfl, id⟩

theorem Nested.act (nested : Nested loop) (taken : loop.act platform host action = some next) :
    Nested next := by
  cases MessageLoop.act_moves taken with
  | @got delivery thread _ _ _ handled =>
      have none : thread.stack = [] := nested.empty rfl
      refine ⟨?_, fun noMsg => absurd noMsg (Option.some_ne_none _)⟩
      obtain ⟨stack, s, phase⟩ := thread
      obtain rfl : stack = [] := none
      obtain ⟨message, result, contract⟩ := delivery
      cases message with
      | timer | exit | modal | quit | other =>
          cases Option.some.inj handled
          exact List.forall_mem_nil _
      | save fields input =>
          obtain ⟨s, _, same⟩ := Option.map_eq_some_iff.mp handled
          cases same
          exact List.forall_mem_nil _
  | dispatched nests _ stepped =>
      obtain ⟨reached, acted, stack, _, _⟩ := act_of_nested stepped
      refine ⟨?_, fun noMsg => absurd noMsg (Option.some_ne_none _)⟩
      dsimp only
      rw [stack]
      exact suspended_of_act nests acted nested.suspended
  | again | left => exact ⟨List.forall_mem_nil _, fun _ => rfl⟩

theorem MessageLoop.Reach.nested (reach : MessageLoop.Reach platform host anyLoopAct
      (.start start gRunning) loop) : Nested loop :=
  ActionSystem.Reach.invariant (by exact ⟨List.forall_mem_nil _, fun _ => rfl⟩)
    (fun _ _ _ _ taken nested => nested.act taken) reach

/-- The quit itself. -/
theorem Nested.quits (nested : Nested loop) (taken : loop.act platform host action = some next)
    (quits : (action.cause? loop).isSome = true) :
    Quitted next.thread.sys.calls next.msg next := by
  cases MessageLoop.act_moves taken with
  | @got delivery thread _ _ _ handled =>
      have none : thread.stack = [] := nested.empty rfl
      obtain ⟨stack, s, phase⟩ := thread
      obtain rfl : stack = [] := none
      obtain ⟨message, result, contract⟩ := delivery
      cases message with
      | timer | save | modal | quit | other => cases quits
      | exit =>
          cases Option.some.inj handled
          exact ⟨rfl, rfl, rfl, List.forall_mem_nil _, offline_osioWinQuit _ _⟩
  | @dispatched action _ thread _ _ nests _ stepped =>
      obtain ⟨reached, acted, stack, sys, phase⟩ := act_of_nested stepped
      have cause : (Thread.cause? action { thread with phase := .running }).isSome = true := by
        rw [Thread.cause?_phase]
        exact quits
      obtain ⟨ended, late, offline⟩ := quits_of_act nests acted nested.suspended cause
      exact ⟨rfl, rfl, phase ended, stack ▸ late, sys ▸ offline⟩
  | again | left => cases quits

/-- Behind a quit the rest of the loop leaves it. -/
theorem afterDispatch_quitting {delivery : Delivery} {s s' : Sys} {retval : Int} {phase : Phase}
    (behind : afterDispatch delivery s .quitting = (retval, s', phase)) :
    s' = s ∧ phase = .quitting := by
  obtain ⟨message, result, contract⟩ := delivery
  cases message with
  | quit | timer | exit | save | modal | other =>
      cases behind
      exact ⟨rfl, rfl⟩

/-- What follows it. -/
theorem Quitted.act (quitted : Quitted past msg loop) (noTimer : action.ticks = false)
    (taken : loop.act platform host action = some next) : Quitted past msg next := by
  cases MessageLoop.act_moves taken with
  | got handled =>
      have inHand := quitted.inHand
      rw [← quitted.msg_eq] at inHand
      cases inHand
  | @dispatched action _ thread _ _ nests _ stepped =>
      obtain ⟨reached, acted, stack, sys, _⟩ := act_of_nested stepped
      have others : ∀ input, action ≠ .timer input := by
        rintro input rfl
        cases noTimer
      obtain ⟨late, offline⟩ := late_of_act nests others acted quitted.late quitted.offline
      refine ⟨quitted.msg_eq, quitted.inHand, ?_, ?_, ?_⟩
      · rcases Thread.phase_of_nested nests stepped with ⟨_, kept⟩ | ⟨_, ended⟩
        · exact kept.trans quitted.ended
        · exact ended
      · dsimp only
        rw [stack]
        exact late
      · dsimp only
        rw [sys]
        exact offline
  | again behind _ =>
      obtain rfl := quitted.ended
      exact Phase.noConfusion (afterDispatch_quitting behind).2
  | @left _ _ after _ _ _ _ behind _ =>
      obtain rfl := quitted.ended
      obtain ⟨rfl, rfl⟩ := afterDispatch_quitting behind
      have said := follows_osioPrintf .info "leaving message loop..." [] after
      refine ⟨quitted.msg_eq, quitted.inHand, rfl, List.forall_mem_nil _, ?_⟩
      exact quitted.offline.quiet said rfl

/-- From a call of `osio_win_quit` on, as long as no timer message is handled, nothing is
connected or fetched again, and the message in hand is the last one. -/
theorem MessageLoop.quit_is_final {quit final : MessageLoop}
    (reach : MessageLoop.Reach platform host anyLoopAct (.start start gRunning) loop)
    (taken : loop.act platform host action = some quit)
    (quits : (action.cause? loop).isSome = true)
    (later : MessageLoop.Reach platform host untimed quit final) :
    Offline quit.thread.sys.calls final.thread.sys ∧ final.msg = quit.msg := by
  have quitted : Quitted quit.thread.sys.calls quit.msg final :=
    ActionSystem.Reach.invariant (reach.nested.quits taken quits)
      (fun _ _ _ noTimer taken quitted => quitted.act noTimer taken) later
  exact ⟨quitted.offline, quitted.msg_eq⟩

end Runs

/-! ### A quit behind a message box -/

/-- The box is closed, and the removal of the packet overflows, which opens another; the
iteration returns this, and the loop is left. -/
def afterBoxActs : List LoopAct :=
  [.dispatch .close, .dispatch .close, .dispatch (.proceed true), .test]

theorem MessageLoop.quit_is_final_box : ∃ loop quit final : MessageLoop,
    MessageLoop.Reach .win32 win32Host anyLoopAct (.start defaultSetup true) loop ∧
    loop.act .win32 win32Host (.dispatch .exit) = some quit ∧
    loop.thread.sys.config.socketFd ≠ 0 ∧ final.returned.isSome = true ∧
    Offline quit.thread.sys.calls final.thread.sys := by
  have facts : (ActionSystem.run (MessageLoop.act .win32 win32Host) (fun _ _ => true) firstBoxActs
      (.start defaultSetup true)).any (fun loop =>
        loop.thread.sys.config.socketFd != 0 &&
        (loop.act .win32 win32Host (.dispatch .exit)).any fun quit =>
          (ActionSystem.run (MessageLoop.act .win32 win32Host) (fun action _ => !action.ticks)
            afterBoxActs quit).any (·.returned.isSome)) = true := by
    decide +kernel
  obtain ⟨loop, ran, facts⟩ := (Option.any_eq_true _ _).mp facts
  obtain ⟨up, facts⟩ := Bool.and_eq_true_iff.mp facts
  obtain ⟨quit, taken, facts⟩ := (Option.any_eq_true _ _).mp facts
  obtain ⟨final, later, left⟩ := (Option.any_eq_true _ _).mp facts
  have reach : MessageLoop.Reach .win32 win32Host anyLoopAct (.start defaultSetup true) loop :=
    .of_run (fun _ _ _ => trivial) .start ran
  have untimed : MessageLoop.Reach .win32 win32Host untimed quit final :=
    .of_run (fun _ _ quiet => (Bool.not_eq_true' _).mp quiet) .start later
  have final_eq := MessageLoop.quit_is_final reach taken rfl untimed
  exact ⟨loop, quit, final, reach, taken, bne_iff_ne.mp up, left, final_eq.1⟩

end MinputHop
