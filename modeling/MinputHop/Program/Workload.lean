import MinputHop.Program.Handling

/-!
# How much one message makes the client do

An iteration connects once, fetches once and takes ten packets at most, so that the
window stays responsive.  Message boxes put iterations inside of iterations; what the
client does in a whole run is still limited by the messages it was given.
-/

namespace MinputHop

open ActionSystem

/-- What a call of each kind counts for. -/
structure Tariff where
  socket : Nat
  connect : Nat
  close : Nat
  recv : Nat
  realloc : Nat
  /-- A packet that is handed on. -/
  dispatch : Nat
  /-- A reply, an input event or a new clipboard. -/
  output : Nat

def Event.weight (tariff : Tariff) : Event → Nat
  | .socket _ => tariff.socket
  | .connect .. => tariff.connect
  | .close _ => tariff.close
  | .recv .. => tariff.recv
  | .realloc .. => tariff.realloc
  | .dispatch .. => tariff.dispatch
  | .send .. | .mouseMove .. | .mouseDown .. | .mouseUp .. | .keyDown .. | .keyUp .. | .keyRpt ..
  | .setClipboard _ => tariff.output
  | .invalidate | .memcpy .. | .printf .. => 0

def weigh (tariff : Tariff) (calls : List Event) : Nat := (calls.map (Event.weight tariff)).sum

/-- What was done so far. -/
def Sys.cost (tariff : Tariff) (s : Sys) : Nat := weigh tariff s.calls

/-! ## What is still to come -/

/-- What an iteration may still do; `osio_win_quit` closes the socket behind a failure. -/
def Stage.left (tariff : Tariff) : Stage → Nat
  | .connect => tariff.socket + tariff.connect + (tariff.recv + tariff.realloc +
      (pktProcPerLoop * (tariff.dispatch + tariff.output) + tariff.close))
  | .fetch => tariff.recv + tariff.realloc +
      (pktProcPerLoop * (tariff.dispatch + tariff.output) + tariff.close)
  | .process pktProcIter =>
      (pktProcPerLoop - 1 - pktProcIter + 1) * (tariff.dispatch + tariff.output) + tariff.close
  | .keepalive retval => if retval = 0 then tariff.close else tariff.close + tariff.close
  | .returned retval => if retval = 0 then 0 else tariff.close

def Point.left (tariff : Tariff) : Point → Nat
  | .at stage => stage.left tariff
  | .dialog .realloc | .dialog .offset => tariff.close
  | .dialog (.clipboard pktProcIter _) =>
      (pktProcPerLoop - 1 - pktProcIter) * (tariff.dispatch + tariff.output) + tariff.close
  | .dialog (.globalAlloc _) => 0

/-- A tick of the timer. -/
def Tariff.iteration (tariff : Tariff) : Nat := Stage.left tariff .connect

/-- The Save button closes the connection and tries another one. -/
def Tariff.save (tariff : Tariff) : Nat :=
  tariff.close + (tariff.socket + tariff.connect + tariff.close)

def Message.allowance (tariff : Tariff) : Message → Nat
  | .timer _ => tariff.iteration
  | .exit => tariff.close
  | .save _ _ => tariff.save
  | .modal | .quit _ | .other => 0

def ThreadAct.allowance (tariff : Tariff) : ThreadAct → Nat
  | .timer _ => tariff.iteration
  | .exit => tariff.close
  | .save _ _ | .leave | .proceed _ | .close => 0

def LoopAct.allowance (tariff : Tariff) : LoopAct → Nat
  | .getMessage delivery => delivery.message.allowance tariff
  | .dispatch action => action.allowance tariff
  | .test => 0

/-! ## The pieces of the program -/

section Pieces

variable {host : Host} {tariff : Tariff} {input : IterInput} {stage stage' : Stage} {point : Point}
  {s s' : Sys} {calls : List Event}

theorem weigh_append (tariff : Tariff) (first second : List Event) :
    weigh tariff (first ++ second) = weigh tariff first + weigh tariff second := by
  unfold weigh
  rw [List.map_append, List.sum_append]

theorem cost_of_calls (tariff : Tariff) (extended : s'.calls = s.calls ++ calls) :
    s'.cost tariff = s.cost tariff + weigh tariff calls := by
  unfold Sys.cost
  rw [extended, weigh_append]

/-- A packet asks for one thing at most. -/
theorem length_packetOutputs (host : Host) (nameMem : List UInt8) (mouse : UInt16 × UInt16)
    (pktBuf : Nat → UInt8) (pktBufSz : UInt32) :
    (packetOutputs host nameMem mouse pktBuf pktBufSz).length ≤ 1 := by
  unfold packetOutputs
  cases PktType.ofCode? (pktTypeCode pktBuf) with
  | none => exact Nat.zero_le 1
  | some type =>
      cases type with
      | dclp =>
          dsimp only
          split
          · exact Nat.le_refl 1
          · exact Nat.zero_le 1
      | _ => simp

theorem weigh_outputs (tariff : Tariff) (sockfd : Int) (outputs : List Output) :
    weigh tariff (outputs.map (Output.event sockfd)) = outputs.length * tariff.output := by
  induction outputs with
  | nil => simp [weigh]
  | cons output outputs ih =>
      have first : (output.event sockfd).weight tariff = tariff.output := by
        cases output <;> rfl
      rw [List.map_cons, weigh, List.map_cons, List.sum_cons, first, List.length_cons, Nat.succ_mul,
        Nat.add_comm]
      exact congrArg (· + _) ih

theorem weigh_handedOn (host : Host) (tariff : Tariff) (s : Sys) (time : Nat) :
    weigh tariff (.dispatch time s.config.pktBuf.cells (pktClaimSz s.config) ::
      (packetOutputs host s.config.clientNameMem (s.mouseX, s.mouseY) s.config.pktBuf.cells
        (pktClaimSz s.config)).map (Output.event s.config.socketFd)) ≤
      tariff.dispatch + tariff.output := by
  have one := length_packetOutputs host s.config.clientNameMem (s.mouseX, s.mouseY)
    s.config.pktBuf.cells (pktClaimSz s.config)
  have outputs := weigh_outputs tariff s.config.socketFd (packetOutputs host s.config.clientNameMem
    (s.mouseX, s.mouseY) s.config.pktBuf.cells (pktClaimSz s.config))
  unfold weigh at outputs ⊢
  rw [List.map_cons, List.sum_cons, outputs]
  refine Nat.add_le_add_left ?_ tariff.dispatch
  calc _ ≤ 1 * tariff.output := Nat.mul_le_mul_right _ one
    _ = tariff.output := Nat.one_mul _

theorem weigh_failedConnect (tariff : Tariff) (attempt : FailedConnect calls) :
    weigh tariff calls ≤ tariff.socket + tariff.connect + tariff.close := by
  cases attempt with
  | noSocket =>
      simp only [weigh, List.map_cons, List.map_nil, List.sum_cons, List.sum_nil, Event.weight]
      omega
  | refused =>
      simp only [weigh, List.map_cons, List.map_nil, List.sum_cons, List.sum_nil, Event.weight]
      omega

/-- After a packet, one less may follow. -/
theorem left_afterPacket (tariff : Tariff) (pktProcIter : Nat) (s : Sys) :
    (afterPacket pktProcIter s).left tariff ≤
      (pktProcPerLoop - 1 - pktProcIter) * (tariff.dispatch + tariff.output) + tariff.close := by
  unfold afterPacket
  split
  · next more =>
      have one : pktProcPerLoop - 1 - (pktProcIter + 1) + 1 = pktProcPerLoop - 1 - pktProcIter := by
        omega
      rw [Stage.left, one]
  · exact Nat.le_add_left _ _

theorem Step.cost (tariff : Tariff) (step : Step host input stage s stage' s') :
    s'.cost tariff + stage'.left tariff ≤ s.cost tariff + stage.left tariff := by
  cases step with
  | connected =>
      rw [Stage.left, Stage.left]
      omega
  | failed _ attempt follows =>
      have attempted := weigh_failedConnect tariff attempt
      rw [cost_of_calls tariff follows.calls_eq]
      simp only [weigh, List.map_cons, List.sum_cons, Event.weight, Stage.left, if_true] at attempted ⊢
      omega
  | opened _ _ event_eq follows =>
      rw [cost_of_calls tariff follows.calls_eq, event_eq]
      simp only [weigh, List.map_cons, List.map_nil, List.sum_cons, List.sum_nil, connectEvent,
        Event.weight, Stage.left]
      omega
  | starved _ follows =>
      rw [cost_of_calls tariff follows.calls_eq]
      simp only [weigh, List.map_cons, List.map_nil, List.sum_cons, List.sum_nil, Event.weight,
        Stage.left, pktProcPerLoop]
      omega
  | exhausted _ _ _ follows =>
      rw [cost_of_calls tariff follows.calls_eq]
      simp only [weigh, List.map_cons, List.map_nil, List.sum_cons, List.sum_nil, Event.weight,
        Stage.left, if_neg (show ¬minhopErrAlloc = 0 by decide)]
      omega
  | filled _ room follows =>
      rw [cost_of_calls tariff follows.calls_eq]
      rcases room.calls_eq with rfl | ⟨_, rfl⟩
      · simp only [weigh, List.nil_append, List.map_cons, List.map_nil, List.sum_cons, List.sum_nil,
          Event.weight, Stage.left, pktProcPerLoop]
        omega
      · simp only [weigh, List.cons_append, List.nil_append, List.map_cons, List.map_nil,
          List.sum_cons, List.sum_nil, Event.weight, Stage.left, pktProcPerLoop]
        omega
  | @waited _ _ pktProcIter _ follows =>
      have less := left_afterPacket tariff pktProcIter s'
      rw [cost_of_calls tariff follows.calls_eq, Stage.left, Nat.add_mul]
      simp only [weigh, List.map_nil, List.sum_nil]
      omega
  | @took _ _ pktProcIter _ _ dispatches =>
      have less := left_afterPacket tariff pktProcIter s'
      have packet := weigh_handedOn host tariff s (host.clock s.ticks)
      rw [cost_of_calls tariff dispatches.calls_eq, Stage.left, Nat.add_mul]
      omega
  | overran _ _ dispatches =>
      have packet := weigh_handedOn host tariff s (host.clock s.ticks)
      rw [cost_of_calls tariff dispatches.calls_eq, Stage.left, Stage.left, Nat.add_mul,
        if_neg (show ¬minhopErrOverflow = 0 by decide)]
      omega
  | dropped _ _ follows =>
      rw [cost_of_calls tariff follows.calls_eq]
      simp only [weigh, List.map_cons, List.map_nil, List.sum_cons, List.sum_nil, Event.weight,
        Stage.left]
      split <;> omega
  | kept _ follows =>
      rw [cost_of_calls tariff follows.calls_eq]
      simp only [weigh, List.map_nil, List.sum_nil, Stage.left]
      split <;> omega
  | rested => exact Nat.le_refl _

theorem Proceeds.cost (tariff : Tariff) (proceeds : Proceeds host input stage s point s') :
    s'.cost tariff + point.left tariff ≤ s.cost tariff + stage.left tariff := by
  cases proceeds with
  | stepped step | refused step | overran step => exact step.cost tariff
  | short _ handsOn =>
      have packet := weigh_handedOn host tariff s (host.clock s.ticks)
      rw [cost_of_calls tariff handsOn.calls_eq, Stage.left, Point.left, Nat.add_mul]
      omega
  | unallocated _ handsOn =>
      have packet := weigh_handedOn host tariff s (host.clock s.ticks)
      rw [cost_of_calls tariff handsOn.calls_eq, Stage.left, Point.left, Nat.add_mul]
      omega

/-- The rest of a packet that a message box was about is as much as any packet leaves. -/
theorem left_closeDialog (tariff : Tariff) {dialog : Dialog}
    (closes : closeDialog dialog s = some (point, s')) :
    point.left tariff ≤ (Point.dialog dialog).left tariff := by
  cases dialog with
  | realloc | offset =>
      cases closes
      exact Nat.le_refl _
  | globalAlloc => cases closes
  | clipboard pktProcIter claimSz =>
      have left := Option.some.inj closes
      rcases removed : removePacket claimSz minhopErrProtocol s with ⟨retval, rest⟩
      have codes : retval = minhopErrProtocol ∨ retval = minhopErrOverflow := by
        have code := congrArg Prod.fst removed
        unfold removePacket at code
        dsimp only at code
        split at code
        · exact .inl code.symm
        · exact .inr code.symm
      rw [removed] at left
      rcases codes with rfl | rfl
      · obtain ⟨after, leaves, _⟩ := leavePacket_cases pktProcIter (.inr rfl) rest
        rw [leaves] at left
        rw [← (Prod.mk.inj left).1]
        exact left_afterPacket tariff pktProcIter after
      · have stopped : leavePacket pktProcIter (minhopErrOverflow, rest) =
            (.dialog .offset, rest) := rfl
        rw [stopped] at left
        rw [← (Prod.mk.inj left).1]
        exact Nat.le_add_left _ _

theorem cost_osioWinQuit (tariff : Tariff) (fromUi : Bool) (s : Sys) :
    (osioWinQuit fromUi s).cost tariff ≤ s.cost tariff + tariff.close := by
  rcases osioWinQuit_cases fromUi s with ⟨_, follows⟩ | ⟨_, follows⟩
  · rw [cost_of_calls tariff follows.calls_eq]
    exact Nat.le_refl _
  · rw [cost_of_calls tariff follows.calls_eq]
    exact Nat.le_add_right _ _

theorem cost_netioConnect (tariff : Tariff) (host : Host) (input : IterInput)
    (down : s.config.socketFd = 0) : (netioConnect host input s).2.cost tariff ≤
      s.cost tariff + (tariff.socket + tariff.connect + tariff.close) := by
  rcases netioConnect_cases host input down with ⟨_, s', called, follows⟩ |
    ⟨_, refused, s', called, follows⟩ | ⟨_, _, s', called, follows⟩
  · rw [called, cost_of_calls tariff follows.calls_eq]
    exact Nat.add_le_add_left (weigh_failedConnect tariff .noSocket) _
  · rw [called, cost_of_calls tariff follows.calls_eq]
    exact Nat.add_le_add_left (weigh_failedConnect tariff (.refused _ _ _ _ refused)) _
  · rw [called, cost_of_calls tariff follows.calls_eq]
    exact Nat.add_le_add_left (Nat.le_add_right _ _) _

theorem cost_osioWinSaveFields (tariff : Tariff) {platform : Platform} {fields : Fields}
    (saved : osioWinSaveFields platform host fields input s = some s') :
    s'.cost tariff ≤ s.cost tariff + tariff.save := by
  obtain ⟨port, mid, follows, rfl⟩ := osioWinSaveFields_cases saved
  have down : mid.config.socketFd = 0 := by
    rw [follows.config_eq]
    rfl
  have connects := cost_netioConnect tariff host input down
  have closes : mid.cost tariff = s.cost tariff + tariff.close :=
    cost_of_calls tariff follows.calls_eq
  rw [Tariff.save]
  omega

end Pieces

/-! ## Runs of the message loop -/

section Runs

variable {platform : Platform} {host : Host} {tariff : Tariff}

/-- What was done, and what the iterations that are under way may still do. -/
def Thread.potential (tariff : Tariff) (thread : Thread) : Nat :=
  thread.sys.cost tariff + (thread.stack.map fun activation => activation.point.left tariff).sum

theorem Thread.potential_act (tariff : Tariff) {action : ThreadAct} {thread next : Thread}
    (nests : action.nests = true) (taken : thread.act host action = some next) :
    next.potential tariff ≤ thread.potential tariff + action.allowance tariff := by
  cases Thread.act_moves taken with
  | entered input listens =>
      simp only [potential, List.map_cons, List.sum_cons, ThreadAct.allowance, Tariff.iteration,
        Point.left]
      omega
  | exited listens =>
      have quits := cost_osioWinQuit tariff true thread.sys
      simp only [potential, ThreadAct.allowance]
      omega
  | proceeded running proceeds =>
      have stage := proceeds.cost tariff
      simp only [potential, List.map_cons, List.sum_cons, ThreadAct.allowance, Point.left]
        at stage ⊢
      omega
  | again =>
      simp only [potential, List.map_cons, List.sum_cons, ThreadAct.allowance]
      omega
  | @broke _ _ retval _ s _ error =>
      have quits := cost_osioWinQuit tariff false s
      simp only [potential, List.map_cons, List.sum_cons, ThreadAct.allowance, Point.left,
        Stage.left, if_neg error]
      omega
  | closed closes =>
      obtain ⟨config, follows⟩ := follows_closeDialog closes
      have same := cost_of_calls tariff follows.calls_eq
      have less := left_closeDialog tariff closes
      simp only [potential, List.map_cons, List.sum_cons, ThreadAct.allowance, weigh,
        List.map_nil, List.sum_nil] at same ⊢
      omega
  | saved | left => exact absurd nests Bool.false_ne_true

theorem MessageLoop.potential_act (tariff : Tariff) {action : LoopAct} {loop next : MessageLoop}
    (taken : loop.act platform host action = some next) :
    next.thread.potential tariff ≤ loop.thread.potential tariff + action.allowance tariff := by
  have logged (stat : Stat) (fmt : String) (s : Sys) :
      (osioPrintf stat fmt [] s).cost tariff = s.cost tariff :=
    cost_of_calls tariff (follows_osioPrintf stat fmt [] s).calls_eq
  have behindEq {delivery : Delivery} {s s' : Sys} {phase phase' : Phase} {retval : Int}
      (behind : afterDispatch delivery s phase = (retval, s', phase')) :
      s'.cost tariff = s.cost tariff := by
    obtain ⟨message, result, contract⟩ := delivery
    cases message with
    | timer | exit | save | modal | other =>
        cases behind
        rfl
    | quit wParam =>
        obtain ⟨rfl, rfl, rfl⟩ := behind
        split
        · exact logged _ _ s
        · rfl
  cases MessageLoop.act_moves taken with
  | @got delivery thread _ _ _ handled =>
      obtain ⟨message, result, contract⟩ := delivery
      cases message with
      | timer input =>
          cases Option.some.inj handled
          simp only [Thread.potential, List.map_cons, List.sum_cons, LoopAct.allowance,
            Message.allowance, Tariff.iteration, Point.left]
          omega
      | exit =>
          cases Option.some.inj handled
          have quits := cost_osioWinQuit tariff true thread.sys
          simp only [Thread.potential, LoopAct.allowance, Message.allowance]
          omega
      | save fields input =>
          obtain ⟨s, saved, same⟩ := Option.map_eq_some_iff.mp handled
          cases same
          have saves := cost_osioWinSaveFields tariff saved
          simp only [Thread.potential, LoopAct.allowance, Message.allowance]
          omega
      | modal | quit | other =>
          cases Option.some.inj handled
          exact Nat.le_add_right _ _
  | @dispatched action _ thread _ _ nests _ stepped =>
      obtain ⟨reached, acted, rfl⟩ := Option.map_eq_some_iff.mp stepped
      have paid := Thread.potential_act tariff nests acted
      split
      · exact paid
      · exact paid
  | again behind _ =>
      simp only [Thread.potential, behindEq behind, LoopAct.allowance]
      omega
  | left behind _ =>
      simp only [Thread.potential, logged, behindEq behind, LoopAct.allowance]
      omega

/-- However its messages are nested, a run of the message loop does no more than they
allow: one attempt to connect, one fetch and ten packets for each tick of the timer. -/
theorem MessageLoop.work_within (tariff : Tariff) {acts : List LoopAct} {s : Sys} {gRunning : Bool}
    {loop : MessageLoop}
    (ran : MessageLoop.run platform host acts (.start s gRunning) = some loop) :
    loop.thread.sys.cost tariff ≤ s.cost tariff + (acts.map (LoopAct.allowance tariff)).sum := by
  have paid := run_amortized (fun _ _ _ taken => MessageLoop.potential_act tariff taken) ran
  have start : (MessageLoop.start s gRunning).thread.potential tariff = s.cost tariff := rfl
  rw [start] at paid
  exact Nat.le_trans (Nat.le_add_right _ _) paid

end Runs

/-- Each packet that is handed on counts, and nothing else. -/
def packetTariff : Tariff := ⟨0, 0, 0, 0, 0, 1, 0⟩

/-- Two ticks, with eight packets between them. -/
theorem MessageLoop.work_within_desk : ∃ loop,
    MessageLoop.run .win32 win32Host deskActs (.start defaultSetup true) = some loop ∧
      loop.thread.sys.packets.length = 8 ∧ loop.thread.sys.cost packetTariff ≤ 20 := by
  have counted : (MessageLoop.run .win32 win32Host deskActs (.start defaultSetup true)).map
      (·.thread.sys.packets.length) = some 8 := by
    decide +kernel
  obtain ⟨loop, ran, eight⟩ := Option.map_eq_some_iff.mp counted
  exact ⟨loop, ran, eight, MessageLoop.work_within packetTariff ran⟩

end MinputHop
