import MinputHop.Program.Reading
import MinputHop.Program.Reentrancy
import MinputHop.Program.Upkeep

/-!
# What is done about the packets handed on

In every run, with iterations nested in message boxes as well, the input events
that the client makes are what the packets handed to `synproto_parse_and_reply`
so far ask for, in the order in which they were handed on, and nothing else.
-/

namespace MinputHop

open FlatMemory

/-- The arguments of `synproto_parse_and_reply`. -/
abbrev Packet := (Nat → UInt8) × UInt32

def Event.packet? : Event → Option Packet
  | .dispatch _ pktBuf pktBufSz => some (pktBuf, pktBufSz)
  | _ => none

/-- All packets handed on so far. -/
def Sys.packets (s : Sys) : List Packet := s.calls.filterMap Event.packet?

/-- All frames handed on so far. -/
def Sys.frames (s : Sys) : List (List UInt8) :=
  s.packets.map fun packet => window packet.1 0 packet.2.toNat

/-- An input event, or a new clipboard. -/
def Output.isInput : Output → Bool
  | .reply _ => false
  | _ => true

def Sys.inputs (s : Sys) : List Output := s.outputs.filter Output.isInput

/-- The dispatcher without its replies.  The name is only in the replies. -/
def inputDispatcher (host : Host) : Transducer (UInt16 × UInt16) Packet Output where
  next mouse packet := mouseAfter packet.1 mouse
  emit mouse packet := (packetOutputs host [] mouse packet.1 packet.2).filter Output.isInput

/-! ## One piece of work -/

/-- From `s` to `s'` these packets were handed on, and what they ask for was done. -/
structure Handles (host : Host) (packets : List Packet) (s s' : Sys) : Prop where
  packets_eq : s'.packets = s.packets ++ packets
  inputs_eq : s'.inputs = s.inputs ++ (inputDispatcher host).run (s.mouseX, s.mouseY) packets
  mouse_eq : (s'.mouseX, s'.mouseY) = (inputDispatcher host).final (s.mouseX, s.mouseY) packets

/-- What can be made of `start`: calls that neither hand a packet on nor answer one, and
packets handed on, with what they ask for. -/
inductive Works (host : Host) (start : Sys) : Sys → Prop where
  | start : Works host start start
  | called {s s' : Sys} {calls : List Event} (works : Works host start s)
      (calls_eq : s'.calls = s.calls ++ calls)
      (mouse_eq : (s'.mouseX, s'.mouseY) = (s.mouseX, s.mouseY))
      (noPacket : calls.filterMap Event.packet? = [])
      (noOutput : calls.filterMap Event.output? = []) : Works host start s'
  | handedOn {s s' : Sys} {time : Nat} {pktBuf : Nat → UInt8} {pktBufSz : UInt32} {sockfd : Int}
      (works : Works host start s)
      (calls_eq : s'.calls = s.calls ++ .dispatch time pktBuf pktBufSz ::
        (packetOutputs host s.config.clientNameMem (s.mouseX, s.mouseY) pktBuf pktBufSz).map
          (Output.event sockfd))
      (mouse_eq : (s'.mouseX, s'.mouseY) = mouseAfter pktBuf (s.mouseX, s.mouseY)) :
      Works host start s'

theorem packets_of_calls {s s' : Sys} {calls : List Event} (extended : s'.calls = s.calls ++ calls) :
    s'.packets = s.packets ++ calls.filterMap Event.packet? := by
  unfold Sys.packets
  rw [extended, List.filterMap_append]

theorem inputs_of_calls {s s' : Sys} {calls : List Event} (extended : s'.calls = s.calls ++ calls) :
    s'.inputs = s.inputs ++ (calls.filterMap Event.output?).filter Output.isInput := by
  unfold Sys.inputs
  rw [Sys.outputs_of_calls extended, List.filter_append]

/-- An output is no packet. -/
theorem packet?_outputs (sockfd : Int) (outputs : List Output) :
    (outputs.map (Output.event sockfd)).filterMap Event.packet? = [] := by
  rw [List.filterMap_map, List.filterMap_eq_nil_iff]
  intro output _
  cases output <;> rfl

/-- Without its replies a packet asks for the same under any name. -/
theorem filter_packetOutputs (host : Host) (nameMem : List UInt8) (mouse : UInt16 × UInt16)
    (pktBuf : Nat → UInt8) (pktBufSz : UInt32) :
    (packetOutputs host nameMem mouse pktBuf pktBufSz).filter Output.isInput =
      (packetOutputs host [] mouse pktBuf pktBufSz).filter Output.isInput := by
  unfold packetOutputs
  cases PktType.ofCode? (pktTypeCode pktBuf) with
  | none => rfl
  | some type => cases type <;> rfl

section Handles

variable {host : Host} {s s' s'' : Sys} {packets packets' : List Packet} {config : NetioCfg}
  {elapsed : Nat} {calls : List Event}

theorem Handles.refl (s : Sys) : Handles host [] s s where
  packets_eq := by simp
  inputs_eq := by simp [Transducer.run]
  mouse_eq := rfl

theorem Handles.trans (first : Handles host packets s s') (second : Handles host packets' s' s'') :
    Handles host (packets ++ packets') s s'' where
  packets_eq := by
    rw [second.packets_eq, first.packets_eq, List.append_assoc]
  inputs_eq := by
    rw [second.inputs_eq, first.inputs_eq, first.mouse_eq, Transducer.run_append,
      List.append_assoc]
  mouse_eq := by
    rw [second.mouse_eq, first.mouse_eq]
    exact List.foldl_append.symm

/-- Calls without a packet and without an input event. -/
theorem handles_calls (calls_eq : s'.calls = s.calls ++ calls)
    (mouse_eq : (s'.mouseX, s'.mouseY) = (s.mouseX, s.mouseY))
    (noPacket : calls.filterMap Event.packet? = []) (noOutput : calls.filterMap Event.output? = []) :
    Handles host [] s s' where
  packets_eq := by
    rw [packets_of_calls calls_eq, noPacket]
  inputs_eq := by
    rw [inputs_of_calls calls_eq, noOutput]
    rfl
  mouse_eq := mouse_eq

/-- One packet, with what it asks for. -/
theorem handles_packet {time : Nat} {pktBuf : Nat → UInt8} {pktBufSz : UInt32} {nameMem : List UInt8}
    {sockfd : Int}
    (calls_eq : s'.calls = s.calls ++ .dispatch time pktBuf pktBufSz ::
      (packetOutputs host nameMem (s.mouseX, s.mouseY) pktBuf pktBufSz).map (Output.event sockfd))
    (mouse_eq : (s'.mouseX, s'.mouseY) = mouseAfter pktBuf (s.mouseX, s.mouseY)) :
    Handles host [(pktBuf, pktBufSz)] s s' where
  packets_eq := by
    have first : Event.packet? (.dispatch time pktBuf pktBufSz) = some (pktBuf, pktBufSz) := rfl
    rw [packets_of_calls calls_eq, List.filterMap_cons_some first, packet?_outputs]
  inputs_eq := by
    rw [inputs_of_calls calls_eq, List.filterMap_cons_none rfl, filterMap_event,
      filter_packetOutputs]
    simp [Transducer.run, inputDispatcher]
  mouse_eq := mouse_eq

/-- However the packets were interleaved with other calls, what they ask for was done. -/
theorem Works.handles (works : Works host s s') : ∃ packets, Handles host packets s s' := by
  induction works with
  | start => exact ⟨[], Handles.refl s⟩
  | called _ calls_eq mouse_eq noPacket noOutput ih =>
      obtain ⟨packets, handles⟩ := ih
      exact ⟨_, handles.trans (handles_calls calls_eq mouse_eq noPacket noOutput)⟩
  | handedOn _ calls_eq mouse_eq ih =>
      obtain ⟨packets, handles⟩ := ih
      exact ⟨_, handles.trans (handles_packet calls_eq mouse_eq)⟩

end Handles

/-! ## The pieces of the program -/

section Pieces

variable {host : Host} {input : IterInput} {stage stage' : Stage} {point : Point} {start s s' : Sys}
  {config : NetioCfg} {elapsed : Nat} {calls : List Event}

theorem Works.follows (works : Works host start s) (follows : Follows s s' config elapsed calls)
    (noPacket : calls.filterMap Event.packet? = []) (noOutput : calls.filterMap Event.output? = []) :
    Works host start s' := by
  have mouse_eq : (s'.mouseX, s'.mouseY) = (s.mouseX, s.mouseY) := by
    rw [follows.mouseX_eq, follows.mouseY_eq]
  exact works.called follows.calls_eq mouse_eq noPacket noOutput

theorem Works.step (works : Works host start s) (step : Step host input stage s stage' s') :
    Works host start s' := by
  cases step with
  | connected | rested => exact works
  | failed _ attempt follows =>
      cases attempt <;> exact works.follows follows rfl rfl
  | opened _ _ event_eq follows =>
      subst event_eq
      exact works.follows follows rfl rfl
  | starved _ follows | exhausted _ _ _ follows | waited _ follows | dropped _ _ follows
  | kept _ follows => exact works.follows follows rfl rfl
  | filled _ room follows =>
      cases room <;> exact works.follows follows rfl rfl
  | took _ _ dispatches | overran _ _ dispatches =>
      exact works.handedOn dispatches.calls_eq dispatches.mouse_eq

theorem Works.proceeds (works : Works host start s) (proceeds : Proceeds host input stage s point s') :
    Works host start s' := by
  cases proceeds with
  | stepped step | refused step | overran step => exact works.step step
  | short _ handsOn | unallocated _ handsOn =>
      exact works.handedOn handsOn.calls_eq handsOn.mouse_eq

/-- A packet is removed without a call. -/
theorem follows_removePacket (claimSz : UInt32) (retval : Int) (s : Sys) :
    ∃ config, Follows s (removePacket claimSz retval s).2 config 0 [] := by
  rcases result : shiftPktBuf claimSz s.config.pktBufSzMax (s.config.pktBufSz - claimSz).toNat 0
    s.config.pktBuf.cells with ⟨moved, cells⟩
  simp only [removePacket, result]
  cases moved with
  | true => exact ⟨_, (Follows.refl s).set⟩
  | false => exact ⟨_, (Follows.refl s).set.log⟩

theorem socketFd_removePacket (claimSz : UInt32) (retval : Int) (s : Sys) :
    (removePacket claimSz retval s).2.config.socketFd = s.config.socketFd := by
  unfold removePacket
  dsimp only
  split
  · rfl
  · rfl

theorem follows_leavePacket (pktProcIter : Nat) (result : Int × Sys) :
    Follows result.2 (leavePacket pktProcIter result).2 result.2.config 0 [] := by
  obtain ⟨retval, s⟩ := result
  unfold leavePacket
  dsimp only
  split
  · split
    · exact (Follows.refl s).log
    · split <;> exact (Follows.refl s).log
  · split
    · exact Follows.refl s
    · split <;> exact Follows.refl s

/-- Nothing is called between the end of a message box and the next stage. -/
theorem follows_closeDialog {dialog : Dialog} (closes : closeDialog dialog s = some (point, s')) :
    ∃ config, Follows s s' config 0 [] := by
  cases dialog with
  | realloc | offset =>
      cases closes
      exact ⟨_, Follows.refl s⟩
  | globalAlloc => cases closes
  | clipboard pktProcIter claimSz =>
      obtain ⟨config, removed⟩ := follows_removePacket claimSz minhopErrProtocol s
      have left := follows_leavePacket pktProcIter (removePacket claimSz minhopErrProtocol s)
      have both := removed.trans left
      rw [show leavePacket _ _ = _ from Option.some.inj closes] at both
      exact ⟨_, both⟩

theorem Works.connect (works : Works host start s) (input : IterInput)
    (down : s.config.socketFd = 0) : Works host start (netioConnect host input s).2 := by
  rcases netioConnect_cases host input down with ⟨_, s', called, follows⟩ |
    ⟨_, _, s', called, follows⟩ | ⟨_, _, s', called, follows⟩
  · rw [called]
    exact works.follows follows rfl rfl
  · rw [called]
    exact works.follows follows rfl rfl
  · rw [called]
    exact works.follows follows rfl rfl

/-- Every piece of the program makes such calls. -/
theorem upkeep_works (platform : Platform) (host : Host) (start : Sys) :
    Upkeep platform host (Works host start) where
  staged allocated input stage s works :=
    works.proceeds (stepPoint_proceeds host allocated input stage s)
  closed _ _ _ _ closes works := by
    obtain ⟨config, follows⟩ := follows_closeDialog closes
    exact works.follows follows rfl rfl
  saved _ _ _ _ saved works := by
    obtain ⟨port, mid, follows, rfl⟩ := osioWinSaveFields_cases saved
    have down : mid.config.socketFd = 0 := by
      rw [follows.config_eq]
      rfl
    exact (works.follows follows rfl rfl).connect _ down
  quitted fromUi s works := by
    rcases osioWinQuit_cases fromUi s with ⟨_, follows⟩ | ⟨_, follows⟩ <;>
      exact works.follows follows rfl rfl
  cleaned s works := by
    rcases minputMainCleanup_cases s with ⟨_, follows⟩ | ⟨_, same⟩
    · exact works.follows follows rfl rfl
    · rw [same]
      exact works
  unasked s works := works.follows (follows_osioPrintf _ _ _ s) rfl rfl

/-- So does every run. -/
theorem Met.works {platform : Platform} (met : Met platform host start s) : Works host start s :=
  (upkeep_works platform host start).met
    (fun s works => works.follows (follows_osioPrintf _ _ _ s) rfl rfl) .start met

end Pieces

/-! ## Runs -/

/-- A frame that is long enough for its type and has a size that a `size_t` holds. -/
def Readable (host : Host) (frame : List UInt8) : Prop :=
  LongEnough frame ∧ frame.length < 2 ^ host.sizeTBits
  deriving Decidable

/-- What a stream of frames asks for, besides replies. -/
def inputReading (frames : List (List UInt8)) : List Output :=
  (reading 0 0 [] frames).filter Output.isInput

/-- The reader, without its replies. -/
def inputReader : Transducer (List (List UInt8)) (List UInt8) Output where
  next before frame := before ++ [frame]
  emit before frame := (readFrame 0 0 [] before frame).filter Output.isInput

theorem inputReader_run (before frames : List (List UInt8)) :
    inputReader.run before frames = ((reader 0 0 []).run before frames).filter Output.isInput := by
  induction frames generalizing before with
  | nil => rfl
  | cons frame frames ih =>
      unfold Transducer.run
      rw [ih, List.filter_append]
      rfl

theorem inputReader_final (before frames : List (List UInt8)) :
    inputReader.final before frames = before ++ frames := by
  induction frames generalizing before with
  | nil => exact (List.append_nil before).symm
  | cons frame frames ih =>
      have rest := ih (before ++ [frame])
      rwa [List.append_assoc] at rest

/-- The screen is only in a reply. -/
theorem filter_readFrame (screenW screenH : UInt16) (name : List UInt8)
    (before : List (List UInt8)) (frame : List UInt8) :
    (readFrame screenW screenH name before frame).filter Output.isInput =
      (readFrame 0 0 [] before frame).filter Output.isInput := by
  unfold readFrame
  cases frameType? frame with
  | none => rfl
  | some type => cases type <;> rfl

/-- Packet by packet the dispatcher does what a readable frame asks for. -/
theorem inputDispatcher_simulates (host : Host) :
    Transducer.Simulates (inputDispatcher host) inputReader
      (fun mouse before => mouse = mouseAt before)
      (fun packet frame => frame = window packet.1 0 packet.2.toNat ∧ Readable host frame) where
  emit := by
    rintro _ before ⟨pktBuf, pktBufSz⟩ _ rfl ⟨rfl, long, narrow⟩
    dsimp only at long narrow
    rw [length_window] at narrow
    have same : packetOutputs host [] (mouseAt before) pktBuf pktBufSz =
        packetOutputs { host with sizeTBits := 32 } [] (mouseAt before) pktBuf pktBufSz := by
      have fits : (pktBufSz.toNat - dclpBufStart) % 2 ^ host.sizeTBits =
          (pktBufSz.toNat - dclpBufStart) % 2 ^ 32 := by
        have below := pktBufSz.toNat_lt
        rw [Nat.mod_eq_of_lt (by omega), Nat.mod_eq_of_lt (by omega)]
      unfold packetOutputs
      rw [fits]
      rfl
    change List.filter _ (packetOutputs host _ _ _ _) = List.filter _ (readFrame _ _ _ _ _)
    rw [same, packetOutputs_window (Nat.le_refl 32) long, filter_readFrame]
  next := by
    rintro _ before ⟨pktBuf, pktBufSz⟩ _ rfl ⟨rfl, long, _⟩
    exact mouseAfter_window long

/-- What was handed on and can be read was done as it reads. -/
theorem Handles.reading {host : Host} {packets : List Packet} {s s' : Sys}
    (handles : Handles host packets s s') (fresh : s.calls = []) (mouse : (s.mouseX, s.mouseY) = (0, 0))
    (readable : ∀ frame ∈ s'.frames, Readable host frame) :
    s'.inputs = inputReading s'.frames ∧ (s'.mouseX, s'.mouseY) = mouseAt s'.frames := by
  have none : s.packets = [] ∧ s.inputs = [] := by
    simp [Sys.packets, Sys.inputs, Sys.outputs, fresh]
  have packets_eq := handles.packets_eq
  rw [none.1, List.nil_append] at packets_eq
  have carried : List.Forall₂
      (fun packet frame => frame = window packet.1 0 packet.2.toNat ∧ Readable host frame)
      packets s'.frames := by
    rw [Sys.frames, packets_eq, List.forall₂_map_right_iff, List.forall₂_same]
    intro packet member
    refine ⟨rfl, readable _ ?_⟩
    rw [Sys.frames, packets_eq]
    exact List.mem_map_of_mem member
  have start : ((0, 0) : UInt16 × UInt16) = mouseAt [] := rfl
  have simulates := inputDispatcher_simulates host
  constructor
  · rw [handles.inputs_eq, none.2, List.nil_append, mouse, simulates.run start carried,
      inputReader_run]
    rfl
  · have final := simulates.final start carried
    rw [← mouse, ← handles.mouse_eq] at final
    rw [final, inputReader_final, List.nil_append]

/-- Whatever was interleaved or nested, the input events of a run are the reading of
the frames handed on, and the mouse is where the latest move among them left it. -/
theorem Met.inputs_eq_reading {platform : Platform} {host : Host}
    {serverAddr clientName : Vector UInt8 64} {serverPort : Int} {s : Sys}
    (met : Met platform host (minputMainSetup serverAddr clientName serverPort) s)
    (readable : ∀ frame ∈ s.frames, Readable host frame) :
    s.inputs = inputReading s.frames ∧ (s.mouseX, s.mouseY) = mouseAt s.frames := by
  obtain ⟨packets, handles⟩ := met.works.handles
  exact handles.reading rfl rfl readable

/-- `GlobalAlloc()` does not fail in this action. -/
def LoopAct.allocates : LoopAct → Bool
  | .dispatch (.proceed allocated) => allocated
  | _ => true

def allocates (action : LoopAct) (_ : MessageLoop) : Prop := action.allocates = true

/-! ### A run with two message boxes -/

/-- `DKDN` or `DKUP` with this key. -/
def keyFrame (letters : String) (id : UInt16) : List UInt8 :=
  lengthPrefixed (ascii letters ++ [id, 0, 38].flatMap fun n => BigEndian.encode 2 n.toNat)

/-- A click at (3, 4), a key that is released with Shift held, and a clipboard; the packet
in front opens a message box. -/
def deskFrames : List (List UInt8) :=
  [shortClipboard.bytes, lengthPrefixed (ascii "DMMV" ++ [0, 3, 0, 4]),
    lengthPrefixed (ascii "DMDN" ++ [1]), lengthPrefixed (ascii "DMUP" ++ [1]),
    keyFrame "DKDN" 0x61, keyFrame "DKUP" 0x41,
    lengthPrefixed (ascii "DCLP" ++ [0, 0, 0, 0, 0, 2] ++ List.replicate 16 0 ++ ascii "hi")]

def deskChunk : Chunk := ⟨deskFrames.flatten, by decide, by decide⟩

/-- The timer fires behind the message box, and one of the two boxes is closed. -/
def deskActs : List LoopAct :=
  .getMessage (.timer (receives deskChunk) 1 Int.one_pos) ::
    ([.proceed true, .proceed true, .proceed true, .timer receivesNothing, .proceed true,
      .proceed true, .proceed true, .close, .proceed true, .proceed true, .proceed true,
      .proceed true, .proceed true, .proceed true]).map LoopAct.dispatch

/-- The packet in front is handed on twice. -/
theorem reach_desk : ∃ loop, MessageLoop.Reach .win32 win32Host allocates
      (.start defaultSetup true) loop ∧
    loop.thread.sys.frames = shortClipboard.bytes :: deskFrames := by
  have ran : (ActionSystem.run (MessageLoop.act .win32 win32Host)
      (fun action _ => action.allocates) deskActs (.start defaultSetup true)).map
        (·.thread.sys.frames) = some (shortClipboard.bytes :: deskFrames) := by
    decide +kernel
  obtain ⟨loop, ran, frames⟩ := Option.map_eq_some_iff.mp ran
  exact ⟨loop, .of_run (fun _ _ admitted => admitted) .start ran, frames⟩

theorem met_desk : ∃ s, Met .win32 win32Host defaultSetup s ∧
    s.frames = shortClipboard.bytes :: deskFrames := by
  obtain ⟨loop, reach, frames⟩ := reach_desk
  exact ⟨_, .loop (reach.mono fun _ _ _ => trivial), frames⟩

theorem readable_desk : ∀ frame ∈ shortClipboard.bytes :: deskFrames, Readable win32Host frame := by
  decide +kernel

theorem Met.inputs_eq_reading_desk : ∃ s, Met .win32 win32Host defaultSetup s ∧
    s.inputs = inputReading (shortClipboard.bytes :: deskFrames) ∧
      (s.mouseX, s.mouseY) = (3, 4) := by
  obtain ⟨s, met, frames⟩ := met_desk
  have read := met.inputs_eq_reading (frames ▸ readable_desk)
  rw [frames] at read
  exact ⟨s, met, read.1, read.2.trans (by decide +kernel)⟩

end MinputHop
