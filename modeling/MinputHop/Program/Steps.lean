import MinputHop.Program.MainLoop
import MinputHop.Program.Reply

/-!
# What each stage can do

One lemma for each stage of `minput_loop_iter` lists the ways it can go, with
the configuration, the clock readings and the calls it leaves.  Everything
proved about runs rests on these lemmas and not on the code of the stages.
-/

namespace MinputHop

open FlatMemory

/-! ## Connecting -/

/-- The calls of an attempt to connect that failed. -/
inductive FailedConnect : List Event → Prop where
  | noSocket : FailedConnect [.socket (-1)]
  | refused (time : Nat) (fd : Int) (addr : UInt32) (port : UInt16) {ret : Int} (failed : ret ≠ 0) :
      FailedConnect [.socket fd, .connect time fd addr port ret, .close fd]

/-- The configuration that an attempt to connect leaves. -/
def attempted (host : Host) (s : Sys) (socketFd : Int) : NetioCfg :=
  { s.config with
    pktBufSz := 0
    socketFd := socketFd
    calvDeadline := rearmedDeadline host s }

/-- The call of `connect()` in `netio_connect`. -/
def connectEvent (host : Host) (input : IterInput) (s : Sys) : Event :=
  .connect (host.clock s.ticks) input.socket (host.inetAddr (cString s.config.serverAddrMem))
    (UInt16.ofInt s.config.serverPort) input.connect

theorem Follows.disconnect {s s' : Sys} {config : NetioCfg} {elapsed : Nat} {calls : List Event}
    (follows : Follows s s' config elapsed calls) :
    Follows s (netioDisconnect s') { config with socketFd := 0, pktBufSz := 0 } elapsed
      (calls ++ [.close config.socketFd]) := by
  obtain rfl := follows.config_eq
  exact (follows.log.call rfl).set.log

section Connect

variable {input : IterInput} {s : Sys}

theorem netioConnect_noSocket (host : Host) (down : s.config.socketFd = 0) (noSocket : input.socket = -1) :
    ∃ s', netioConnect host input s = (minhopErrConnect, s') ∧
      Follows s s' { s.config with calvDeadline := rearmedDeadline host s } 1 [.socket (-1)] := by
  simp only [netioConnect, if_pos down, if_pos noSocket]
  refine ⟨_, rfl, ?_⟩
  rw [noSocket]
  exact ((Follows.refl s).log.call rfl).log.reset

theorem netioConnect_refused (host : Host) (down : s.config.socketFd = 0) (socket : input.socket ≠ -1)
    (refused : input.connect ≠ 0) :
    ∃ s', netioConnect host input s = (minhopErrConnect, s') ∧
      Follows s s'
        { s.config with
          socketFd := 0
          pktBufSz := 0
          calvDeadline := rearmedDeadline host s } 1
        [.socket input.socket, connectEvent host input s, .close input.socket] := by
  simp only [netioConnect, if_pos down, if_neg socket, connectSocket, if_pos refused]
  refine ⟨_, rfl, ?_⟩
  exact ((((Follows.refl s).log.call rfl).set.call rfl).log.disconnect).reset

theorem netioConnect_connected (host : Host) (down : s.config.socketFd = 0) (socket : input.socket ≠ -1)
    (accepted : input.connect = 0) :
    ∃ s', netioConnect host input s = (0, s') ∧
      Follows s s'
        { s.config with
          socketFd := input.socket
          calvDeadline := rearmedDeadline host s } 1
        [.socket input.socket, connectEvent host input s] := by
  simp only [netioConnect, if_pos down, if_neg socket, connectSocket,
    if_neg (not_not.mpr accepted)]
  refine ⟨_, rfl, ?_⟩
  exact (((Follows.refl s).log.call rfl).set.call rfl).log.reset

/-- An attempt to connect fails at one of its two calls, or succeeds. -/
theorem netioConnect_cases (host : Host) (input : IterInput) (down : s.config.socketFd = 0) :
    (input.socket = -1 ∧ ∃ s', netioConnect host input s = (minhopErrConnect, s') ∧
      Follows s s' { s.config with calvDeadline := rearmedDeadline host s } 1 [.socket (-1)]) ∨
    (input.socket ≠ -1 ∧ input.connect ≠ 0 ∧ ∃ s',
      netioConnect host input s = (minhopErrConnect, s') ∧
      Follows s s'
        { s.config with
          socketFd := 0
          pktBufSz := 0
          calvDeadline := rearmedDeadline host s } 1
        [.socket input.socket, connectEvent host input s, .close input.socket]) ∨
    (input.socket ≠ -1 ∧ input.connect = 0 ∧ ∃ s', netioConnect host input s = (0, s') ∧
      Follows s s'
        { s.config with
          socketFd := input.socket
          calvDeadline := rearmedDeadline host s } 1
        [.socket input.socket, connectEvent host input s]) := by
  by_cases noSocket : input.socket = -1
  · exact .inl ⟨noSocket, netioConnect_noSocket host down noSocket⟩
  · by_cases accepted : input.connect = 0
    · exact .inr (.inr ⟨noSocket, accepted, netioConnect_connected host down noSocket accepted⟩)
    · exact .inr (.inl ⟨noSocket, accepted, netioConnect_refused host down noSocket accepted⟩)

/-- An iteration goes on if it is connected, or a connection comes about. -/
theorem ensureConnected_cases (host : Host) (input : IterInput) (s : Sys) :
    (s.config.socketFd ≠ 0 ∧ ensureConnected host input s = (true, s)) ∨
    (s.config.socketFd = 0 ∧ ∃ s' calls, ensureConnected host input s = (false, s') ∧
      FailedConnect calls ∧ Follows s s' (attempted host s 0) 1 (.invalidate :: calls)) ∨
    (s.config.socketFd = 0 ∧ input.connect = 0 ∧ ∃ s' event,
      ensureConnected host input s = (true, s') ∧
      event = connectEvent host input { s with config.pktBufSz := 0 } ∧
      Follows s s' (attempted host s input.socket) 1
        [.invalidate, .socket input.socket, event]) := by
  by_cases down : s.config.socketFd = 0
  · have dropped : Follows s ({ s with config.pktBufSz := 0 }.emit .invalidate)
        { s.config with pktBufSz := 0 } 0 [.invalidate] := (Follows.refl s).set.call rfl
    have stillDown : ({ s with config.pktBufSz := 0 }.emit .invalidate).config.socketFd = 0 := down
    have failed : minhopErrConnect ≠ 0 := by decide
    simp only [ensureConnected, if_pos down]
    by_cases noSocket : input.socket = -1
    · obtain ⟨s', called, follows⟩ := netioConnect_noSocket host stillDown noSocket
      rw [called]
      simp only [failed, decide_false]
      refine .inr (.inl ⟨down, s', _, rfl, .noSocket, ?_⟩)
      rw [attempted, ← down]
      exact dropped.trans follows
    · by_cases accepted : input.connect = 0
      · obtain ⟨s', called, follows⟩ :=
          netioConnect_connected host stillDown noSocket accepted
        rw [called]
        exact .inr (.inr ⟨down, accepted, s', _, rfl, rfl, dropped.trans follows⟩)
      · obtain ⟨s', called, follows⟩ :=
          netioConnect_refused host stillDown noSocket accepted
        rw [called]
        simp only [failed, decide_false]
        exact .inr (.inl ⟨down, s', _, rfl, .refused _ _ _ _ accepted, dropped.trans follows⟩)
  · exact .inl ⟨down, by rw [ensureConnected, if_neg down]⟩

end Connect

/-! ## Fetching -/

/-- `config->pkt_buf_sz + recv_sz`, as the code adds them. -/
def fetchSum (s : Sys) (chunk : Chunk) : UInt32 :=
  s.config.pktBufSz + UInt32.ofNat chunk.bytes.length

/-- The argument of `realloc()`. -/
def reallocSize (host : Host) (s : Sys) (chunk : Chunk) : Nat :=
  (fetchSum s chunk + 100).toNat % 2 ^ host.sizeTBits

/-- The block that received data is appended to, its recorded size, and the
calls that led to it. -/
inductive Room (host : Host) (input : IterInput) (s : Sys) (chunk : Chunk) :
    Block UInt8 → UInt32 → List Event → Prop where
  | kept (fits : ¬UInt32.ofNat sockbufSz ≤ fetchSum s chunk) :
      Room host input s chunk s.config.pktBuf s.config.pktBufSzMax []
  | grown (full : UInt32.ofNat sockbufSz ≤ fetchSum s chunk) {left : Nat → UInt8}
      (granted : input.realloc = some left) :
      Room host input s chunk (s.config.pktBuf.resize (reallocSize host s chunk) left)
        (fetchSum s chunk + 100) [.realloc (reallocSize host s chunk) true]

/-- The configuration after `realloc()` returned no block. -/
def afterRefusal (host : Host) (s : Sys) (chunk : Chunk) : NetioCfg :=
  { s.config with pktBuf := s.config.pktBuf.refuse (reallocSize host s chunk) }

theorem afterRefusal_of_ne_zero {host : Host} {s : Sys} {chunk : Chunk}
    (some : reallocSize host s chunk ≠ 0) : afterRefusal host s chunk = s.config := by
  rw [afterRefusal, Block.refuse_of_ne_zero _ some]

/-- The configuration after data was appended to a block. -/
def appended (s : Sys) (chunk : Chunk) (block : Block UInt8) (szMax : UInt32) : NetioCfg :=
  { s.config with
    pktBuf := ⟨block.size, blit block.cells s.config.pktBufSz.toNat chunk.bytes⟩
    pktBufSz := fetchSum s chunk
    pktBufSzMax := szMax }

theorem netioFetchPackets_cases (host : Host) (input : IterInput) (s : Sys) :
    (input.recv = none ∧ ∃ s', netioFetchPackets host input s = (minhopErrRecv, s') ∧
      Follows s s' s.config 1 [.recv (host.clock s.ticks) s.config.socketFd none]) ∨
    (∃ chunk, input.recv = some chunk ∧ UInt32.ofNat sockbufSz ≤ fetchSum s chunk ∧
      input.realloc = none ∧ ∃ s', netioFetchPackets host input s = (minhopErrAlloc, s') ∧
      Follows s s' (afterRefusal host s chunk) 1
        [.recv (host.clock s.ticks) s.config.socketFd (some chunk.bytes),
          .realloc (reallocSize host s chunk) false]) ∨
    (∃ chunk block szMax calls, input.recv = some chunk ∧
      Room host input s chunk block szMax calls ∧
      ∃ s', netioFetchPackets host input s = (0, s') ∧
      Follows s s' (appended s chunk block szMax) 1
        (.recv (host.clock s.ticks) s.config.socketFd (some chunk.bytes) ::
          (calls ++ [.memcpy (host.clock s.ticks) s.config.pktBufSz.toNat chunk.bytes block.size]))) := by
  cases received : input.recv with
  | none =>
      refine .inl ⟨rfl, ?_⟩
      simp only [netioFetchPackets, received]
      exact ⟨_, rfl, ((Follows.refl s).call rfl).tick⟩
  | some chunk =>
      refine .inr ?_
      by_cases full : UInt32.ofNat sockbufSz ≤ fetchSum s chunk
      · cases granted : input.realloc with
        | none =>
            refine .inl ⟨chunk, rfl, full, rfl, ?_⟩
            rw [fetchSum] at full
            simp only [netioFetchPackets, received, granted, Sys.emit_config, if_pos full]
            exact ⟨_, rfl, ((Follows.refl s).call rfl).tick.log.call rfl |>.set.log⟩
        | some left =>
            refine .inr ⟨chunk, _, _, _, rfl, .grown full granted, ?_⟩
            rw [fetchSum] at full
            simp only [netioFetchPackets, received, granted, Sys.emit_config, if_pos full]
            exact ⟨_, rfl, ((((Follows.refl s).call rfl).tick.log.call rfl).set.call rfl).set⟩
      · refine .inr ⟨chunk, _, _, _, rfl, .kept full, ?_⟩
        rw [fetchSum] at full
        simp only [netioFetchPackets, received, Sys.emit_config, if_neg full]
        exact ⟨_, rfl, (((Follows.refl s).call rfl).tick.call rfl).set⟩

/-! ## Processing -/

/-- The front of the buffer claims no more than is there. -/
def Claimed (config : NetioCfg) : Prop :=
  config.pktBufSz ≠ 0 ∧ pktClaimSz config ≤ config.pktBufSz
  deriving Decidable

/-- The result of the loop that moves the rest of the buffer down. -/
def shifted (config : NetioCfg) : Bool × (Nat → UInt8) :=
  shiftPktBuf (pktClaimSz config) config.pktBufSzMax (config.pktBufSz - pktClaimSz config).toNat 0
    config.pktBuf.cells

/-- `s'` is left by a call of `netio_process_packets` in `s` that took a packet. -/
structure Dispatches (host : Host) (s s' : Sys) : Prop where
  config_eq : s'.config =
    { s.config with
      calvDeadline :=
        if rearms s.config.pktBuf.cells then rearmedDeadline host s else s.config.calvDeadline
      pktBuf := ⟨s.config.pktBuf.size, (shifted s.config).2⟩
      pktBufSz := s.config.pktBufSz - pktClaimSz s.config }
  ticks_eq : s'.ticks = s.ticks + if rearms s.config.pktBuf.cells then 1 else 0
  calls_eq : s'.calls = s.calls ++
    .dispatch (host.clock s.ticks) s.config.pktBuf.cells (pktClaimSz s.config) ::
      (packetOutputs host s.config.clientNameMem (s.mouseX, s.mouseY) s.config.pktBuf.cells
        (pktClaimSz s.config)).map (Output.event s.config.socketFd)
  mouse_eq : (s'.mouseX, s'.mouseY) = mouseAfter s.config.pktBuf.cells (s.mouseX, s.mouseY)

theorem Dispatches.log {host : Host} {s s' : Sys} (dispatches : Dispatches host s s') {stat : Stat}
    {fmt : String} {args : List PrintfArg} : Dispatches host s (osioPrintf stat fmt args s') where
  config_eq := dispatches.config_eq
  ticks_eq := dispatches.ticks_eq
  calls_eq := by
    rw [(Follows.refl s').log.calls_eq, List.append_nil, dispatches.calls_eq]
  mouse_eq := dispatches.mouse_eq

/-- Only a protocol error is reported about a packet. -/
theorem synprotoParseAndReply_retval (host : Host) (pktBuf : Nat → UInt8) (pktBufSz : UInt32)
    (s : Sys) : (synprotoParseAndReply host pktBuf pktBufSz s).1 = 0 ∨
      (synprotoParseAndReply host pktBuf pktBufSz s).1 = minhopErrProtocol := by
  rw [synprotoParseAndReply]
  cases PktType.ofCode? (pktTypeCode pktBuf) with
  | none => exact .inr rfl
  | some type =>
      cases type with
      | ebad => exact .inr rfl
      | dclp =>
          dsimp only
          split
          · exact .inl rfl
          · split
            · exact .inl rfl
            · split
              · exact .inr rfl
              · exact .inl rfl
      | _ => exact .inl rfl

/-- A packet that is there, up to the return of `synproto_parse_and_reply`. -/
def handOn (host : Host) (s : Sys) : Int × Sys :=
  synprotoParseAndReply host s.config.pktBuf.cells (pktClaimSz s.config)
    (s.emit (.dispatch (host.clock s.ticks) s.config.pktBuf.cells (pktClaimSz s.config)))

/-- From there on: the packet is removed from the buffer. -/
def removePacket (claimSz : UInt32) (retval : Int) (s : Sys) : Int × Sys :=
  let left := s.config.pktBufSz - claimSz
  let (moved, cells) := shiftPktBuf claimSz s.config.pktBufSzMax left.toNat 0 s.config.pktBuf.cells
  let s := { s with config :=
    { s.config with pktBuf := ⟨s.config.pktBuf.size, cells⟩, pktBufSz := left } }
  if moved then (retval, s)
  else (minhopErrOverflow, osioPrintf .error "pkt offset too large!" [] s)

/-- `s'` is left by the first half. -/
structure HandsOn (host : Host) (s s' : Sys) : Prop where
  config_eq : s'.config =
    { s.config with
      calvDeadline :=
        if rearms s.config.pktBuf.cells then rearmedDeadline host s else s.config.calvDeadline }
  ticks_eq : s'.ticks = s.ticks + if rearms s.config.pktBuf.cells then 1 else 0
  calls_eq : s'.calls = s.calls ++
    .dispatch (host.clock s.ticks) s.config.pktBuf.cells (pktClaimSz s.config) ::
      (packetOutputs host s.config.clientNameMem (s.mouseX, s.mouseY) s.config.pktBuf.cells
        (pktClaimSz s.config)).map (Output.event s.config.socketFd)
  mouse_eq : (s'.mouseX, s'.mouseY) = mouseAfter s.config.pktBuf.cells (s.mouseX, s.mouseY)

section Halves

variable {host : Host} {s s' : Sys}

theorem HandsOn.log (handsOn : HandsOn host s s') {stat : Stat} {fmt : String}
    {args : List PrintfArg} : HandsOn host s (osioPrintf stat fmt args s') where
  config_eq := handsOn.config_eq
  ticks_eq := handsOn.ticks_eq
  calls_eq := by
    rw [(Follows.refl s').log.calls_eq, List.append_nil, handsOn.calls_eq]
  mouse_eq := handsOn.mouse_eq

theorem handOn_handsOn (host : Host) (s : Sys) : HandsOn host s (handOn host s).2 := by
  obtain ⟨config_eq, ticks_eq, calls_eq, mouse_eq⟩ :=
    synprotoParseAndReply_reacts host s.config.pktBuf.cells (pktClaimSz s.config)
      (s.emit (.dispatch (host.clock s.ticks) s.config.pktBuf.cells (pktClaimSz s.config)))
  refine ⟨config_eq, ticks_eq, ?_, mouse_eq⟩
  have dispatch : Event.isLog (.dispatch (host.clock s.ticks) s.config.pktBuf.cells
      (pktClaimSz s.config)) = false := rfl
  rw [handOn, calls_eq, (follows_emit dispatch s).calls_eq, List.append_assoc]
  rfl

theorem HandsOn.remove (handsOn : HandsOn host s s') (retval : Int) :
    Dispatches host s (removePacket (pktClaimSz s.config) retval s').2 ∧
      (removePacket (pktClaimSz s.config) retval s').1 =
        if (shifted s.config).1 then retval else minhopErrOverflow := by
  obtain ⟨config, mouseX, mouseY, ticks, trace⟩ := s'
  obtain ⟨rfl, rfl, calls_eq, mouse_eq⟩ := handsOn
  rcases result : shifted s.config with ⟨moved, cells⟩
  have kept : cells = (shifted s.config).2 := by rw [result]
  rw [shifted] at result
  simp only [removePacket, result, kept]
  cases moved with
  | true => exact ⟨⟨rfl, rfl, calls_eq, mouse_eq⟩, rfl⟩
  | false =>
      rw [if_neg Bool.false_ne_true]
      refine ⟨Dispatches.log ?_, rfl⟩
      exact ⟨rfl, rfl, calls_eq, mouse_eq⟩

theorem netioProcessPackets_of_claimed (host : Host) (claimed : Claimed s.config) :
    netioProcessPackets host s =
      removePacket (pktClaimSz s.config) (handOn host s).1 (handOn host s).2 := by
  rw [netioProcessPackets, if_neg claimed.1]
  dsimp only
  rw [if_neg (UInt32.not_lt.mpr claimed.2)]
  rfl

end Halves

theorem netioProcessPackets_cases (host : Host) (s : Sys) :
    (¬Claimed s.config ∧ ∃ s', netioProcessPackets host s = (0, s') ∧
      Follows s s' s.config 0 []) ∨
    (Claimed s.config ∧ ∃ retval s', netioProcessPackets host s = (retval, s') ∧
      Dispatches host s s' ∧
      if (shifted s.config).1 then retval = 0 ∨ retval = minhopErrProtocol
      else retval = minhopErrOverflow) := by
  by_cases empty : s.config.pktBufSz = 0
  · refine .inl ⟨fun claimed => claimed.1 empty, ?_⟩
    rw [netioProcessPackets, if_pos empty]
    exact ⟨s, rfl, Follows.refl s⟩
  by_cases short : s.config.pktBufSz < pktClaimSz s.config
  · refine .inl ⟨fun claimed => UInt32.not_le.mpr short claimed.2, ?_⟩
    rw [netioProcessPackets, if_neg empty]
    dsimp only
    rw [if_pos short]
    exact ⟨_, rfl, (Follows.refl s).log⟩
  have claimed : Claimed s.config := ⟨empty, UInt32.not_lt.mp short⟩
  obtain ⟨dispatches, code⟩ := (handOn_handsOn host s).remove (handOn host s).1
  rw [← netioProcessPackets_of_claimed host claimed] at dispatches code
  refine .inr ⟨claimed, (netioProcessPackets host s).1, (netioProcessPackets host s).2, rfl,
    dispatches, ?_⟩
  rw [code]
  by_cases moved : (shifted s.config).1 = true
  · rw [if_pos moved, if_pos moved]
    exact synprotoParseAndReply_retval _ _ _ _
  · rw [if_neg moved, if_neg moved]

/-- `processPacket` is the same, with protocol errors swallowed. -/
theorem processPacket_cases (host : Host) (s : Sys) :
    (¬Claimed s.config ∧ ∃ s', processPacket host s = (0, s') ∧ Follows s s' s.config 0 []) ∨
    (Claimed s.config ∧ ∃ s', Dispatches host s s' ∧
      processPacket host s = (if (shifted s.config).1 then 0 else minhopErrOverflow, s')) := by
  rcases netioProcessPackets_cases host s with
    ⟨idle, s', called, follows⟩ | ⟨claimed, retval, s', called, dispatches, code⟩
  · refine .inl ⟨idle, s', ?_, follows⟩
    rw [processPacket, called]
    rfl
  · refine .inr ⟨claimed, ?_⟩
    cases moved : (shifted s.config).1 with
    | false =>
        rw [moved] at code
        obtain rfl : retval = minhopErrOverflow := code
        refine ⟨s', dispatches, ?_⟩
        rw [processPacket, called]
        rfl
    | true =>
        rw [moved] at code
        rcases code with rfl | rfl
        · refine ⟨s', dispatches, ?_⟩
          rw [processPacket, called]
          rfl
        · refine ⟨osioPrintf .debug "protocol error!" [] s', dispatches.log, ?_⟩
          rw [processPacket, called]
          rfl

/-- The clock is past the deadline, as the code compares them. -/
def TimedOut (host : Host) (s : Sys) : Prop :=
  s.config.calvDeadline < UInt32.ofNat (host.clock s.ticks)
  deriving Decidable

theorem checkKeepalive_cases (host : Host) (s : Sys) :
    (TimedOut host s ∧ s.config.socketFd ≠ 0 ∧
      Follows s (checkKeepalive host s) { s.config with socketFd := 0, pktBufSz := 0 } 1
        [.close s.config.socketFd]) ∨
    (¬(TimedOut host s ∧ s.config.socketFd ≠ 0) ∧
      Follows s (checkKeepalive host s) s.config 1 []) := by
  rw [checkKeepalive, osioGetTime]
  dsimp only
  by_cases late : TimedOut host s
  · by_cases up : s.config.socketFd ≠ 0
    · refine .inl ⟨late, up, ?_⟩
      rw [TimedOut] at late
      rw [if_pos late, if_pos (by exact up)]
      exact (Follows.refl s).tick.log.disconnect
    · refine .inr ⟨fun both => up both.2, ?_⟩
      rw [TimedOut] at late
      rw [if_pos late, if_neg (by exact up)]
      exact (Follows.refl s).tick.log
  · refine .inr ⟨fun both => late both.1, ?_⟩
    rw [TimedOut] at late
    rw [if_neg late]
    exact (Follows.refl s).tick

/-! ## The transitions of the loop -/

/-- Where control goes after a packet, or after finding none. -/
def afterPacket (pktProcIter : Nat) (s : Sys) : Stage :=
  if 0 < s.config.pktBufSz ∧ pktProcIter + 1 < pktProcPerLoop then .process (pktProcIter + 1)
  else .keepalive 0

/-- Every way one stage can go. -/
inductive Step (host : Host) (input : IterInput) : Stage → Sys → Stage → Sys → Prop where
  | connected {s : Sys} (up : s.config.socketFd ≠ 0) : Step host input .connect s .fetch s
  | failed {s s' : Sys} {calls : List Event} (down : s.config.socketFd = 0)
      (attempt : FailedConnect calls)
      (follows : Follows s s' (attempted host s 0) 1 (.invalidate :: calls)) :
      Step host input .connect s (.returned 0) s'
  | opened {s s' : Sys} {event : Event} (down : s.config.socketFd = 0)
      (accepted : input.connect = 0)
      (event_eq : event = connectEvent host input { s with config.pktBufSz := 0 })
      (follows : Follows s s' (attempted host s input.socket) 1
        [.invalidate, .socket input.socket, event]) :
      Step host input .connect s .fetch s'
  | starved {s s' : Sys} (nothing : input.recv = none)
      (follows : Follows s s' s.config 1 [.recv (host.clock s.ticks) s.config.socketFd none]) :
      Step host input .fetch s (.process 0) s'
  | exhausted {s s' : Sys} {chunk : Chunk} (received : input.recv = some chunk)
      (full : UInt32.ofNat sockbufSz ≤ fetchSum s chunk) (refused : input.realloc = none)
      (follows : Follows s s' (afterRefusal host s chunk) 1
        [.recv (host.clock s.ticks) s.config.socketFd (some chunk.bytes),
          .realloc (reallocSize host s chunk) false]) :
      Step host input .fetch s (.returned minhopErrAlloc) s'
  | filled {s s' : Sys} {chunk : Chunk} {block : Block UInt8} {szMax : UInt32}
      {calls : List Event} (received : input.recv = some chunk)
      (room : Room host input s chunk block szMax calls)
      (follows : Follows s s' (appended s chunk block szMax) 1
        (.recv (host.clock s.ticks) s.config.socketFd (some chunk.bytes) ::
          (calls ++
            [.memcpy (host.clock s.ticks) s.config.pktBufSz.toNat chunk.bytes block.size]))) :
      Step host input .fetch s (.process 0) s'
  | waited {s s' : Sys} {pktProcIter : Nat} (idle : ¬Claimed s.config)
      (follows : Follows s s' s.config 0 []) :
      Step host input (.process pktProcIter) s (afterPacket pktProcIter s') s'
  | took {s s' : Sys} {pktProcIter : Nat} (claimed : Claimed s.config)
      (moved : (shifted s.config).1 = true) (dispatches : Dispatches host s s') :
      Step host input (.process pktProcIter) s (afterPacket pktProcIter s') s'
  | overran {s s' : Sys} {pktProcIter : Nat} (claimed : Claimed s.config)
      (stuck : (shifted s.config).1 = false) (dispatches : Dispatches host s s') :
      Step host input (.process pktProcIter) s (.returned minhopErrOverflow) s'
  | dropped {s s' : Sys} {retval : Int} (late : TimedOut host s) (up : s.config.socketFd ≠ 0)
      (follows : Follows s s' { s.config with socketFd := 0, pktBufSz := 0 } 1
        [.close s.config.socketFd]) :
      Step host input (.keepalive retval) s (.returned retval) s'
  | kept {s s' : Sys} {retval : Int} (still : ¬(TimedOut host s ∧ s.config.socketFd ≠ 0))
      (follows : Follows s s' s.config 1 []) :
      Step host input (.keepalive retval) s (.returned retval) s'
  | rested {s : Sys} {retval : Int} : Step host input (.returned retval) s (.returned retval) s

theorem stageStep_process {host : Host} {input : IterInput} {s s' : Sys} {pktProcIter : Nat}
    (called : processPacket host s = (0, s')) :
    stageStep host input (.process pktProcIter) s = (afterPacket pktProcIter s', s') := by
  rw [stageStep, called, afterPacket]
  dsimp only
  rw [if_neg (by decide)]
  split <;> rfl

/-- The code of each stage goes one of these ways. -/
theorem stageStep_step (host : Host) (input : IterInput) (stage : Stage) (s : Sys) :
    Step host input stage s (stageStep host input stage s).1 (stageStep host input stage s).2 := by
  cases stage with
  | connect =>
      rcases ensureConnected_cases host input s with ⟨up, called⟩ |
        ⟨down, s', calls, called, attempt, follows⟩ |
        ⟨down, accepted, s', event, called, event_eq, follows⟩
      · rw [stageStep, called]
        exact .connected up
      · rw [stageStep, called]
        exact .failed down attempt follows
      · rw [stageStep, called]
        exact .opened down accepted event_eq follows
  | fetch =>
      rcases netioFetchPackets_cases host input s with ⟨nothing, s', called, follows⟩ |
        ⟨chunk, received, full, refused, s', called, follows⟩ |
        ⟨chunk, block, szMax, calls, received, room, s', called, follows⟩
      · rw [stageStep, called]
        exact .starved nothing follows
      · rw [stageStep, called]
        exact .exhausted received full refused follows
      · rw [stageStep, called]
        exact .filled received room follows
  | process pktProcIter =>
      rcases processPacket_cases host s with ⟨idle, s', called, follows⟩ |
        ⟨claimed, s', dispatches, called⟩
      · rw [stageStep_process called]
        exact .waited idle follows
      · cases moved : (shifted s.config).1 with
        | true =>
            rw [moved] at called
            rw [stageStep_process called]
            exact .took claimed moved dispatches
        | false =>
            rw [moved] at called
            rw [stageStep, called]
            exact .overran claimed moved dispatches
  | keepalive retval =>
      rcases checkKeepalive_cases host s with ⟨late, up, follows⟩ | ⟨still, follows⟩
      · exact .dropped late up follows
      · exact .kept still follows
  | returned retval => exact .rested

/-- A step only adds to the calls made so far. -/
theorem Step.calls_start {host : Host} {input : IterInput} {stage stage' : Stage} {s s' : Sys}
    (step : Step host input stage s stage' s') : s.calls <+: s'.calls := by
  cases step with
  | connected | rested => exact List.prefix_refl _
  | failed _ _ follows | opened _ _ _ follows | starved _ follows | exhausted _ _ _ follows
  | filled _ _ follows | waited _ follows | dropped _ _ follows | kept _ follows =>
      exact follows.calls_eq ▸ List.prefix_append _ _
  | took _ _ dispatches | overran _ _ dispatches =>
      exact dispatches.calls_eq ▸ List.prefix_append _ _

/-- The invariant rule of the loop, over its transitions. -/
theorem Reach.induction {host : Host} {Admits : IterInput → Stage → Sys → Prop} {start : Sys}
    (Inv : Stage → Sys → Prop) (initial : Inv .connect start)
    (preserved : ∀ {input stage s stage' s'}, Reach host Admits start input stage s →
      Admits input stage s → Step host input stage s stage' s' → Inv stage s → Inv stage' s')
    (restart : ∀ {s}, Inv (.returned 0) s → Inv .connect s)
    {input : IterInput} {stage : Stage} {s : Sys}
    (reach : Reach host Admits start input stage s) : Inv stage s :=
  StagedLoop.Reach.invariant initial
    (fun _ _ _ reach admits inv => preserved reach admits (stageStep_step _ _ _ _) inv)
    (fun _ => restart) reach

end MinputHop
