import Mathlib.Data.List.Forall2
import MinputHop.Program.Reassembly

/-!
# The bytes sent

Whatever the server sends, the replies on a connection are complete frames: one
or two payloads for each packet that is answered, in order.  The hello reply
echoes the version and gives the name, but announces seven bytes of name
whatever its length.
-/

namespace MinputHop

open FlatMemory Framing

/-! ## Names that end in their array -/

/-- The name that the user gave: what stands in front of the NUL. -/
def clientNameOf (clientName : Vector UInt8 64) : List UInt8 := cString clientName.toList

/-- The array holds a NUL. -/
def Terminated (clientName : Vector UInt8 64) : Prop := 0 ∈ clientName.toList

theorem terminated_defaultName : Terminated defaultName := by
  unfold Terminated
  decide

theorem cString_cons {c : UInt8} (other : c ≠ 0) (rest : List UInt8) :
    cString (c :: rest) = c :: cString rest :=
  List.takeWhile_cons_of_pos (p := fun c : UInt8 => decide (c ≠ 0)) (decide_eq_true other)

/-- A NUL ends the string in front of it, whatever memory follows. -/
theorem cString_append {mem : List UInt8} (terminated : 0 ∈ mem) (behind : List UInt8) :
    cString (mem ++ behind) = cString mem ∧ (cString mem).length < mem.length := by
  induction mem with
  | nil => exact absurd terminated List.not_mem_nil
  | cons c mem ih =>
      by_cases nul : c = 0
      · subst nul
        exact ⟨rfl, Nat.succ_pos _⟩
      · obtain ⟨same, shorter⟩ := ih ((List.mem_cons.mp terminated).resolve_left (Ne.symm nul))
        rw [List.cons_append, cString_cons nul, cString_cons nul, same]
        exact ⟨rfl, Nat.succ_lt_succ shorter⟩

theorem cString_clientNameMem {config : NetioCfg} (terminated : Terminated config.clientName) :
    cString config.clientNameMem = clientNameOf config.clientName := by
  rw [NetioCfg.clientNameMem, List.append_assoc, List.append_assoc]
  exact (cString_append terminated _).1

theorem length_clientNameOf_lt {clientName : Vector UInt8 64} (terminated : Terminated clientName) :
    (clientNameOf clientName).length < 64 := by
  have shorter := (cString_append terminated []).2
  rwa [Vector.length_toList] at shorter

/-- The record keeps the name it was set up with. -/
theorem Step.clientName_eq {host : Host} {input : IterInput} {stage stage' : Stage} {s s' : Sys}
    (step : Step host input stage s stage' s') :
    s'.config.clientName = s.config.clientName := by
  cases step with
  | connected | rested => rfl
  | failed _ _ follows | opened _ _ _ follows | starved _ follows | exhausted _ _ _ follows
  | filled _ _ follows | waited _ follows | dropped _ _ follows | kept _ follows =>
      exact (congrArg NetioCfg.clientName follows.config_eq).trans rfl
  | took _ _ dispatches | overran _ _ dispatches => rw [dispatches.config_eq]

theorem Reach.clientName_eq {host : Host} {Admits : IterInput → Stage → Sys → Prop}
    {serverAddr clientName : Vector UInt8 64} {serverPort : Int} {input : IterInput}
    {stage : Stage} {s : Sys}
    (reach : Reach host Admits (minputMainSetup serverAddr clientName serverPort) input stage s) :
    s.config.clientName = clientName :=
  Reach.induction (fun _ s => s.config.clientName = clientName) rfl
    (fun _ _ step same => step.clientName_eq.trans same) id reach

/-! ## The hello reply -/

/-- Reading a field and writing it again gives its bytes. -/
theorem encode_synprotoExval16 (pktBuf : Nat → UInt8) (off : Nat) :
    BigEndian.encode 2 (synprotoExval16 makefileBuild pktBuf off).toNat = window pktBuf off 2 := by
  have written := BigEndian.encode_value (window pktBuf off 2)
  rwa [length_window, ← toNat_synprotoExval16 makefileBuild_matched] at written

/-- The reply that a server expects: the version echoed, then the name behind its length. -/
def expectedHello (pktBuf : Nat → UInt8) (name : List UInt8) : List UInt8 :=
  BigEndian.encode 4 (15 + name.length) ++ (ascii "Barrier" ++ (window pktBuf 11 4 ++
    (BigEndian.encode 4 name.length ++ name)))

/-- The version is echoed byte for byte. -/
theorem helloPayload_eq (pktBuf : Nat → UInt8) (name : List UInt8) :
    helloPayload (synprotoExval16 makefileBuild pktBuf 11)
        (synprotoExval16 makefileBuild pktBuf 13) name =
      ascii "Barrier" ++ (window pktBuf 11 4 ++ (BigEndian.encode 4 7 ++ name)) := by
  rw [helloPayload, encode_synprotoExval16, encode_synprotoExval16, window_add pktBuf 11 2 2,
    List.append_assoc]

/-- The reply that is sent differs in the length in front of the name. -/
theorem lengthPrefixed_helloPayload (pktBuf : Nat → UInt8) (name : List UInt8) :
    lengthPrefixed (helloPayload (synprotoExval16 makefileBuild pktBuf 11)
        (synprotoExval16 makefileBuild pktBuf 13) name) =
      BigEndian.encode 4 (15 + name.length) ++ (ascii "Barrier" ++ (window pktBuf 11 4 ++
        (BigEndian.encode 4 7 ++ name))) := by
  rw [lengthPrefixed, length_helloPayload, helloPayload_eq]

/-- The hello reply is the expected one exactly for names of seven bytes. -/
theorem helloReply_iff {host : Host} {pktBuf : Nat → UInt8} {pktBufSz : UInt32} {s : Sys}
    (hello : PktType.ofCode? (pktTypeCode pktBuf) = some .barr)
    (terminated : Terminated s.config.clientName) :
    (synprotoParseAndReply host pktBuf pktBufSz s).2.calls =
        s.calls ++ [.send s.config.socketFd
          (expectedHello pktBuf (clientNameOf s.config.clientName))] ↔
      (clientNameOf s.config.clientName).length = 7 := by
  have short := length_clientNameOf_lt terminated
  rw [(synprotoParseAndReply_reacts host pktBuf pktBufSz s).calls_eq, packetOutputs, hello,
    cString_clientNameMem terminated]
  dsimp only
  rw [lengthPrefixed_helloPayload, List.map_singleton, Output.event, List.append_cancel_left_eq,
    List.cons.injEq, Event.send.injEq, expectedHello]
  constructor
  · rintro ⟨⟨_, same⟩, _⟩
    simp only [List.append_cancel_left_eq] at same
    have lengths := (List.append_inj_left same (by simp))
    have value := congrArg BigEndian.value lengths
    rw [BigEndian.value_encode_of_lt (by decide), BigEndian.value_encode_of_lt (by omega)] at value
    exact value.symm
  · intro seven
    rw [seven]
    exact ⟨⟨rfl, rfl⟩, rfl⟩

/-- Memory that starts with these bytes. -/
def memoryOf (bytes : List UInt8) : Nat → UInt8 := fun i => bytes.getD i 0

/-- `minput_main` for a client of this name. -/
def namedSetup (name : String) : Sys := minputMainSetup defaultAddr (padded name) 24800

theorem helloReply_iff_desktop :
    (synprotoParseAndReply unixHost (memoryOf helloPacket) 15 (namedSetup "desktop")).2.calls =
        (namedSetup "desktop").calls ++ [.send (namedSetup "desktop").config.socketFd
          (expectedHello (memoryOf helloPacket)
            (clientNameOf (namedSetup "desktop").config.clientName))] ↔
      (clientNameOf (namedSetup "desktop").config.clientName).length = 7 :=
  helloReply_iff (by decide +kernel) (by unfold Terminated; decide +kernel)

/-- A client called "pc" announces seven bytes of name. -/
theorem helloReply_not_always :
    ¬∀ (host : Host) (pktBuf : Nat → UInt8) (pktBufSz : UInt32) (s : Sys),
      PktType.ofCode? (pktTypeCode pktBuf) = some .barr → 15 ≤ pktBufSz.toNat →
      Terminated s.config.clientName →
      (synprotoParseAndReply host pktBuf pktBufSz s).2.calls =
        s.calls ++ [.send s.config.socketFd
          (expectedHello pktBuf (clientNameOf s.config.clientName))] := by
  intro always
  have calls := always unixHost (memoryOf helloPacket) 15 (namedSetup "pc") (by decide +kernel)
    (by decide) (by unfold Terminated; decide +kernel)
  have wrong : (synprotoParseAndReply unixHost (memoryOf helloPacket) 15
      (namedSetup "pc")).2.outputs ≠
      [.reply (expectedHello (memoryOf helloPacket) (ascii "pc"))] := by
    decide +kernel
  have name : clientNameOf (namedSetup "pc").config.clientName = ascii "pc" := by decide +kernel
  rw [name] at calls
  exact wrong (by rw [Sys.outputs, calls]; rfl)

/-! ## Every connection is answered in frames -/

/-- The payloads that answer a packet of a type. -/
def AnswersWith (host : Host) (pktBuf : Nat → UInt8) (payloads : List (List UInt8)) : Prop :=
  match PktType.ofCode? (pktTypeCode pktBuf) with
  | some .barr => ∃ payload, payloads = [payload] ∧ ascii "Barrier" <+: payload
  | some .qinf => payloads = [infoPayload host.screenW host.screenH] ∧
      (infoPayload host.screenW host.screenH).length = 18
  | some .calv => payloads = [ascii "CALV", ascii "CNOP"]
  | _ => payloads = []

theorem length_infoPayload (screenW screenH : UInt16) : (infoPayload screenW screenH).length = 18 := by
  rw [infoPayload, List.length_append, List.length_flatten]
  rfl

theorem length_helloPayload_lt (verMaj verMin : UInt16) (config : NetioCfg) :
    (helloPayload verMaj verMin (cString config.clientNameMem)).length < 2 ^ 32 := by
  have short := length_cString_clientNameMem config
  rw [length_helloPayload]
  omega

/-- The bytes sent for a packet are the frames of its answer. -/
theorem sentBytes_packetOutputs (host : Host) (config : NetioCfg) (mouse : UInt16 × UInt16)
    (pktBuf : Nat → UInt8) (pktBufSz : UInt32) :
    ∃ payloads, AnswersWith host pktBuf payloads ∧
      (∀ payload ∈ payloads, payload.length < 2 ^ 32) ∧
      sentBytes (packetOutputs host config.clientNameMem mouse pktBuf pktBufSz) =
        (payloads.map lengthPrefixed).flatten := by
  cases kind : PktType.ofCode? (pktTypeCode pktBuf) with
  | none =>
      simp only [AnswersWith, packetOutputs, kind]
      exact ⟨[], rfl, List.forall_mem_nil _, rfl⟩
  | some type =>
      simp only [AnswersWith, packetOutputs, kind]
      cases type with
      | barr =>
          refine ⟨[helloPayload (synprotoExval16 makefileBuild pktBuf 11)
            (synprotoExval16 makefileBuild pktBuf 13) (cString config.clientNameMem)],
            ⟨_, rfl, List.prefix_append _ _⟩, ?_, by simp [sentBytes]⟩
          intro payload member
          rw [List.mem_singleton.mp member]
          exact length_helloPayload_lt _ _ config
      | qinf =>
          refine ⟨_, ⟨rfl, length_infoPayload _ _⟩, ?_, by simp [sentBytes]⟩
          intro payload member
          rw [List.mem_singleton.mp member, length_infoPayload]
          decide
      | calv => exact ⟨_, rfl, by decide, rfl⟩
      | dclp =>
          refine ⟨[], rfl, List.forall_mem_nil _, ?_⟩
          dsimp only
          split <;> rfl
      | _ => exact ⟨[], rfl, List.forall_mem_nil _, rfl⟩

/-- The replies of a connection are one answer for each packet, in order. -/
def Answered (host : Host) (conn : Conn) : Prop :=
  ∃ groups : List (List (List UInt8)),
    List.Forall₂ (fun packet payloads => AnswersWith host packet.1 payloads) conn.packets groups ∧
    (∀ payload ∈ groups.flatten, payload.length < 2 ^ 32) ∧
    conn.sent = (groups.flatten.map lengthPrefixed).flatten

theorem Answered.take {host : Host} {conn : Conn} (answered : Answered host conn)
    (config : NetioCfg) (mouse : UInt16 × UInt16) (pktBuf : Nat → UInt8) (pktBufSz : UInt32) :
    Answered host (conn.take pktBuf pktBufSz
      (sentBytes (packetOutputs host config.clientNameMem mouse pktBuf pktBufSz))) := by
  obtain ⟨groups, answers, short, sent⟩ := answered
  obtain ⟨payloads, answer, shortNew, sentNew⟩ :=
    sentBytes_packetOutputs host config mouse pktBuf pktBufSz
  have flattened : (groups ++ [payloads]).flatten = groups.flatten ++ payloads := by
    rw [List.flatten_append, List.flatten_singleton]
  refine ⟨groups ++ [payloads], List.rel_append answers (.cons answer .nil), ?_, ?_⟩
  · intro payload member
    rw [flattened] at member
    rcases List.mem_append.mp member with member | member
    · exact short payload member
    · exact shortNew payload member
  · change conn.sent ++ _ = _
    rw [sent, sentNew, flattened, List.map_append, List.flatten_append]

theorem Step.answered {host : Host} {input : IterInput} {stage stage' : Stage} {s s' : Sys}
    (step : Step host input stage s stage' s') (attached : Attached stage s)
    (inv : Ledger (Answered host) (Answered host) s) :
    Ledger (Answered host) (Answered host) s' := by
  cases step with
  | connected | rested => exact inv
  | failed _ attempt follows => exact inv.ended (fun _ => id) (follows.connections_failed attempt)
  | opened _ accepted event_eq follows =>
      have fresh : Answered host .opened := ⟨[], .nil, List.forall_mem_nil _, rfl⟩
      exact inv.opened (fun _ => id) (follows.connections_opened accepted event_eq) fresh fresh
  | starved _ follows | waited _ follows | kept _ follows =>
      exact inv.unchanged follows.connections_eq fun _ => id
  | @exhausted _ _ chunk _ _ _ follows =>
      obtain ⟨conn, older, live, current⟩ := attached
      have after := follows.connections_exhausted current
      have answered := inv.current conn older current live
      exact inv.changed current after answered answered
  | @filled _ _ chunk _ _ _ _ room follows =>
      obtain ⟨conn, older, live, current⟩ := attached
      have after := follows.connections_filled room current
      have answered := inv.current conn older current live
      exact inv.changed current after answered answered
  | took _ _ dispatches | overran _ _ dispatches =>
      obtain ⟨conn, older, live, current⟩ := attached
      have answered := (inv.current conn older current live).take s.config (s.mouseX, s.mouseY)
        s.config.pktBuf.cells (pktClaimSz s.config)
      exact inv.changed current (dispatches.connections_eq current) answered answered
  | dropped _ _ follows => exact inv.ended (fun _ => id) follows.connections_eq

/-- Everything sent on a connection decodes completely, into the answers to its
packets. -/
theorem decode_sent {host : Host} {Admits : IterInput → Stage → Sys → Prop}
    {serverAddr clientName : Vector UInt8 64} {serverPort : Int} {input : IterInput}
    {stage : Stage} {s : Sys}
    (reach : Reach host Admits (minputMainSetup serverAddr clientName serverPort) input stage s)
    {conn : Conn} (member : conn ∈ s.connections) :
    ∃ groups : List (List (List UInt8)),
      List.Forall₂ (fun packet payloads => AnswersWith host packet.1 payloads)
        conn.packets groups ∧
      wireCode.decode conn.sent = some (groups.flatten.map lengthPrefixed) := by
  have ledger := Reach.induction (fun _ s => Ledger (Answered host) (Answered host) s)
    (.empty rfl) (fun reach _ step inv => step.answered (Reach.attached reach) inv) id reach
  obtain ⟨groups, answers, short, sent⟩ := ledger.past conn member
  refine ⟨groups, answers, ?_⟩
  rw [sent]
  apply Code.decode_flatten
  intro frame framed
  obtain ⟨payload, member, rfl⟩ := List.mem_map.mp framed
  exact isFrame_lengthPrefixed (short payload member)

/-- Greetings and keepalives were answered on two connections. -/
theorem decode_sent_cut : ∃ second first, afterTwo.connections = [second, first] ∧
    second.packets.length = 3 ∧ first.packets.length = 2 ∧
    ∀ conn ∈ [second, first], ∃ groups : List (List (List UInt8)),
      List.Forall₂ (fun packet payloads => AnswersWith tickingHost packet.1 payloads)
        conn.packets groups ∧
      wireCode.decode conn.sent = some (groups.flatten.map lengthPrefixed) := by
  have packets : afterTwo.connections.map (fun conn => conn.packets.length) = [3, 2] := by
    decide +kernel
  obtain ⟨second, rest, shape, onSecond, onRest⟩ := List.map_eq_cons_iff.mp packets
  obtain ⟨first, rfl, onFirst⟩ := List.map_eq_singleton_iff.mp onRest
  exact ⟨second, first, shape, onSecond, onFirst,
    fun conn member => decode_sent reach_afterTwo (shape ▸ member)⟩

end MinputHop
