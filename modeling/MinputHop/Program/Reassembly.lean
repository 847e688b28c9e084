import MinputHop.Program.Connections

/-!
# Reassembly of the stream

The packet buffer is a receiver of length-prefixed frames.  On every connection
the packets handed on are frames of the stream the server sent there, in order,
and the buffer holds what was appended after them, however the stream was cut
into pieces.
-/

namespace MinputHop

open FlatMemory Framing

/-! ## The frames on the wire -/

/-- Four bytes of big-endian length, then the payload. -/
def wireCode : Code UInt8 where
  header := 4
  header_pos := by decide
  size buf := BigEndian.value (buf.take 4) + 4
  size_take buf := by rw [List.take_take, Nat.min_self]

/-- A frame whose length stays below `2 ^ 31`. -/
def WireFrame (frame : List UInt8) : Prop :=
  ∃ payload : List UInt8, payload.length < 2 ^ 31 ∧ frame = lengthPrefixed payload

theorem length_lengthPrefixed (payload : List UInt8) :
    (lengthPrefixed payload).length = payload.length + 4 := by
  rw [lengthPrefixed, List.length_append, BigEndian.length_encode, Nat.add_comm]

theorem size_lengthPrefixed {payload : List UInt8} (short : payload.length < 2 ^ 32)
    (rest : List UInt8) :
    wireCode.size (lengthPrefixed payload ++ rest) = payload.length + 4 := by
  have header : (lengthPrefixed payload ++ rest).take 4 = BigEndian.encode 4 payload.length := by
    rw [lengthPrefixed, List.append_assoc]
    exact List.take_left' (BigEndian.length_encode 4 _)
  change BigEndian.value ((lengthPrefixed payload ++ rest).take 4) + 4 = _
  rw [header, BigEndian.value_encode_of_lt short]

theorem isFrame_lengthPrefixed {payload : List UInt8} (short : payload.length < 2 ^ 32) :
    wireCode.IsFrame (lengthPrefixed payload) where
  header_le := by
    rw [length_lengthPrefixed]
    exact Nat.le_add_left 4 _
  size_eq := by
    have size := size_lengthPrefixed short []
    rwa [List.append_nil, ← length_lengthPrefixed] at size

/-- A frame is what its payload makes it, whatever announces it. -/
theorem wireFrame_iff (frame : List UInt8) :
    WireFrame frame ↔ (frame.drop 4).length < 2 ^ 31 ∧ frame = lengthPrefixed (frame.drop 4) := by
  constructor
  · rintro ⟨payload, short, rfl⟩
    have behind : (lengthPrefixed payload).drop 4 = payload :=
      List.drop_left' (BigEndian.length_encode 4 _)
    rw [behind]
    exact ⟨short, rfl⟩
  · rintro ⟨short, same⟩
    exact ⟨_, short, same⟩

instance (frame : List UInt8) : Decidable (WireFrame frame) :=
  decidable_of_iff _ (wireFrame_iff frame).symm

theorem WireFrame.isFrame {frame : List UInt8} (wire : WireFrame frame) :
    wireCode.IsFrame frame := by
  obtain ⟨payload, short, rfl⟩ := wire
  exact isFrame_lengthPrefixed (Nat.lt_trans short (by decide))

/-- The first byte of a frame is below `0x80`. -/
theorem WireFrame.first_byte {frame : List UInt8} (wire : WireFrame frame) :
    ∃ byte rest, frame = byte :: rest ∧ byte.toNat < 128 := by
  obtain ⟨payload, short, rfl⟩ := wire
  refine ⟨UInt8.ofNat (payload.length / 256 ^ 3), _, rfl, ?_⟩
  rw [UInt8.toNat_ofNat']
  omega

/-! ## What the code reads off the buffer -/

/-- The payload length that the front of the buffer announces. -/
def announced (config : NetioCfg) : Nat := BigEndian.value (window config.pktBuf.cells 0 4)

theorem announced_lt (config : NetioCfg) : announced config < 2 ^ 32 := by
  have bound := BigEndian.value_lt (window config.pktBuf.cells 0 4)
  rwa [length_window] at bound

/-- The header is added in `uint32_t`. -/
theorem toNat_pktClaimSz (config : NetioCfg) :
    (pktClaimSz config).toNat = (announced config + 4) % 2 ^ 32 := by
  rw [pktClaimSz, UInt32.toNat_add, toNat_synprotoExval32 makefileBuild_matched]
  rfl

/-- A complete header announces the size of the frame in front. -/
theorem size_buffered {s : Sys} (complete : 4 ≤ s.config.pktBufSz.toNat) :
    wireCode.size s.buffered = announced s.config + 4 := by
  change BigEndian.value (s.buffered.take 4) + 4 = announced s.config + 4
  rw [Sys.buffered, take_window _ _ complete, announced]

/-- A complete packet is claimed. -/
theorem claimed_of_size {s : Sys} (complete : 4 ≤ s.config.pktBufSz.toNat)
    (whole : wireCode.size s.buffered ≤ s.config.pktBufSz.toNat) : Claimed s.config := by
  have size := size_buffered complete
  have bound := s.config.pktBufSz.toNat_lt
  have claim := toNat_pktClaimSz s.config
  rw [Nat.mod_eq_of_lt (by omega)] at claim
  refine ⟨fun empty => ?_, UInt32.le_iff_toNat_le.mpr (by omega)⟩
  rw [empty] at complete
  exact absurd complete (by decide)

/-- A packet in front of a stream of frames is claimed with its true size, and
only when its header has arrived: with fewer bytes the first of them alone keeps
the size out of reach, whatever is left behind it in the buffer. -/
theorem Claimed.announces {s : Sys} (claimed : Claimed s.config) {frame rest : List UInt8}
    (wire : WireFrame frame) (held : s.buffered <+: frame ++ rest) :
    4 ≤ s.buffered.length ∧ (pktClaimSz s.config).toNat = wireCode.size s.buffered := by
  obtain ⟨byte, frame, rfl, small⟩ := wire.first_byte
  have some : 0 < s.config.pktBufSz.toNat := by
    have nonzero : s.config.pktBufSz.toNat ≠ 0 := fun zero =>
      claimed.1 (UInt32.toNat_inj.mp zero)
    omega
  have first : s.config.pktBuf.cells 0 = byte := by
    have read := getElem?_window s.config.pktBuf.cells 0 some
    rw [Nat.zero_add] at read
    obtain ⟨tail, shape⟩ := held
    have same := congrArg (·[0]?) shape
    rw [List.getElem?_append_left (by rw [s.length_buffered]; exact some)] at same
    exact Option.some.inj (read.symm.trans same)
  have size : announced s.config < 2 ^ 31 := by
    have low := BigEndian.value_lt (window s.config.pktBuf.cells (0 + 1) 3)
    rw [length_window] at low
    rw [announced, window_succ, BigEndian.value_cons, length_window, first]
    omega
  have fits := claimed.le
  have claim := toNat_pktClaimSz s.config
  rw [Nat.mod_eq_of_lt (by omega)] at claim
  have complete : 4 ≤ s.buffered.length := by
    rw [s.length_buffered]
    omega
  refine ⟨complete, claim.trans (size_buffered ?_).symm⟩
  rwa [s.length_buffered] at complete

/-! ## One connection -/

/-- A connection seen as a receiver that still holds `pending`. -/
structure Keeps (conn : Conn) (pending : List UInt8) : Prop where
  split : conn.appended = conn.dispatched.flatten ++ pending
  arrived : conn.appended <+: conn.received
  faithful : (Receiver.mk conn.appended conn.dispatched pending split).Faithful WireFrame

namespace Keeps

variable {conn : Conn} {pending : List UInt8}

theorem opened : Keeps .opened [] := ⟨rfl, List.prefix_refl _, Receiver.faithful_fresh⟩

theorem ended (keeps : Keeps conn pending) : Keeps conn.ended pending :=
  ⟨keeps.split, keeps.arrived, keeps.faithful⟩

theorem arrive (keeps : Keeps conn pending) (data : List UInt8) :
    Keeps (conn.arrive data) pending :=
  ⟨keeps.split, keeps.arrived.trans (List.prefix_append _ _), keeps.faithful⟩

/-- What arrived is appended in the same step, so nothing is left out in between. -/
theorem append (keeps : Keeps conn pending) (complete : conn.appended = conn.received)
    (data : List UInt8) : Keeps ((conn.arrive data).append data) (pending ++ data) where
  split := by
    change conn.appended ++ data = conn.dispatched.flatten ++ (pending ++ data)
    rw [keeps.split, List.append_assoc]
  arrived := by
    change conn.appended ++ data <+: conn.received ++ data
    rw [complete]
  faithful := keeps.faithful.receive data

/-- Handing on the claimed bytes of the buffer keeps the account. -/
theorem take {s : Sys} (keeps : Keeps conn s.buffered) (claimed : Claimed s.config)
    (reply : List UInt8) :
    Keeps (conn.take s.config.pktBuf.cells (pktClaimSz s.config) reply)
      (s.buffered.drop (pktClaimSz s.config).toNat) := by
  have fits := claimed.le
  have nonempty : s.buffered ≠ [] := by
    intro empty
    have none := s.length_buffered
    rw [empty] at none
    exact claimed.1 (UInt32.toNat_inj.mp none.symm)
  have front : (conn.take s.config.pktBuf.cells (pktClaimSz s.config) reply).dispatched =
      conn.dispatched ++ [s.buffered.take (pktClaimSz s.config).toNat] := by
    rw [Conn.dispatched_take, Sys.buffered, take_window _ _ fits]
  have delivered := keeps.faithful.deliver (fun _ => WireFrame.isFrame)
    nonempty (by rw [Sys.length_buffered]; exact fits)
    (fun frame rest wire held => claimed.announces wire held)
  refine ⟨?_, keeps.arrived, ?_⟩
  · rw [front]
    exact (Receiver.deliver ⟨conn.appended, conn.dispatched, s.buffered, keeps.split⟩ _).split
  · intro frames wire start
    have prefixed := delivered frames wire start
    change _ ++ [s.buffered.take _] <+: frames at prefixed
    rw [← front] at prefixed
    exact prefixed

/-- Of a stream of frames, a prefix was handed on. -/
theorem once (keeps : Keeps conn pending) (payloads : List (List UInt8))
    (short : ∀ payload ∈ payloads, payload.length < 2 ^ 31)
    (start : conn.received <+: (payloads.map lengthPrefixed).flatten) :
    conn.dispatched <+: payloads.map lengthPrefixed := by
  refine keeps.faithful (payloads.map lengthPrefixed) ?_ (keeps.arrived.trans start)
  intro frame framed
  obtain ⟨payload, member, rfl⟩ := List.mem_map.mp framed
  exact ⟨payload, short payload member, rfl⟩

end Keeps

section Buffer

variable {host : Host} {input : IterInput} {s s' : Sys} {chunk : Chunk} {block : Block UInt8}
  {szMax : UInt32} {calls : List Event}

/-- Growing the block keeps what is buffered. -/
theorem Room.window_eq (room : Room host input s chunk block szMax calls)
    (capacity : Capacity s.config) (enough : s.config.pktBufSz.toNat ≤ block.size) :
    window block.cells 0 s.config.pktBufSz.toNat = s.buffered := by
  cases room with
  | kept => rfl
  | grown =>
      have held := capacity.held
      have allocated := capacity.allocated
      exact window_resize _ _ _ (by omega) (by rw [Nat.zero_add]; exact enough)

theorem Room.buffered_appended (room : Room host input s chunk block szMax calls)
    (capacity : Capacity s.config)
    (fits : s.config.pktBufSz.toNat + chunk.bytes.length + 100 < 2 ^ 32)
    (argument : s.config.pktBufSz.toNat + chunk.bytes.length + 100 < 2 ^ host.sizeTBits)
    (config_eq : s'.config = appended s chunk block szMax) :
    s'.buffered = s.buffered ++ chunk.bytes := by
  obtain ⟨allocated, _, _, held⟩ := room.enough capacity fits argument
  have sum := toNat_fetchSum s chunk
  rw [Nat.mod_eq_of_lt (by omega)] at sum
  rw [Sys.buffered, config_eq, appended]
  dsimp only
  rw [sum, window_append_blit, room.window_eq capacity (by omega)]

theorem Dispatches.buffered_eq (dispatches : Dispatches host s s') (claimed : Claimed s.config)
    (capacity : Capacity s.config) :
    s'.buffered = s.buffered.drop (pktClaimSz s.config).toNat := by
  rw [Sys.buffered, dispatches.config_eq]
  dsimp only
  rw [capacity.shifted_eq claimed, claimed.toNat_left]
  exact window_copyDown _ claimed.le

theorem buffered_of_config {config : NetioCfg} (config_eq : s'.config = config)
    (same : config.pktBuf.cells = s.config.pktBuf.cells) (size : config.pktBufSz = s.config.pktBufSz) :
    s'.buffered = s.buffered := by
  rw [Sys.buffered, config_eq, same, size]
  rfl

theorem buffered_of_empty (empty : s.config.pktBufSz = 0) : s.buffered = [] := by
  rw [Sys.buffered, empty]
  rfl

end Buffer

/-! ## The invariant -/

/-- Every connection kept its stream, and the one in use holds the buffer. -/
structure Reassembled (stage : Stage) (s : Sys) : Prop where
  ledger : Ledger (fun conn => ∃ pending, Keeps conn pending)
    (fun conn => Keeps conn s.buffered ∧
      (stage ≠ .returned minhopErrAlloc → conn.appended = conn.received)) s
  idle : s.current = none → s.config.pktBufSz = 0

theorem ended_of_keeps (conn : Conn) (keeps : ∃ pending, Keeps conn pending) :
    ∃ pending, Keeps conn.ended pending :=
  keeps.imp fun _ => Keeps.ended

theorem current_ne_none {s : Sys} {conn : Conn} {older : List Conn}
    (shape : s.connections = conn :: older) (live : conn.live = true) : s.current ≠ none := by
  rw [Sys.current, shape]
  simp [live]

namespace Reassembled

variable {stage stage' : Stage} {s s' : Sys}

/-- A step without calls that leaves the buffer alone. -/
theorem unchanged (inv : Reassembled stage s) {config : NetioCfg} {elapsed : Nat}
    {calls : List Event} (follows : Follows s s' config elapsed calls)
    (quiet : calls.foldl trackConn s.connections = s.connections)
    (same : config = s.config) (notAlloc : stage ≠ .returned minhopErrAlloc) :
    Reassembled stage' s' := by
  have connections_eq : s'.connections = s.connections := follows.connections_eq.trans quiet
  have config_eq : s'.config = s.config := follows.config_eq.trans same
  refine ⟨inv.ledger.unchanged connections_eq fun conn ⟨keeps, complete⟩ => ⟨?_, ?_⟩, fun none => ?_⟩
  · rw [Sys.buffered, config_eq]
    exact keeps
  · exact fun _ => complete notAlloc
  · rw [Sys.current, connections_eq] at none
    rw [config_eq]
    exact inv.idle none

/-- The connection in use changed, and the buffer with it. -/
theorem changed (inv : Reassembled stage s) {conn conn' : Conn} {older : List Conn}
    (before : s.connections = conn :: older) (after : s'.connections = conn' :: older)
    (live : conn'.live = true) (keeps : Keeps conn' s'.buffered)
    (complete : stage' ≠ .returned minhopErrAlloc → conn'.appended = conn'.received) :
    Reassembled stage' s' where
  ledger := inv.ledger.changed before after ⟨_, keeps⟩ ⟨keeps, complete⟩
  idle none := absurd none (current_ne_none after live)

/-- What was received is lost where `realloc()` fails. -/
theorem refused {host : Host} {time : Nat} {fd : Int} {size : Nat} {chunk : Chunk} {s s' : Sys}
    (inv : Reassembled .fetch s) (attached : Attached .fetch s)
    (follows : Follows s s' (afterRefusal host s chunk) 1
      [.recv time fd (some chunk.bytes), .realloc size false]) :
    Reassembled (.returned minhopErrAlloc) s' := by
  obtain ⟨conn, older, live, current⟩ := attached
  have after := follows.connections_exhausted current
  obtain ⟨keeps, _⟩ := inv.ledger.current conn older current live
  refine inv.changed current after live ?_ (absurd rfl)
  rw [buffered_of_config follows.config_eq rfl rfl]
  exact keeps.arrive chunk.bytes

end Reassembled

theorem Step.reassembled {host : Host} {input : IterInput} {stage stage' : Stage} {s s' : Sys}
    (step : Step host input stage s stage' s') (admits : fetchesFit host input stage s)
    (capacity : Capacity s.config) (attached : Attached stage s) (inv : Reassembled stage s) :
    Reassembled stage' s' := by
  cases step with
  | connected => exact ⟨inv.ledger.unchanged rfl fun _ ⟨keeps, complete⟩ =>
      ⟨keeps, fun _ => complete nofun⟩, inv.idle⟩
  | failed _ attempt follows =>
      exact ⟨inv.ledger.ended ended_of_keeps (follows.connections_failed attempt),
        fun _ => by rw [follows.config_eq]; rfl⟩
  | opened _ accepted event_eq follows =>
      have empty : s'.config.pktBufSz = 0 := by rw [follows.config_eq]; rfl
      refine ⟨inv.ledger.opened ended_of_keeps (follows.connections_opened accepted event_eq)
        ⟨[], Keeps.opened⟩ ?_, fun _ => empty⟩
      rw [buffered_of_empty empty]
      exact ⟨Keeps.opened, fun _ => rfl⟩
  | starved _ follows | waited _ follows | kept _ follows =>
      exact inv.unchanged follows rfl rfl nofun
  | exhausted _ _ _ follows => exact inv.refused attached follows
  | @filled _ _ chunk _ _ _ received room follows =>
      obtain ⟨conn, older, live, current⟩ := attached
      have after := follows.connections_filled room current
      obtain ⟨keeps, complete⟩ := inv.ledger.current conn older current live
      obtain ⟨fits, argument⟩ := (admits rfl).of_room received room
      refine inv.changed current after live ?_ fun _ => ?_
      · rw [room.buffered_appended capacity fits argument follows.config_eq]
        exact keeps.append (complete nofun) chunk.bytes
      · exact congrArg (· ++ chunk.bytes) (complete nofun)
  | took claimed _ dispatches | overran claimed _ dispatches =>
      obtain ⟨conn, older, live, current⟩ := attached
      obtain ⟨keeps, complete⟩ := inv.ledger.current conn older current live
      refine inv.changed current (dispatches.connections_eq current) live ?_ fun _ => complete nofun
      rw [dispatches.buffered_eq claimed capacity]
      exact keeps.take claimed _
  | dropped _ _ follows =>
      exact ⟨inv.ledger.ended ended_of_keeps follows.connections_eq,
        fun _ => by rw [follows.config_eq]⟩
  | rested => exact inv

theorem reassembled_setup (serverAddr clientName : Vector UInt8 64) (serverPort : Int) :
    Reassembled .connect (minputMainSetup serverAddr clientName serverPort) :=
  ⟨.empty rfl, fun _ => rfl⟩

section Runs

variable {host : Host} {Admits : IterInput → Stage → Sys → Prop}
  {serverAddr clientName : Vector UInt8 64} {serverPort : Int} {input : IterInput}
  {stage : Stage} {s : Sys}

theorem Reach.reassembled (weaker : ∀ input stage s, Admits input stage s →
      fetchesFit host input stage s)
    (reach : Reach host Admits (minputMainSetup serverAddr clientName serverPort) input stage s) :
    Reassembled stage s := by
  refine Reach.induction Reassembled (reassembled_setup _ _ _) ?_ ?_ reach
  · intro _ _ _ _ _ reach admits step inv
    exact step.reassembled (weaker _ _ _ admits) (Reach.capacity weaker reach)
      (Reach.attached reach) inv
  · intro s inv
    have notAlloc : Stage.returned 0 ≠ .returned minhopErrAlloc := by decide
    exact ⟨inv.ledger.unchanged rfl fun _ ⟨keeps, complete⟩ =>
      ⟨keeps, fun _ => complete notAlloc⟩, inv.idle⟩

/-- On every connection that carries a stream of frames, exactly a prefix of
the frames was handed on; and the buffer holds what was appended on the
connection in use after the packets handed on, whatever it carries. -/
theorem dispatched_frames (wide : 32 ≤ host.sizeTBits)
    (reach : Reach host inRange (minputMainSetup serverAddr clientName serverPort) input stage s) :
    (∀ conn ∈ s.connections, ∀ payloads : List (List UInt8),
      (∀ payload ∈ payloads, payload.length < 2 ^ 31) →
      conn.received <+: (payloads.map lengthPrefixed).flatten →
      conn.dispatched <+: payloads.map lengthPrefixed) ∧
    (∀ conn, s.current = some conn → conn.appended = conn.dispatched.flatten ++ s.buffered) ∧
    (s.current = none → s.config.pktBufSz = 0) := by
  have inv := Reach.reassembled (fetchesFit_of_inRange wide) reach
  refine ⟨?_, ?_, ?_⟩
  · intro conn member
    obtain ⟨pending, keeps⟩ := inv.ledger.past conn member
    exact keeps.once
  · intro conn current
    obtain ⟨live, older, shape⟩ := Sys.connections_of_current current
    exact (inv.ledger.current conn older shape live).1.split
  · exact inv.idle

end Runs

/-- The server's hello, for version 1.6. -/
def helloPacket : List UInt8 := lengthPrefixed (ascii "Barrier" ++ [0, 1, 0, 6])

/-- What the server sends on a first connection. -/
def firstPayloads : List (List UInt8) :=
  [ascii "Barrier" ++ [0, 1, 0, 6], ascii "CALV", ascii "DMMV" ++ [0, 3, 0, 4]]

/-- What it sends when the client comes back. -/
def secondPayloads : List (List UInt8) :=
  [ascii "Barrier" ++ [0, 1, 0, 6], ascii "DKDN" ++ [0, 65, 0, 0, 0, 38], ascii "CALV"]

def firstFrames : List (List UInt8) := firstPayloads.map lengthPrefixed

def secondFrames : List (List UInt8) := secondPayloads.map lengthPrefixed

/-- The hello, and a front part of the keepalive. -/
def cutHello : IterInput := receives ⟨firstFrames.flatten.take 20, by decide, by decide⟩

/-- The end of the key press, and the keepalive. -/
def cutRest : IterInput := receives ⟨secondFrames.flatten.drop 25, by decide, by decide⟩

/-- The first connection breaks off in the middle of its third frame and times out.  On both
a frame is cut by the end of a chunk. -/
def twoConnections : List IterInput :=
  [cutHello,
    receives ⟨(firstFrames.flatten.drop 20).take 10, by decide, by decide⟩, receivesNothing,
    receives ⟨secondFrames.flatten.take 25, by decide, by decide⟩, cutRest]

def afterTwo : Sys := (osioLoop tickingHost twoConnections defaultSetup).2

theorem reach_afterTwo : Reach tickingHost inRange defaultSetup receivesNothing .connect afterTwo :=
  osioLoop_next .first (by decide +kernel) (by decide +kernel) receivesNothing

theorem connections_afterTwo : ∃ second first, afterTwo.connections = [second, first] ∧
    second.received = secondFrames.flatten ∧ first.received = firstFrames.flatten.take 30 := by
  have received : afterTwo.connections.map Conn.received =
      [secondFrames.flatten, firstFrames.flatten.take 30] := by
    decide +kernel
  obtain ⟨second, rest, shape, onSecond, received⟩ := List.map_eq_cons_iff.mp received
  obtain ⟨first, rfl, onFirst⟩ := List.map_eq_singleton_iff.mp received
  exact ⟨second, first, shape, onSecond, onFirst⟩

theorem dispatched_frames_cut :
    List.Forall₂ (fun conn frames => conn.dispatched <+: frames) afterTwo.connections
        [secondFrames, firstFrames] ∧
      ∀ conn, afterTwo.current = some conn →
        conn.appended = conn.dispatched.flatten ++ afterTwo.buffered := by
  obtain ⟨frames, appended, _⟩ := dispatched_frames (by decide) reach_afterTwo
  obtain ⟨second, first, shape, onSecond, onFirst⟩ := connections_afterTwo
  rw [shape] at frames ⊢
  have short : (∀ payload ∈ secondPayloads, payload.length < 2 ^ 31) ∧
      ∀ payload ∈ firstPayloads, payload.length < 2 ^ 31 := by
    decide
  have newer := frames second (List.mem_cons_self ..) secondPayloads short.1
    (onSecond ▸ List.prefix_refl _)
  have older := frames first (List.mem_cons_of_mem _ (List.mem_singleton_self _)) firstPayloads short.2
    (onFirst ▸ List.take_prefix 30 _)
  exact ⟨.cons newer (.cons older .nil), appended⟩

end MinputHop
