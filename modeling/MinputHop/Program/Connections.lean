import MinputHop.Program.Capacity
import MinputHop.Library.Framing

/-!
# What a step does to the connections

Each way a stage can go changes the list of connections in one of a few ways:
the newest one ends, a new one opens, bytes arrive on it, or a packet is taken
off it.
-/

namespace MinputHop

open FlatMemory

/-! ## Changes of one connection -/

namespace Conn

def ended (conn : Conn) : Conn := { conn with live := false }

def arrive (conn : Conn) (data : List UInt8) : Conn :=
  { conn with received := conn.received ++ data }

def append (conn : Conn) (data : List UInt8) : Conn :=
  { conn with appended := conn.appended ++ data }

/-- A packet was taken and answered with these bytes. -/
def take (conn : Conn) (pktBuf : Nat → UInt8) (pktBufSz : UInt32) (reply : List UInt8) : Conn :=
  { conn with
    packets := conn.packets ++ [(pktBuf, pktBufSz)]
    sent := conn.sent ++ reply }

theorem dispatched_take (conn : Conn) (pktBuf : Nat → UInt8) (pktBufSz : UInt32)
    (reply : List UInt8) :
    (conn.take pktBuf pktBufSz reply).dispatched =
      conn.dispatched ++ [window pktBuf 0 pktBufSz.toNat] :=
  List.map_append

end Conn

/-- The bytes that these outputs send. -/
def sentBytes (outputs : List Output) : List UInt8 :=
  outputs.flatMap fun
    | .reply bytes => bytes
    | _ => []

/-! ## Changes of the list -/

theorem modifyHead_ended_ended (conns : List Conn) :
    (conns.modifyHead Conn.ended).modifyHead Conn.ended = conns.modifyHead Conn.ended := by
  cases conns <;> rfl

section Changes

variable {host : Host} {input : IterInput} {s s' before : Sys} {config : NetioCfg} {elapsed : Nat}
  {calls : List Event} {event : Event} {chunk : Chunk} {conn : Conn} {older : List Conn}

/-- A failed attempt to connect ends the newest connection. -/
theorem Follows.connections_failed
    (follows : Follows s s' config elapsed (.invalidate :: calls)) (attempt : FailedConnect calls) :
    s'.connections = s.connections.modifyHead Conn.ended := by
  rw [follows.connections_eq]
  cases attempt with
  | noSocket => rfl
  | refused time fd addr port failed =>
      simp only [List.foldl_cons, List.foldl_nil, trackConn, if_neg failed]
      exact modifyHead_ended_ended s.connections

/-- A new connection ends the one before. -/
theorem Follows.connections_opened
    (follows : Follows s s' config elapsed [.invalidate, .socket input.socket, event])
    (accepted : input.connect = 0) (event_eq : event = connectEvent host input before) :
    s'.connections = .opened :: s.connections.modifyHead Conn.ended := by
  rw [follows.connections_eq, event_eq]
  simp only [List.foldl_cons, List.foldl_nil, trackConn, connectEvent, if_pos accepted]
  rfl

/-- Data that finds no room only arrives. -/
theorem Follows.connections_exhausted {time size : Nat} {fd : Int} {ok : Bool}
    (follows : Follows s s' config elapsed [.recv time fd (some chunk.bytes), .realloc size ok])
    (current : s.connections = conn :: older) :
    s'.connections = conn.arrive chunk.bytes :: older := by
  rw [follows.connections_eq, current]
  rfl

/-- Data that finds room is appended. -/
theorem Follows.connections_filled {time time' off size : Nat} {fd : Int} {block : Block UInt8}
    {szMax : UInt32}
    (follows : Follows s s' config elapsed
      (.recv time fd (some chunk.bytes) :: (calls ++ [.memcpy time' off chunk.bytes size])))
    (room : Room host input before chunk block szMax calls)
    (current : s.connections = conn :: older) :
    s'.connections = (conn.arrive chunk.bytes).append chunk.bytes :: older := by
  rw [follows.connections_eq, current]
  rcases room.calls_eq with rfl | ⟨_, rfl⟩ <;> rfl

end Changes

theorem foldl_trackConn_outputs (sockfd : Int) (outputs : List Output) (conn : Conn)
    (older : List Conn) :
    (outputs.map (Output.event sockfd)).foldl trackConn (conn :: older) =
      { conn with sent := conn.sent ++ sentBytes outputs } :: older := by
  induction outputs generalizing conn with
  | nil => simp [sentBytes]
  | cons output outputs ih =>
      have first : trackConn (conn :: older) (output.event sockfd) =
          { conn with sent := conn.sent ++ sentBytes [output] } :: older := by
        cases output <;> simp [sentBytes, trackConn, Output.event]
      rw [List.map_cons, List.foldl_cons, first, ih, sentBytes, sentBytes, sentBytes,
        List.flatMap_cons, List.flatMap_cons, List.flatMap_nil, List.append_nil, List.append_assoc]

section Taken

variable {host : Host} {s s' : Sys} {conn : Conn} {older : List Conn}

/-- A packet is handed on together with its answers. -/
theorem connections_handedOn {time : Nat} {pktBuf : Nat → UInt8} {pktBufSz : UInt32}
    {outputs : List Output} {sockfd : Int}
    (calls_eq : s'.calls = s.calls ++
      .dispatch time pktBuf pktBufSz :: outputs.map (Output.event sockfd))
    (current : s.connections = conn :: older) :
    s'.connections = conn.take pktBuf pktBufSz (sentBytes outputs) :: older := by
  rw [Sys.connections_of_calls calls_eq, List.foldl_cons, current]
  exact foldl_trackConn_outputs _ _ _ _

/-- The connection in use, after the packet in front was taken. -/
abbrev takenConn (host : Host) (s : Sys) (conn : Conn) : Conn :=
  conn.take s.config.pktBuf.cells (pktClaimSz s.config)
    (sentBytes (packetOutputs host s.config.clientNameMem (s.mouseX, s.mouseY)
      s.config.pktBuf.cells (pktClaimSz s.config)))

theorem Dispatches.connections_eq (dispatches : Dispatches host s s')
    (current : s.connections = conn :: older) :
    s'.connections = takenConn host s conn :: older :=
  connections_handedOn dispatches.calls_eq current

theorem HandsOn.connections_eq (handsOn : HandsOn host s s')
    (current : s.connections = conn :: older) :
    s'.connections = takenConn host s conn :: older :=
  connections_handedOn handsOn.calls_eq current

end Taken

/-! ## Invariants of all connections -/

/-- `Past` holds of every connection, and `Current` of the one in use. -/
structure Ledger (Past Current : Conn → Prop) (s : Sys) : Prop where
  past : ∀ conn ∈ s.connections, Past conn
  current : ∀ conn older, s.connections = conn :: older → conn.live = true → Current conn

namespace Ledger

variable {Past Current Current' : Conn → Prop} {s s' : Sys}

theorem empty (none : s.connections = []) : Ledger Past Current s where
  past _ member := absurd (none ▸ member) List.not_mem_nil
  current _ _ shape := absurd (none.symm.trans shape) nofun

/-- Nothing happened to the connections. -/
theorem unchanged (ledger : Ledger Past Current s) (same : s'.connections = s.connections)
    (carried : ∀ conn, Current conn → Current' conn) : Ledger Past Current' s' where
  past := same ▸ ledger.past
  current conn older shape live := carried conn (ledger.current conn older (same ▸ shape) live)

/-- The newest connection changed. -/
theorem changed (ledger : Ledger Past Current s) {conn conn' : Conn} {older : List Conn}
    (before : s.connections = conn :: older) (after : s'.connections = conn' :: older)
    (past : Past conn') (current : Current' conn') : Ledger Past Current' s' where
  past other member := by
    rw [after] at member
    rcases List.mem_cons.mp member with rfl | member
    · exact past
    · exact ledger.past other (before ▸ List.mem_cons_of_mem _ member)
  current other older' shape _ := by
    obtain ⟨rfl, _⟩ := List.cons.inj (after.symm.trans shape)
    exact current

theorem past_ended (ledger : Ledger Past Current s) (ended : ∀ conn, Past conn → Past conn.ended) :
    ∀ conn ∈ s.connections.modifyHead Conn.ended, Past conn := by
  intro conn member
  cases shape : s.connections with
  | nil =>
      rw [shape] at member
      exact absurd member List.not_mem_nil
  | cons first older =>
      rw [shape, List.modifyHead_cons] at member
      rcases List.mem_cons.mp member with rfl | member
      · exact ended first (ledger.past first (shape ▸ List.mem_cons_self))
      · exact ledger.past conn (shape ▸ List.mem_cons_of_mem _ member)

/-- The newest connection ended, so none is in use. -/
theorem ended (ledger : Ledger Past Current s) (ended : ∀ conn, Past conn → Past conn.ended)
    (after : s'.connections = s.connections.modifyHead Conn.ended) :
    Ledger Past Current' s' where
  past := after ▸ ledger.past_ended ended
  current conn older shape live := by
    rw [after] at shape
    cases before : s.connections with
    | nil =>
        rw [before] at shape
        exact absurd shape nofun
    | cons first rest =>
        rw [before, List.modifyHead_cons] at shape
        obtain ⟨rfl, _⟩ := List.cons.inj shape
        exact absurd live Bool.false_ne_true

/-- A new connection opened. -/
theorem opened (ledger : Ledger Past Current s) (ended : ∀ conn, Past conn → Past conn.ended)
    (after : s'.connections = .opened :: s.connections.modifyHead Conn.ended)
    (past : Past .opened) (current : Current' .opened) : Ledger Past Current' s' where
  past conn member := by
    rw [after] at member
    rcases List.mem_cons.mp member with rfl | member
    · exact past
    · exact ledger.past_ended ended conn member
  current conn older shape _ := by
    obtain ⟨rfl, _⟩ := List.cons.inj (after.symm.trans shape)
    exact current

end Ledger

/-! ## The connection in use -/

/-- There is a connection in use wherever the code takes one for granted. -/
def Attached (stage : Stage) (s : Sys) : Prop :=
  match stage with
  | .connect | .returned _ =>
      s.config.socketFd ≠ 0 → ∃ conn older, conn.live = true ∧ s.connections = conn :: older
  | _ => ∃ conn older, conn.live = true ∧ s.connections = conn :: older

theorem Attached.returned {s : Sys} {conn : Conn} {older : List Conn} (live : conn.live = true)
    (current : s.connections = conn :: older) (retval : Int) : Attached (.returned retval) s :=
  fun _ => ⟨conn, older, live, current⟩

theorem attached_afterPacket {pktProcIter : Nat} {s : Sys} {conn : Conn} {older : List Conn}
    (live : conn.live = true) (current : s.connections = conn :: older) :
    Attached (afterPacket pktProcIter s) s := by
  rw [afterPacket]
  split <;> exact ⟨conn, older, live, current⟩

theorem Step.attached {host : Host} {input : IterInput} {stage stage' : Stage} {s s' : Sys}
    (step : Step host input stage s stage' s') (attached : Attached stage s) :
    Attached stage' s' := by
  cases step with
  | connected up => exact attached up
  | failed _ _ follows =>
      intro up
      rw [follows.config_eq] at up
      exact absurd rfl up
  | opened _ accepted event_eq follows =>
      exact ⟨.opened, _, rfl, follows.connections_opened accepted event_eq⟩
  | starved _ follows =>
      obtain ⟨conn, older, live, current⟩ := attached
      exact ⟨conn, older, live, follows.connections_eq.trans current⟩
  | @exhausted _ _ chunk _ _ _ follows =>
      obtain ⟨conn, older, live, current⟩ := attached
      exact fun _ => ⟨conn.arrive chunk.bytes, older, live, follows.connections_exhausted current⟩
  | @filled _ _ chunk _ _ _ _ room follows =>
      obtain ⟨conn, older, live, current⟩ := attached
      exact ⟨(conn.arrive chunk.bytes).append chunk.bytes, older, live,
        follows.connections_filled room current⟩
  | waited _ follows =>
      obtain ⟨conn, older, live, current⟩ := attached
      exact attached_afterPacket live (follows.connections_eq.trans current)
  | took _ _ dispatches =>
      obtain ⟨conn, older, live, current⟩ := attached
      exact attached_afterPacket (by exact live) (dispatches.connections_eq current)
  | overran _ _ dispatches =>
      obtain ⟨conn, older, live, current⟩ := attached
      exact .returned (by exact live) (dispatches.connections_eq current) _
  | dropped _ _ follows =>
      intro up
      rw [follows.config_eq] at up
      exact absurd rfl up
  | kept _ follows =>
      obtain ⟨conn, older, live, current⟩ := attached
      exact .returned live (follows.connections_eq.trans current) _
  | rested => exact attached

theorem Reach.attached {host : Host} {Admits : IterInput → Stage → Sys → Prop}
    {serverAddr clientName : Vector UInt8 64} {serverPort : Int} {input : IterInput}
    {stage : Stage} {s : Sys}
    (reach : Reach host Admits (minputMainSetup serverAddr clientName serverPort) input stage s) :
    Attached stage s :=
  Reach.induction Attached (fun up => absurd rfl up)
    (fun _ _ step attached => step.attached attached) id reach

end MinputHop
