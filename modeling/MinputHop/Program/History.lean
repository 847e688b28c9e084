import MinputHop.Program.State

/-!
# The history of a run

What the trace says about each connection: the bytes that arrived, the bytes
that were appended to the packet buffer, the packets that were handed on and
the bytes that were sent.  Log lines are left out of all of it.
-/

namespace MinputHop

open FlatMemory

/-- Whether an event is a line of the log. -/
def Event.isLog : Event → Bool
  | .printf .. => true
  | _ => false

/-- The trace without the log. -/
def Sys.calls (s : Sys) : List Event := s.trace.filter (!·.isLog)

/-! ## Connections -/

/-- One connection, from the `connect()` that succeeded to the disconnect. -/
structure Conn where
  /-- What `recv()` returned. -/
  received : List UInt8
  /-- What was copied into the packet buffer. -/
  appended : List UInt8
  /-- The arguments of `synproto_parse_and_reply`, call by call. -/
  packets : List ((Nat → UInt8) × UInt32)
  /-- What was sent from its `connect()` up to the next one, on descriptor 0 too, where a
  packet is handed on behind a quit. -/
  sent : List UInt8
  live : Bool

def Conn.opened : Conn := ⟨[], [], [], [], true⟩

/-- The bytes that belong to each packet handed on. -/
def Conn.dispatched (conn : Conn) : List (List UInt8) :=
  conn.packets.map fun packet => window packet.1 0 packet.2.toNat

/-- The connections so far, the newest first, after one more event. -/
def trackConn (conns : List Conn) : Event → List Conn
  | .connect _ _ _ _ ret => if ret = 0 then .opened :: conns else conns
  | .recv _ _ (some bytes) =>
      conns.modifyHead fun conn => { conn with received := conn.received ++ bytes }
  | .memcpy _ _ data _ =>
      conns.modifyHead fun conn => { conn with appended := conn.appended ++ data }
  | .dispatch _ pktBuf pktBufSz =>
      conns.modifyHead fun conn => { conn with packets := conn.packets ++ [(pktBuf, pktBufSz)] }
  | .send _ bytes => conns.modifyHead fun conn => { conn with sent := conn.sent ++ bytes }
  | .close _ => conns.modifyHead fun conn => { conn with live := false }
  | .invalidate => conns.modifyHead fun conn => { conn with live := false }
  | _ => conns

def Sys.connections (s : Sys) : List Conn := s.calls.foldl trackConn []

/-- The connection in use. -/
def Sys.current (s : Sys) : Option Conn := s.connections.head?.filter (·.live)

/-- The bytes waiting in the packet buffer. -/
def Sys.buffered (s : Sys) : List UInt8 := window s.config.pktBuf.cells 0 s.config.pktBufSz.toNat

theorem Sys.length_buffered (s : Sys) : s.buffered.length = s.config.pktBufSz.toNat :=
  length_window _ _ _

/-- A connection in use is the newest one. -/
theorem Sys.connections_of_current {s : Sys} {conn : Conn} (current : s.current = some conn) :
    conn.live = true ∧ ∃ older, s.connections = conn :: older := by
  rw [Sys.current, Option.filter_eq_some_iff, List.head?_eq_some_iff] at current
  exact ⟨current.2, current.1⟩

theorem Sys.current_of_connections {s : Sys} {conn : Conn} {older : List Conn}
    (shape : s.connections = conn :: older) (live : conn.live = true) : s.current = some conn := by
  rw [Sys.current, shape]
  exact Option.filter_some_pos live

/-! ## Effects of one step -/

/-- `s'` follows `s`, with this configuration, after this many clock readings
and these calls.  The log is not looked at. -/
structure Follows (s s' : Sys) (config : NetioCfg) (elapsed : Nat) (calls : List Event) :
    Prop where
  config_eq : s'.config = config
  ticks_eq : s'.ticks = s.ticks + elapsed
  calls_eq : s'.calls = s.calls ++ calls
  mouseX_eq : s'.mouseX = s.mouseX
  mouseY_eq : s'.mouseY = s.mouseY

variable {s s' : Sys} {config : NetioCfg} {elapsed : Nat} {calls : List Event}

theorem Sys.connections_of_calls (extended : s'.calls = s.calls ++ calls) :
    s'.connections = calls.foldl trackConn s.connections := by
  rw [Sys.connections, extended, List.foldl_append]
  rfl

theorem Follows.connections_eq (follows : Follows s s' config elapsed calls) :
    s'.connections = calls.foldl trackConn s.connections :=
  Sys.connections_of_calls follows.calls_eq

end MinputHop
