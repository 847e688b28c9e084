import MinputHop.Program.ByteOrder

/-!
# Data of the client

The configuration record of `minput.h` with its constants, the answers the
operating system gives, and the record of everything the client does.

A call out of the program appends one event to the trace, so the trace is the
whole observable behaviour.  Time passes when the clock is read and when
`recv()` is called; an event is stamped with the clock that the next reading
returns.
-/

namespace MinputHop

open FlatMemory

/-! ## Constants of `minput.h`, `netio.h` and `synproto.h`, and C strings -/

def sockbufSz : Nat := 2048
def pktProcPerLoop : Nat := 10
def synprotoTimeoutMs : UInt32 := 5000

def minhopErrRecv : Int := 2
def minhopErrProtocol : Int := 4
def minhopErrOverflow : Int := 8
def minhopErrAlloc : Int := 64
def minhopErrConnect : Int := 128

/-- The `MINPUT_STAT_*` codes of a log line. -/
inductive Stat where
  | debug
  | error
  | info
  deriving DecidableEq

/-- `struct NETIO_CFG`.  The pointer `pkt_buf` is the block it points to. -/
structure NetioCfg where
  serverAddr : Vector UInt8 64
  clientName : Vector UInt8 64
  serverPort : Int
  socketFd : Int
  calvDeadline : UInt32
  pktBuf : Block UInt8
  pktBufSz : UInt32
  pktBufSzMax : UInt32

/-- The bytes of a C string: those in front of the first NUL. -/
def cString (mem : List UInt8) : List UInt8 := mem.takeWhile (· ≠ 0)

/-- The memory that a string read from `client_name` runs through: the array
itself and the fields behind it.  The padding in front of the pointer `pkt_buf`
is zero, so no read gets past the end of this list. -/
def NetioCfg.clientNameMem (config : NetioCfg) : List UInt8 :=
  config.clientName.toList ++ makefileBuild.order.bytes 4 config.serverPort ++
    makefileBuild.order.bytes 4 config.socketFd ++
    makefileBuild.order.bytes 4 config.calvDeadline.toNat

/-- The memory that a string read from `server_addr`, the first field, runs through. -/
def NetioCfg.serverAddrMem (config : NetioCfg) : List UInt8 :=
  config.serverAddr.toList ++ config.clientNameMem

/-! ## What the outside answers -/

/-- What does not change during a run: the build and the machine. -/
structure Host where
  /-- Width of `size_t` in bits. -/
  sizeTBits : Nat
  /-- Whether plain `char` is signed. -/
  charSigned : Bool
  screenW : UInt16
  screenH : UInt16
  inetAddr : List UInt8 → UInt32
  /-- Real milliseconds at each successive reading of the clock. -/
  clock : Nat → Nat

/-- The bytes of one successful `recv( fd, sockbuf, SOCKBUF_SZ, 0 )`. -/
structure Chunk where
  bytes : List UInt8
  nonempty : 0 < bytes.length
  fits : bytes.length ≤ sockbufSz

/-- The answers of the system calls that one loop iteration can make. -/
structure IterInput where
  /-- Result of `socket()`. -/
  socket : Int
  /-- Result of `connect()`. -/
  connect : Int
  /-- `none` when `recv()` returns 0 or fails. -/
  recv : Option Chunk
  /-- `none` when `realloc()` returns NULL, else what it leaves in new memory. -/
  realloc : Option (Nat → UInt8)

/-! ## What the client does -/

/-- An argument of a log line. -/
inductive PrintfArg where
  | num (n : Int)
  | str (s : List UInt8)

/-- One call out of the program, or one of its own steps worth recording. -/
inductive Event where
  | socket (ret : Int)
  | connect (time : Nat) (fd : Int) (addr : UInt32) (port : UInt16) (ret : Int)
  | close (fd : Int)
  /-- The loop found no socket and dropped what was buffered. -/
  | invalidate
  | recv (time : Nat) (fd : Int) (result : Option (List UInt8))
  | realloc (size : Nat) (ok : Bool)
  /-- `data` was copied to offset `off` of a block of `size` bytes. -/
  | memcpy (time : Nat) (off : Nat) (data : List UInt8) (size : Nat)
  /-- A packet went to `synproto_parse_and_reply`, with these arguments. -/
  | dispatch (time : Nat) (pktBuf : Nat → UInt8) (pktBufSz : UInt32)
  | send (fd : Int) (bytes : List UInt8)
  | mouseMove (x y : UInt16)
  | mouseDown (x y btn : UInt16)
  | mouseUp (x y btn : UInt16)
  | keyDown (id mod btn : UInt16)
  | keyUp (id mod btn : UInt16)
  | keyRpt (id mod btn : UInt16)
  | setClipboard (bytes : List UInt8)
  | printf (newLine : Bool) (stat : Stat) (fmt : String) (args : List PrintfArg)

/-- The state of the process: the configuration, the static variables of
`synproto_parse_and_reply`, the number of clock readings, and the trace. -/
structure Sys where
  config : NetioCfg
  mouseX : UInt16
  mouseY : UInt16
  ticks : Nat
  trace : List Event

namespace Sys

def emit (s : Sys) (e : Event) : Sys := { s with trace := s.trace ++ [e] }

@[simp] theorem emit_config (s : Sys) (e : Event) : (s.emit e).config = s.config := rfl
@[simp] theorem emit_mouseX (s : Sys) (e : Event) : (s.emit e).mouseX = s.mouseX := rfl
@[simp] theorem emit_mouseY (s : Sys) (e : Event) : (s.emit e).mouseY = s.mouseY := rfl
@[simp] theorem emit_ticks (s : Sys) (e : Event) : (s.emit e).ticks = s.ticks := rfl
@[simp] theorem emit_trace (s : Sys) (e : Event) : (s.emit e).trace = s.trace ++ [e] := rfl

end Sys

def osioPrintf (stat : Stat) (fmt : String) (args : List PrintfArg) (s : Sys) : Sys :=
  s.emit (.printf true stat fmt args)

/-- `osio_get_time()`: the clock in milliseconds, as `uint32_t`. -/
def osioGetTime (host : Host) (s : Sys) : UInt32 × Sys :=
  (UInt32.ofNat (host.clock s.ticks), { s with ticks := s.ticks + 1 })

/-- The state in which `minput_main` enters `osio_loop`: the record was zeroed
by `main`, the arguments were copied in, and `calloc` gave the buffer. -/
def minputMainSetup (serverAddr clientName : Vector UInt8 64) (serverPort : Int) : Sys where
  config :=
    { serverAddr := serverAddr
      clientName := clientName
      serverPort := serverPort
      socketFd := 0
      calvDeadline := 0
      pktBuf := ⟨sockbufSz, fun _ => 0⟩
      pktBufSz := 0
      pktBufSzMax := UInt32.ofNat sockbufSz }
  mouseX := 0
  mouseY := 0
  ticks := 0
  trace := []

end MinputHop
