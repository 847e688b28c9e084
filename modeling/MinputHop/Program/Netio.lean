import MinputHop.Program.Synproto

/-!
# `netio.c`

Connecting, disconnecting, fetching received bytes into the packet buffer, and
taking one packet off its front.  On Unix no log line runs anything else.
-/

namespace MinputHop

open FlatMemory

/-! ## `netio_disconnect` and `netio_connect` -/

def netioDisconnect (s : Sys) : Sys :=
  let s := osioPrintf .info "closing socket..." [] s
  let s := s.emit (.close s.config.socketFd)
  let s := { s with config := { s.config with socketFd := 0, pktBufSz := 0 } }
  osioPrintf .info "disconnected!" [] s

/-- `netio_connect` from `setsockopt` on, with `config->socket_fd` set. -/
def connectSocket (host : Host) (input : IterInput) (sAddr : UInt32) (s : Sys) : Int × Sys :=
  let s := s.emit (.connect (host.clock s.ticks) s.config.socketFd sAddr
    (UInt16.ofInt s.config.serverPort) input.connect)
  if input.connect ≠ 0 then
    let s := osioPrintf .info "could not connect socket" [] s
    (minhopErrConnect, synprotoResetCalvDeadline host (netioDisconnect s))
  else
    (0, synprotoResetCalvDeadline host (osioPrintf .info "connected!" [] s))

/-- The deadline is set whether we succeed or fail. -/
def netioConnect (host : Host) (input : IterInput) (s : Sys) : Int × Sys :=
  let sAddr := host.inetAddr (cString s.config.serverAddrMem)
  if s.config.socketFd = 0 then
    let s := osioPrintf .debug "connecting to 0x%08lx..." [.num sAddr.toNat] s
    let s := s.emit (.socket input.socket)
    if input.socket = -1 then
      let s := osioPrintf .info "could not open socket" [] s
      (minhopErrConnect, synprotoResetCalvDeadline host s)
    else
      connectSocket host input sAddr { s with config.socketFd := input.socket }
  else connectSocket host input sAddr s

/-! ## `netio_fetch_packets` -/

/-- Append the received data to the packet buffer. -/
def appendPktBuf (time : Nat) (data : List UInt8) (s : Sys) : Sys :=
  let config := s.config
  let s := s.emit (.memcpy time config.pktBufSz.toNat data config.pktBuf.size)
  { s with config :=
      { config with
        pktBuf := ⟨config.pktBuf.size, blit config.pktBuf.cells config.pktBufSz.toNat data⟩
        pktBufSz := config.pktBufSz + UInt32.ofNat data.length } }

/-- The argument of `realloc()` is a `size_t`. -/
def netioFetchPackets (host : Host) (input : IterInput) (s : Sys) : Int × Sys :=
  let time := host.clock s.ticks
  let s := s.emit (.recv time s.config.socketFd (input.recv.map Chunk.bytes))
  let s := { s with ticks := s.ticks + 1 }
  match input.recv with
  | none => (minhopErrRecv, s)
  | some chunk =>
      let recvSz := UInt32.ofNat chunk.bytes.length
      let sum := s.config.pktBufSz + recvSz
      if UInt32.ofNat sockbufSz ≤ sum then
        let s := osioPrintf .debug
          "packet won't fit in buffer! (%lu bytes) reallocating..." [.num sum.toNat] s
        let size := (sum + 100).toNat % 2 ^ host.sizeTBits
        let s := s.emit (.realloc size input.realloc.isSome)
        match input.realloc with
        | none =>
            let s := { s with config.pktBuf := s.config.pktBuf.refuse size }
            (minhopErrAlloc, osioPrintf .error
              "could not reallocate packet buffer! (%lu bytes)" [.num (sum + 100).toNat] s)
        | some left =>
            let s := { s with config :=
              { s.config with
                pktBuf := s.config.pktBuf.resize size left
                pktBufSzMax := sum + 100 } }
            (0, appendPktBuf time chunk.bytes s)
      else (0, appendPktBuf time chunk.bytes s)

/-! ## `netio_process_packets` -/

/-- The loop that moves the rest of the buffer down, from index `j` on for
`count` more steps.  `false` is the "pkt offset too large!" exit. -/
def shiftPktBuf (pktClaimSz pktBufSzMax : UInt32) :
    Nat → UInt32 → (Nat → UInt8) → Bool × (Nat → UInt8)
  | 0, _, cells => (true, cells)
  | count + 1, j, cells =>
      if pktBufSzMax ≤ j + pktClaimSz then (false, cells)
      else shiftPktBuf pktClaimSz pktBufSzMax count (j + 1)
        (Function.update cells j.toNat (cells (j + pktClaimSz).toNat))

/-- How big the packet in front claims to be, header included. -/
def pktClaimSz (config : NetioCfg) : UInt32 :=
  synprotoExval32 makefileBuild config.pktBuf.cells 0 + 4

def netioProcessPackets (host : Host) (s : Sys) : Int × Sys :=
  if s.config.pktBufSz = 0 then (0, s)
  else
    let claimSz := pktClaimSz s.config
    if s.config.pktBufSz < claimSz then
      (0, osioPrintf .debug
        "packet (%lu bytes) too small for buffer (%lu bytes)! waiting..."
        [.num claimSz.toNat, .num s.config.pktBufSz.toNat] s)
    else
      let s := s.emit (.dispatch (host.clock s.ticks) s.config.pktBuf.cells claimSz)
      let (retval, s) := synprotoParseAndReply host s.config.pktBuf.cells claimSz s
      let left := s.config.pktBufSz - claimSz
      let (moved, cells) := shiftPktBuf claimSz s.config.pktBufSzMax left.toNat 0
        s.config.pktBuf.cells
      let s := { s with config :=
        { s.config with pktBuf := ⟨s.config.pktBuf.size, cells⟩, pktBufSz := left } }
      if moved then (retval, s)
      else (minhopErrOverflow, osioPrintf .error "pkt offset too large!" [] s)

end MinputHop
