import MinputHop.Library.Registers
import MinputHop.Program.Handling

/-!
# What the user sees of the log

On Windows `osio_printf` shows an error in a message box and an info in the label at
the bottom of the window.  One lemma for each function says which lines it shows.
-/

namespace MinputHop

open FlatMemory

/-- A line that is shown: where, and its format. -/
inductive Shown where
  | box (fmt : String)
  | label (fmt : String)
  deriving DecidableEq

/-- The branches of `osio_printf` on Windows. -/
@[simp] def Event.shown? : Event → Option Shown
  | .printf _ .error fmt _ => some (.box fmt)
  | .printf _ .info fmt _ => some (.label fmt)
  | _ => none

def shownIn (trace : List Event) : List Shown := trace.filterMap Event.shown?

def Shown.label? : Shown → Option String
  | .label fmt => some fmt
  | .box _ => none

def Shown.box? : Shown → Option String
  | .box fmt => some fmt
  | .label _ => none

/-- The text of the label.  The last line before the main loop is that of `netio_setup`. -/
def Sys.statusLabel (s : Sys) : String :=
  (Registers.last? Shown.label? (shownIn s.trace)).getD "setting up network..."

/-- The message boxes that were opened, by their texts. -/
def Sys.messageBoxes (s : Sys) : List String := (shownIn s.trace).filterMap Shown.box?

@[simp] theorem shownIn_append (first second : List Event) :
    shownIn (first ++ second) = shownIn first ++ shownIn second :=
  List.filterMap_append

@[simp] theorem shownIn_cons (e : Event) (rest : List Event) :
    shownIn (e :: rest) = e.shown?.toList ++ shownIn rest := by
  cases shown : e.shown? with
  | none => exact List.filterMap_cons_none shown
  | some line => exact List.filterMap_cons_some shown

@[simp] theorem shownIn_nil : shownIn [] = [] := rfl

@[simp] theorem trace_osioPrintf (stat : Stat) (fmt : String) (args : List PrintfArg) (s : Sys) :
    (osioPrintf stat fmt args s).trace = s.trace ++ [.printf true stat fmt args] := rfl

/-! ## Which lines each function shows -/

section Lines

variable {host : Host} {input : IterInput} {s : Sys}

@[simp] theorem shown_synprotoResetCalvDeadline (host : Host) (s : Sys) :
    shownIn (synprotoResetCalvDeadline host s).trace = shownIn s.trace := by
  unfold synprotoResetCalvDeadline osioGetTime
  dsimp only
  rw [trace_osioPrintf, shownIn_append]
  exact List.append_nil _

@[simp] theorem shown_synprotoDump (host : Host) (buf : Nat → UInt8) (bufSz : Nat) (s : Sys) :
    shownIn (synprotoDump host buf bufSz s).trace = shownIn s.trace := by
  have bytes : ∀ (cells : List UInt8) (s : Sys), shownIn (cells.foldl (fun s c =>
      let shown := if charVal host c > 32 then charVal host c else (chr ' ').toNat
      s.emit (.printf false .debug "0x%02x (%c) " [.num shown, .num (charVal host c)])) s).trace =
        shownIn s.trace := by
    intro cells
    induction cells with
    | nil => exact fun s => rfl
    | cons c cells ih =>
        intro s
        rw [List.foldl_cons, ih]
        simp
  simp [synprotoDump, bytes]

/-- The lines of `netio_disconnect`. -/
def disconnectLines : List Shown := [.label "closing socket...", .label "disconnected!"]

@[simp] theorem shown_netioDisconnect (s : Sys) :
    shownIn (netioDisconnect s).trace = shownIn s.trace ++ disconnectLines := by
  simp [netioDisconnect, disconnectLines]

/-- The lines of `netio_connect`, when there is no socket. -/
def connectLines (input : IterInput) : List Shown :=
  if input.socket = -1 then [.label "could not open socket"]
  else if input.connect ≠ 0 then .label "could not connect socket" :: disconnectLines
  else [.label "connected!"]

theorem shown_netioConnect (host : Host) (input : IterInput) (down : s.config.socketFd = 0) :
    shownIn (netioConnect host input s).2.trace = shownIn s.trace ++ connectLines input := by
  unfold netioConnect connectLines connectSocket
  by_cases noSocket : input.socket = -1
  · simp [down, noSocket]
  · by_cases refused : input.connect ≠ 0 <;> simp [down, noSocket, refused]

/-- The line of `netio_fetch_packets`. -/
def fetchLines (retval : Int) : List Shown :=
  if retval = minhopErrAlloc then [.box "could not reallocate packet buffer! (%lu bytes)"] else []

theorem shown_netioFetchPackets (host : Host) (input : IterInput) (s : Sys) :
    shownIn (netioFetchPackets host input s).2.trace =
      shownIn s.trace ++ fetchLines (netioFetchPackets host input s).1 := by
  have fine : ¬(0 : Int) = minhopErrAlloc := by decide
  have starved : ¬minhopErrRecv = minhopErrAlloc := by decide
  unfold netioFetchPackets fetchLines appendPktBuf
  cases received : input.recv with
  | none => simp [starved]
  | some chunk =>
      by_cases full : UInt32.ofNat sockbufSz ≤ s.config.pktBufSz + UInt32.ofNat chunk.bytes.length
      · cases granted : input.realloc <;> simp [full, fine]
      · simp [full, fine]

/-- The line about a clipboard that is too short. -/
def clipLines (pktBuf : Nat → UInt8) (pktBufSz : UInt32) : List Shown :=
  if clipboardPacket pktBuf ∧ pktBufSz.toNat < dclpBufStart then
    [.box "clipboard buffer starts after packet ends!"]
  else []

theorem shown_synprotoParseAndReply (host : Host) (pktBuf : Nat → UInt8) (pktBufSz : UInt32)
    (s : Sys) : shownIn (synprotoParseAndReply host pktBuf pktBufSz s).2.trace =
      shownIn s.trace ++ clipLines pktBuf pktBufSz := by
  cases kind : PktType.ofCode? (pktTypeCode pktBuf) with
  | none => simp [synprotoParseAndReply, clipLines, clipboardPacket, kind]
  | some type =>
      cases type with
      | dclp =>
          by_cases id : (synprotoExval8 pktBuf 8).toInt8 = 0
          · by_cases mark : (synprotoExval8 pktBuf 13).toInt8 = 2
            · by_cases short : pktBufSz.toNat < dclpBufStart <;>
                simp [synprotoParseAndReply, clipLines, clipboardPacket, kind, id, mark, short]
            · simp [synprotoParseAndReply, clipLines, clipboardPacket, kind, id, mark]
          · simp [synprotoParseAndReply, clipLines, clipboardPacket, kind, id]
      | barr => simp [synprotoParseAndReply, clipLines, clipboardPacket, kind, synprotoSend_hello]
      | qinf => simp [synprotoParseAndReply, clipLines, clipboardPacket, kind, synprotoSend_info]
      | calv =>
          simp [synprotoParseAndReply, clipLines, clipboardPacket, kind, synprotoSend_keepalive]
      | _ => simp [synprotoParseAndReply, clipLines, clipboardPacket, kind]

@[simp] theorem shown_handOn (host : Host) (s : Sys) : shownIn (handOn host s).2.trace =
    shownIn s.trace ++ clipLines s.config.pktBuf.cells (pktClaimSz s.config) := by
  simp [handOn, shown_synprotoParseAndReply]

/-- The line about a rest of the buffer that cannot be moved down. -/
def offsetLines (config : NetioCfg) (claimSz : UInt32) : List Shown :=
  if (shiftPktBuf claimSz config.pktBufSzMax (config.pktBufSz - claimSz).toNat 0
    config.pktBuf.cells).1 then [] else [.box "pkt offset too large!"]

theorem shown_removePacket (claimSz : UInt32) (retval : Int) (s : Sys) :
    shownIn (removePacket claimSz retval s).2.trace =
      shownIn s.trace ++ offsetLines s.config claimSz := by
  rcases result : shiftPktBuf claimSz s.config.pktBufSzMax (s.config.pktBufSz - claimSz).toNat 0
    s.config.pktBuf.cells with ⟨moved, cells⟩
  simp only [removePacket, offsetLines, result]
  cases moved <;> simp

@[simp] theorem shown_leavePacket (pktProcIter : Nat) (result : Int × Sys) :
    shownIn (leavePacket pktProcIter result).2.trace = shownIn result.2.trace := by
  obtain ⟨retval, s⟩ := result
  unfold leavePacket
  dsimp only
  by_cases protocol : retval = minhopErrProtocol
  · rw [if_pos protocol]
    dsimp only
    split
    · simp
    · split <;> simp
  · rw [if_neg protocol]
    dsimp only
    split
    · rfl
    · split <;> rfl

theorem shown_netioProcessPackets (host : Host) (idle : ¬Claimed s.config) :
    shownIn (netioProcessPackets host s).2.trace = shownIn s.trace := by
  unfold netioProcessPackets
  by_cases empty : s.config.pktBufSz = 0
  · simp [empty]
  · have short : s.config.pktBufSz < pktClaimSz s.config :=
      UInt32.not_le.mp fun claimed => idle ⟨empty, claimed⟩
    simp [empty, short]

/-- The lines of the keepalive check. -/
def keepaliveLines (timedOut : Prop) [Decidable timedOut] (socketFd : Int) : List Shown :=
  if timedOut then
    .label "timed out (%lu past %lu), restarting!" :: if socketFd ≠ 0 then disconnectLines else []
  else []

theorem shown_checkKeepalive (host : Host) (s : Sys) :
    shownIn (checkKeepalive host s).trace =
      shownIn s.trace ++ keepaliveLines (TimedOut host s) s.config.socketFd := by
  rw [checkKeepalive, osioGetTime, keepaliveLines]
  dsimp only
  by_cases late : TimedOut host s
  · rw [if_pos late]
    rw [TimedOut] at late
    rw [if_pos late]
    by_cases up : s.config.socketFd ≠ 0
    · rw [if_pos (by exact up), if_pos up]
      simp
    · rw [if_neg (by exact up), if_neg up]
      simp
  · rw [if_neg late]
    rw [TimedOut] at late
    rw [if_neg late]
    simp

@[simp] theorem shown_osioWinQuit (fromUi : Bool) (s : Sys) :
    shownIn (osioWinQuit fromUi s).trace =
      shownIn s.trace ++ if s.config.socketFd ≠ 0 then disconnectLines else [] := by
  unfold osioWinQuit
  by_cases up : s.config.socketFd ≠ 0
  · rw [if_pos (by exact up), if_pos up]
    simp
  · rw [if_neg (by exact up), if_neg up]
    simp

@[simp] theorem shown_minputMainCleanup (s : Sys) :
    shownIn (minputMainCleanup s).trace =
      shownIn s.trace ++ if 0 < s.config.socketFd then disconnectLines else [] := by
  unfold minputMainCleanup
  split <;> simp

end Lines

end MinputHop
