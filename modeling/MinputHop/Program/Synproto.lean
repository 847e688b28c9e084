import MinputHop.Program.State

/-!
# `synproto.c`

The formatter of the replies, the function that sends one, and the function
that parses one packet and reacts to it.  The `DEBUG_*` log lines are left out:
they are not compiled unless asked for.
-/

namespace MinputHop

open FlatMemory

/-- The byte of an ASCII character. -/
def chr (c : Char) : UInt8 := UInt8.ofNat c.toNat

/-- The bytes of a string literal. -/
def ascii (s : String) : List UInt8 := s.toList.map chr

def isDigit (c : UInt8) : Bool := chr '0' ≤ c && c ≤ chr '9'

/-- The number spelled by the decimal digits in front, after `acc`. -/
def leadingDigits : Nat → List UInt8 → Nat
  | acc, [] => acc
  | acc, c :: rest =>
      if isDigit c then leadingDigits (10 * acc + (c - chr '0').toNat) rest else acc

def isSpace (c : UInt8) : Bool := c = chr ' ' || (9 ≤ c && c ≤ 13)

/-- `atoi()` of the C library: blanks, a sign, digits; then it stops. -/
def atoi (s : List UInt8) : Int :=
  match s.dropWhile isSpace with
  | [] => 0
  | c :: rest =>
      if c = chr '-' then -(leadingDigits 0 rest : Int)
      else if c = chr '+' then leadingDigits 0 rest
      else leadingDigits 0 (c :: rest)

/-! ## `synproto_vprintf` -/

/-- One variable argument.  A string is the memory behind the pointer. -/
inductive VaArg where
  | int (n : Int)
  | str (mem : List UInt8)

/-- The local variables of the formatter, with every store to `buf` in order. -/
structure VprintfState where
  inToken : Int
  outPos : Nat
  stores : List (Nat × UInt8)
  args : List VaArg
  /-- The token size at which the formatter gave up. -/
  invalidToken : Option Int

/-- `buf[out_pos + in_token - i - 1] = arg_p[i]`, for each `i` in turn. -/
def reverseStores (outPos : Nat) (argP : List UInt8) : List (Nat × UInt8) :=
  argP.zipIdx.map fun (byte, i) => (outPos + argP.length - i - 1, byte)

/-- `buf[out_pos++] = arg_s[i]`, for each `i` in turn. -/
def stringStores : Nat → List UInt8 → List (Nat × UInt8)
  | _, [] => []
  | outPos, byte :: rest => (outPos, byte) :: stringStores (outPos + 1) rest

/-- The sizes of integer that the inner `switch` knows. -/
def tokenWidth? (inToken : Int) : Option Nat :=
  if inToken = 4 then some 4 else if inToken = 2 then some 2 else if inToken = 1 then some 1
  else none

/-- The loop over the format, from `&(fmt[in_pos])` on.  A token is left behind its
`i`, but not behind its `s`.  `none` is undefined behaviour: an argument that is missing or
of another kind. -/
def vprintfLoop (order : ByteOrder) : List UInt8 → VprintfState → Option VprintfState
  | [], st => some st
  | c :: rest, st =>
      if c = chr '%' then
        vprintfLoop order rest { st with inToken := 4 }
      else if isDigit c ∧ st.inToken ≠ 0 then
        vprintfLoop order rest { st with inToken := atoi (c :: rest) }
      else if c = chr 'i' ∧ st.inToken ≠ 0 then
        match tokenWidth? st.inToken with
        | none => some { st with invalidToken := some st.inToken }
        | some width =>
            match st.args with
            | .int n :: args =>
                vprintfLoop order rest
                  { st with
                    inToken := 0
                    outPos := st.outPos + width
                    stores := st.stores ++ reverseStores st.outPos (order.bytes width n)
                    args := args }
            | _ => none
      else if c = chr 's' ∧ st.inToken ≠ 0 then
        match st.args with
        | .str mem :: args =>
            vprintfLoop order rest
              { st with
                outPos := st.outPos + (cString mem).length
                stores := st.stores ++ stringStores st.outPos (cString mem)
                args := args }
        | _ => none
      else
        vprintfLoop order rest
          { st with
            inToken := 0
            outPos := st.outPos + 1
            stores := st.stores ++ [(st.outPos, c)] }

/-- The size of the buffer is a parameter that the function never reads. -/
def synprotoVprintf (order : ByteOrder) (_bufSz : Nat) (fmt : List UInt8) (args : List VaArg) :
    Option VprintfState :=
  vprintfLoop order fmt
    { inToken := 0, outPos := 0, stores := [], args := args, invalidToken := none }

/-- The memory after a list of stores relative to `base`. -/
def applyStores (base : Nat) (cells : Nat → UInt8) (stores : List (Nat × UInt8)) : Nat → UInt8 :=
  stores.foldl (fun cells store => Function.update cells (base + store.1) store.2) cells

/-! ## `synproto_send` -/

/-- Any size that is forced is written as 4. -/
def synprotoSend (sockfd : Int) (forceSz : UInt8) (fmt : String) (args : List VaArg) (s : Sys) :
    UInt32 × Sys :=
  match synprotoVprintf makefileBuild.order (sockbufSz - 4) (ascii fmt) args with
  | none => (0, s)
  | some out =>
      let s := match out.invalidToken with
        | none => s
        | some token => osioPrintf .error "invalid token size (%d)?" [.num token] s
      let outPos := UInt32.ofNat out.outPos
      let outBuf := applyStores 4 (fun _ => 0) out.stores
      let size := if forceSz ≠ 0 then swap32 makefileBuild 4 else swap32 makefileBuild outPos
      let outBuf := blit outBuf 0 (makefileBuild.order.bytes 4 size.toNat)
      (outPos, s.emit (.send sockfd (window outBuf 0 (outPos + 4).toNat)))

/-! ## `synproto_reset_calv_deadline` and `synproto_dump` -/

def synprotoResetCalvDeadline (host : Host) (s : Sys) : Sys :=
  let (now, s) := osioGetTime host s
  let s := { s with config := { s.config with calvDeadline := now + synprotoTimeoutMs } }
  osioPrintf .debug "reset keepalive deadline to: %lu" [.num s.config.calvDeadline.toNat] s

/-- The value of a plain `char`. -/
def charVal (host : Host) (c : UInt8) : Int := if host.charSigned then c.toInt8.toInt else c.toNat

def synprotoDump (host : Host) (buf : Nat → UInt8) (bufSz : Nat) (s : Sys) : Sys :=
  let s := osioPrintf .debug "%ld bytes: " [.num bufSz] s
  (window buf 0 bufSz).foldl
    (fun s c =>
      let shown := if charVal host c > 32 then charVal host c else (chr ' ').toNat
      s.emit (.printf false .debug "0x%02x (%c) " [.num shown, .num (charVal host c)])) s

/-! ## `synproto_parse_and_reply` -/

/-- The packet types of the `switch`. -/
inductive PktType where
  | barr | qinf | ciak | crop | calv | cinn | dclp | dmmv | dmdn | dmup
  | dkdn | dkup | dkrp | cout | dsop | ebad
  deriving DecidableEq

/-- The `case` label of a packet type. -/
def PktType.code : PktType → UInt32
  | .barr => 0x42617272
  | .qinf => 0x51494e46
  | .ciak => 0x4349414b
  | .crop => 0x43524f50
  | .calv => 0x43414c56
  | .cinn => 0x43494e4e
  | .dclp => 0x44434c50
  | .dmmv => 0x444d4d56
  | .dmdn => 0x444d444e
  | .dmup => 0x444d5550
  | .dkdn => 0x444b444e
  | .dkup => 0x444b5550
  | .dkrp => 0x444b5250
  | .cout => 0x434f5554
  | .dsop => 0x44534f50
  | .ebad => 0x45424144

def PktType.all : List PktType :=
  [.barr, .qinf, .ciak, .crop, .calv, .cinn, .dclp, .dmmv, .dmdn, .dmup,
    .dkdn, .dkup, .dkrp, .cout, .dsop, .ebad]

def PktType.ofCode? (code : UInt32) : Option PktType := PktType.all.find? (·.code = code)

/-- The type field, `swap_32( *pkt_type_p )`. -/
def pktTypeCode (pktBuf : Nat → UInt8) : UInt32 := synprotoExval32 makefileBuild pktBuf 4

def dclpBufStart : Nat := 30

/-- Sizes are passed on as a `size_t`.  `EBAD` falls through to the default. -/
def synprotoParseAndReply (host : Host) (pktBuf : Nat → UInt8) (pktBufSz : UInt32) (s : Sys) :
    Int × Sys :=
  let exval16 := synprotoExval16 makefileBuild pktBuf
  let invalid : Int × Sys :=
    (minhopErrProtocol,
      synprotoDump host pktBuf (pktBufSz.toNat % 2 ^ host.sizeTBits)
        (osioPrintf .debug "invalid packet:" [] s))
  match PktType.ofCode? (pktTypeCode pktBuf) with
  | some .barr =>
      let verMaj := exval16 11
      let verMin := exval16 13
      let s := osioPrintf .debug "barrier %u.%u found" [.num verMaj.toNat, .num verMin.toNat] s
      let s := (synprotoSend s.config.socketFd 0 "Barrier%2i%2i%4i%s"
        [.int verMaj.toNat, .int verMin.toNat, .int 7, .str s.config.clientNameMem] s).2
      (0, synprotoResetCalvDeadline host s)
  | some .qinf =>
      (0, (synprotoSend s.config.socketFd 0 "DINF%2i%2i%2i%2i%2i%2i%2i"
        [.int 0, .int 0, .int host.screenW.toNat, .int host.screenH.toNat,
          .int 0, .int 0, .int 0] s).2)
  | some .ciak => (0, osioPrintf .debug "CIAK?" [] s)
  | some .crop => (0, osioPrintf .debug "CROP?" [] s)
  | some .calv =>
      let s := (synprotoSend s.config.socketFd 4 "CALV%4iCNOP" [.int 4] s).2
      (0, synprotoResetCalvDeadline host s)
  | some .cinn => (0, s)
  | some .dclp =>
      let clpId := (synprotoExval8 pktBuf 8).toInt8
      let clpMark := (synprotoExval8 pktBuf 13).toInt8
      if clpId ≠ 0 then (0, s)
      else if clpMark ≠ 2 then (0, s)
      else if dclpBufStart > pktBufSz.toNat then
        (minhopErrProtocol, osioPrintf .error "clipboard buffer starts after packet ends!" [] s)
      else
        let size := (pktBufSz.toNat - dclpBufStart) % 2 ^ host.sizeTBits
        (0, s.emit (.setClipboard (window pktBuf dclpBufStart size)))
  | some .dmmv =>
      let s := { s with mouseX := exval16 8, mouseY := exval16 10 }
      (0, s.emit (.mouseMove s.mouseX s.mouseY))
  | some .dmdn =>
      (0, s.emit (.mouseDown s.mouseX s.mouseY (UInt16.ofInt (charVal host (pktBuf 8)))))
  | some .dmup =>
      (0, s.emit (.mouseUp s.mouseX s.mouseY (UInt16.ofInt (charVal host (pktBuf 8)))))
  | some .dkdn => (0, s.emit (.keyDown (exval16 8) (exval16 10) (exval16 12)))
  | some .dkup => (0, s.emit (.keyUp (exval16 8) (exval16 10) (exval16 12)))
  | some .dkrp => (0, s.emit (.keyRpt (exval16 8) (exval16 10) (exval16 12)))
  | some .cout => (0, s)
  | some .dsop => (0, s)
  | some .ebad => invalid
  | none => invalid

end MinputHop
