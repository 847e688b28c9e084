import MinputHop.Program.Format
import MinputHop.Program.History

/-!
# What a packet makes the client do

`packetOutputs` reads one packet in memory and lists the replies and the input
events it stands for.  `synproto_parse_and_reply` makes exactly these calls, in
this order, and besides touches nothing but the deadline, the mouse position
and the log.
-/

namespace MinputHop

open FlatMemory

/-! ## Log lines -/

section Log

variable {s s' s'' : Sys} {config config' : NetioCfg} {elapsed elapsed' : Nat}
  {calls calls' : List Event}

theorem Follows.refl (s : Sys) : Follows s s s.config 0 [] :=
  ⟨rfl, rfl, (List.append_nil _).symm, rfl, rfl⟩

theorem Follows.trans (first : Follows s s' config elapsed calls)
    (second : Follows s' s'' config' elapsed' calls') :
    Follows s s'' config' (elapsed + elapsed') (calls ++ calls') where
  config_eq := second.config_eq
  ticks_eq := by rw [second.ticks_eq, first.ticks_eq, Nat.add_assoc]
  calls_eq := by rw [second.calls_eq, first.calls_eq, List.append_assoc]
  mouseX_eq := second.mouseX_eq.trans first.mouseX_eq
  mouseY_eq := second.mouseY_eq.trans first.mouseY_eq

/-- A log line changes nothing. -/
theorem follows_log {e : Event} (log : e.isLog = true) (s : Sys) :
    Follows s (s.emit e) s.config 0 [] := by
  refine ⟨rfl, rfl, ?_, rfl, rfl⟩
  simp [Sys.calls, log]

theorem follows_osioPrintf (stat : Stat) (fmt : String) (args : List PrintfArg) (s : Sys) :
    Follows s (osioPrintf stat fmt args s) s.config 0 [] :=
  follows_log rfl s

/-- Any other event is a call. -/
theorem follows_emit {e : Event} (call : e.isLog = false) (s : Sys) :
    Follows s (s.emit e) s.config 0 [e] := by
  refine ⟨rfl, rfl, ?_, rfl, rfl⟩
  simp [Sys.calls, call]

theorem follows_synprotoDump (host : Host) (buf : Nat → UInt8) (bufSz : Nat) (s : Sys) :
    Follows s (synprotoDump host buf bufSz s) s.config 0 [] := by
  have bytes : ∀ (cells : List UInt8) (s : Sys), Follows s
      (cells.foldl (fun s c =>
        let shown := if charVal host c > 32 then charVal host c else (chr ' ').toNat
        s.emit (.printf false .debug "0x%02x (%c) " [.num shown, .num (charVal host c)])) s)
      s.config 0 [] := by
    intro cells
    induction cells with
    | nil => exact Follows.refl
    | cons c cells ih =>
        intro s
        have line := follows_log (e := .printf false .debug "0x%02x (%c) "
          [.num (if charVal host c > 32 then charVal host c else (chr ' ').toNat),
            .num (charVal host c)]) rfl s
        exact line.trans (ih _)
  exact (follows_osioPrintf .debug "%ld bytes: " [.num bufSz] s).trans (bytes _ _)

/-- The deadline that a reset sets now. -/
def rearmedDeadline (host : Host) (s : Sys) : UInt32 :=
  UInt32.ofNat (host.clock s.ticks) + synprotoTimeoutMs

theorem follows_setDeadline (s : Sys) (deadline : UInt32) :
    Follows s
      (osioPrintf .debug "reset keepalive deadline to: %lu" [.num deadline.toNat]
        { s with ticks := s.ticks + 1, config := { s.config with calvDeadline := deadline } })
      { s.config with calvDeadline := deadline } 1 [] := by
  have log := follows_osioPrintf .debug "reset keepalive deadline to: %lu" [.num deadline.toNat]
    { s with ticks := s.ticks + 1, config := { s.config with calvDeadline := deadline } }
  exact ⟨log.config_eq, log.ticks_eq, log.calls_eq, log.mouseX_eq, log.mouseY_eq⟩

theorem follows_synprotoResetCalvDeadline (host : Host) (s : Sys) :
    Follows s (synprotoResetCalvDeadline host s)
      { s.config with calvDeadline := rearmedDeadline host s } 1 [] :=
  follows_setDeadline s (rearmedDeadline host s)

end Log

section Chain

variable {host : Host} {s s' : Sys} {config : NetioCfg} {elapsed : Nat} {calls : List Event}

theorem Follows.log (follows : Follows s s' config elapsed calls) {stat : Stat} {fmt : String}
    {args : List PrintfArg} : Follows s (osioPrintf stat fmt args s') config elapsed calls := by
  have step := follows.trans (follows_osioPrintf stat fmt args s')
  rwa [follows.config_eq, List.append_nil] at step

theorem Follows.call (follows : Follows s s' config elapsed calls) {e : Event}
    (call : e.isLog = false) : Follows s (s'.emit e) config elapsed (calls ++ [e]) := by
  have step := follows.trans (follows_emit call s')
  rwa [follows.config_eq] at step

/-- Setting the configuration makes no call. -/
theorem Follows.set (follows : Follows s s' config elapsed calls) {config' : NetioCfg} :
    Follows s { s' with config := config' } config' elapsed calls :=
  ⟨rfl, follows.ticks_eq, follows.calls_eq, follows.mouseX_eq, follows.mouseY_eq⟩

/-- Reading the clock, with nothing else. -/
theorem Follows.tick (follows : Follows s s' config elapsed calls) :
    Follows s { s' with ticks := s'.ticks + 1 } config (elapsed + 1) calls where
  config_eq := follows.config_eq
  ticks_eq := congrArg (· + 1) follows.ticks_eq
  calls_eq := follows.calls_eq
  mouseX_eq := follows.mouseX_eq
  mouseY_eq := follows.mouseY_eq

/-- A reset of the deadline at the end of steps that did not read the clock. -/
theorem Follows.reset (follows : Follows s s' config 0 calls) :
    Follows s (synprotoResetCalvDeadline host s')
      { config with calvDeadline := rearmedDeadline host s } 1 calls := by
  have step := follows.trans (follows_synprotoResetCalvDeadline host s')
  have sameClock : s'.ticks = s.ticks := follows.ticks_eq
  rwa [follows.config_eq, rearmedDeadline, sameClock, ← rearmedDeadline, List.append_nil] at step

end Chain

/-! ## Outputs -/

/-- What a packet can make the client do. -/
inductive Output where
  | reply (bytes : List UInt8)
  | mouseMove (x y : UInt16)
  | mouseDown (x y btn : UInt16)
  | mouseUp (x y btn : UInt16)
  | keyDown (id mod btn : UInt16)
  | keyUp (id mod btn : UInt16)
  | keyRpt (id mod btn : UInt16)
  | setClipboard (bytes : List UInt8)
  deriving DecidableEq

/-- The call that does it. -/
def Output.event (sockfd : Int) : Output → Event
  | .reply bytes => .send sockfd bytes
  | .mouseMove x y => .mouseMove x y
  | .mouseDown x y btn => .mouseDown x y btn
  | .mouseUp x y btn => .mouseUp x y btn
  | .keyDown id mod btn => .keyDown id mod btn
  | .keyUp id mod btn => .keyUp id mod btn
  | .keyRpt id mod btn => .keyRpt id mod btn
  | .setClipboard bytes => .setClipboard bytes

def Event.output? : Event → Option Output
  | .send _ bytes => some (.reply bytes)
  | .mouseMove x y => some (.mouseMove x y)
  | .mouseDown x y btn => some (.mouseDown x y btn)
  | .mouseUp x y btn => some (.mouseUp x y btn)
  | .keyDown id mod btn => some (.keyDown id mod btn)
  | .keyUp id mod btn => some (.keyUp id mod btn)
  | .keyRpt id mod btn => some (.keyRpt id mod btn)
  | .setClipboard bytes => some (.setClipboard bytes)
  | _ => none

@[simp] theorem output?_event (sockfd : Int) (output : Output) :
    (output.event sockfd).output? = some output := by
  cases output <;> rfl

@[simp] theorem isLog_event (sockfd : Int) (output : Output) :
    (output.event sockfd).isLog = false := by
  cases output <;> rfl

/-- Everything done so far, on any connection. -/
def Sys.outputs (s : Sys) : List Output := s.calls.filterMap Event.output?

/-! ## The payloads of the replies -/

def helloPayload (verMaj verMin : UInt16) (name : List UInt8) : List UInt8 :=
  ascii "Barrier" ++ (BigEndian.encode 2 verMaj.toNat ++ (BigEndian.encode 2 verMin.toNat ++
    (BigEndian.encode 4 7 ++ name)))

def infoPayload (screenW screenH : UInt16) : List UInt8 :=
  ascii "DINF" ++ ([0, 0, screenW.toNat, screenH.toNat, 0, 0, 0].map (BigEndian.encode 2)).flatten

/-- The two payloads that one call sends for a keepalive. -/
def keepalivePayloads : List (List UInt8) := [ascii "CALV", ascii "CNOP"]

def helloFormat : List Directive :=
  (ascii "Barrier").map .literal ++ [.int .two, .int .two, .int .four, .str]

def infoFormat : List Directive := (ascii "DINF").map .literal ++ List.replicate 7 (.int .two)

def keepaliveFormat : List Directive :=
  (ascii "CALV").map .literal ++ .int .four :: (ascii "CNOP").map .literal

theorem intText_little (width n : Nat) : intText .little width n = BigEndian.encode width n := by
  have nonneg : ((n : Int) % 256 ^ width).toNat = n % 256 ^ width := by norm_cast
  rw [intText, ByteOrder.bytes, List.reverse_reverse, nonneg, BigEndian.encode_mod]

theorem render_literals (order : ByteOrder) (literals : List UInt8) (rest : List Directive)
    (args : List VaArg) :
    render order (literals.map .literal ++ rest) args =
      (render order rest args).map (Prod.map (literals ++ ·) id) := by
  induction literals with
  | nil =>
      rw [List.map_nil, List.nil_append]
      exact (Option.map_id' (x := render order rest args)).symm
  | cons c literals ih =>
      rw [List.map_cons, List.cons_append, render, ih, Option.map_map]
      rfl

theorem render_hello (verMaj verMin : UInt16) (mem : List UInt8) :
    render .little helloFormat
        [.int verMaj.toNat, .int verMin.toNat, .int 7, .str mem] =
      some (helloPayload verMaj verMin (cString mem), []) := by
  have seven : intText .little 4 7 = BigEndian.encode 4 7 := intText_little 4 7
  rw [helloFormat, render_literals]
  simp only [render, Option.map_some, Prod.map_apply, id_eq, IntWidth.bytes, intText_little, seven,
    List.append_nil]
  rfl

theorem render_info (screenW screenH : UInt16) :
    render .little infoFormat
        [.int 0, .int 0, .int screenW.toNat, .int screenH.toNat, .int 0, .int 0, .int 0] =
      some (infoPayload screenW screenH, []) := by
  have zero : intText .little 2 0 = BigEndian.encode 2 0 := intText_little 2 0
  rw [infoFormat, render_literals]
  simp only [List.replicate, render, Option.map_some, Prod.map_apply, id_eq, IntWidth.bytes,
    intText_little, zero, List.append_nil]
  rfl

theorem render_keepalive :
    render .little keepaliveFormat [.int 4] =
      some (ascii "CALV" ++ lengthPrefixed (ascii "CNOP"), []) := by
  have four : intText .little 4 4 = BigEndian.encode 4 4 := intText_little 4 4
  have tail := render_literals .little (ascii "CNOP") [] []
  rw [List.append_nil, render, Option.map_some] at tail
  rw [keepaliveFormat, render_literals, render, tail]
  simp only [Option.map_some, Prod.map_apply, id_eq, IntWidth.bytes, four, List.append_nil]
  rfl

/-! ## One packet -/

/-- Whether a packet counts as a keepalive. -/
def rearms (pktBuf : Nat → UInt8) : Bool :=
  match PktType.ofCode? (pktTypeCode pktBuf) with
  | some .barr => true
  | some .calv => true
  | _ => false

/-- The mouse position that a packet leaves in the static variables. -/
def mouseAfter (pktBuf : Nat → UInt8) (mouse : UInt16 × UInt16) : UInt16 × UInt16 :=
  match PktType.ofCode? (pktTypeCode pktBuf) with
  | some .dmmv => (synprotoExval16 makefileBuild pktBuf 8, synprotoExval16 makefileBuild pktBuf 10)
  | _ => mouse

/-- The outputs of one packet, from the mouse position that it finds. -/
def packetOutputs (host : Host) (nameMem : List UInt8) (mouse : UInt16 × UInt16)
    (pktBuf : Nat → UInt8) (pktBufSz : UInt32) : List Output :=
  let exval16 := synprotoExval16 makefileBuild pktBuf
  let button := UInt16.ofInt (charVal host (pktBuf 8))
  match PktType.ofCode? (pktTypeCode pktBuf) with
  | some .barr => [.reply (lengthPrefixed (helloPayload (exval16 11) (exval16 13) (cString nameMem)))]
  | some .qinf => [.reply (lengthPrefixed (infoPayload host.screenW host.screenH))]
  | some .calv => [.reply (keepalivePayloads.map lengthPrefixed).flatten]
  | some .dclp =>
      if pktBuf 8 = 0 ∧ pktBuf 13 = 2 ∧ dclpBufStart ≤ pktBufSz.toNat then
        [.setClipboard (window pktBuf dclpBufStart
          ((pktBufSz.toNat - dclpBufStart) % 2 ^ host.sizeTBits))]
      else []
  | some .dmmv => [.mouseMove (exval16 8) (exval16 10)]
  | some .dmdn => [.mouseDown mouse.1 mouse.2 button]
  | some .dmup => [.mouseUp mouse.1 mouse.2 button]
  | some .dkdn => [.keyDown (exval16 8) (exval16 10) (exval16 12)]
  | some .dkup => [.keyUp (exval16 8) (exval16 10) (exval16 12)]
  | some .dkrp => [.keyRpt (exval16 8) (exval16 10) (exval16 12)]
  | _ => []

/-- `s'` is left by a call of `synproto_parse_and_reply` in `s`. -/
structure Reacts (host : Host) (pktBuf : Nat → UInt8) (pktBufSz : UInt32) (s s' : Sys) : Prop where
  config_eq : s'.config =
    { s.config with
      calvDeadline := if rearms pktBuf then rearmedDeadline host s else s.config.calvDeadline }
  ticks_eq : s'.ticks = s.ticks + if rearms pktBuf then 1 else 0
  calls_eq : s'.calls = s.calls ++
    (packetOutputs host s.config.clientNameMem (s.mouseX, s.mouseY) pktBuf pktBufSz).map
      (Output.event s.config.socketFd)
  mouse_eq : (s'.mouseX, s'.mouseY) = mouseAfter pktBuf (s.mouseX, s.mouseY)

section Arms

variable {host : Host} {pktBuf : Nat → UInt8} {pktBufSz : UInt32} {s s' : Sys}
  {type : Option PktType}

/-- A packet that does nothing but make these calls. -/
theorem Reacts.of_outputs (outputs : List Output)
    (follows : Follows s s' s.config 0 (outputs.map (Output.event s.config.socketFd)))
    (idle : rearms pktBuf = false)
    (made : packetOutputs host s.config.clientNameMem (s.mouseX, s.mouseY) pktBuf pktBufSz = outputs)
    (still : mouseAfter pktBuf (s.mouseX, s.mouseY) = (s.mouseX, s.mouseY)) :
    Reacts host pktBuf pktBufSz s s' where
  config_eq := by rw [follows.config_eq, idle]; rfl
  ticks_eq := by rw [follows.ticks_eq, idle]; rfl
  calls_eq := by rw [follows.calls_eq, made]
  mouse_eq := by rw [follows.mouseX_eq, follows.mouseY_eq, still]

/-- A packet that also re-arms the deadline. -/
theorem Reacts.of_rearm (outputs : List Output)
    (follows : Follows s s' { s.config with calvDeadline := rearmedDeadline host s } 1
      (outputs.map (Output.event s.config.socketFd)))
    (rearm : rearms pktBuf = true)
    (made : packetOutputs host s.config.clientNameMem (s.mouseX, s.mouseY) pktBuf pktBufSz = outputs)
    (still : mouseAfter pktBuf (s.mouseX, s.mouseY) = (s.mouseX, s.mouseY)) :
    Reacts host pktBuf pktBufSz s s' where
  config_eq := by rw [follows.config_eq, rearm]; rfl
  ticks_eq := by rw [follows.ticks_eq, rearm]; rfl
  calls_eq := by rw [follows.calls_eq, made]
  mouse_eq := by rw [follows.mouseX_eq, follows.mouseY_eq, still]

/-- The string read from `client_name` ends within the record. -/
theorem length_cString_clientNameMem (config : NetioCfg) :
    (cString config.clientNameMem).length ≤ 76 := by
  refine Nat.le_trans (List.takeWhile_sublist _).length_le ?_
  simp [NetioCfg.clientNameMem]

theorem length_helloPayload (verMaj verMin : UInt16) (name : List UInt8) :
    (helloPayload verMaj verMin name).length = 15 + name.length := by
  simp only [helloPayload, List.length_append, BigEndian.length_encode]
  rw [show (ascii "Barrier").length = 7 from rfl]
  omega

theorem synprotoSend_hello (verMaj verMin : UInt16) (s : Sys) :
    (synprotoSend s.config.socketFd 0 "Barrier%2i%2i%4i%s"
      [.int verMaj.toNat, .int verMin.toNat, .int 7, .str s.config.clientNameMem] s).2 =
      s.emit (.send s.config.socketFd
        (lengthPrefixed (helloPayload verMaj verMin (cString s.config.clientNameMem)))) := by
  have short := length_cString_clientNameMem s.config
  have length := length_helloPayload verMaj verMin (cString s.config.clientNameMem)
  rw [synprotoSend_render helloFormat (by decide) (by decide)
    (render_hello verMaj verMin s.config.clientNameMem) (by omega)]
  rfl

theorem synprotoSend_info (screenW screenH : UInt16) (s : Sys) :
    (synprotoSend s.config.socketFd 0 "DINF%2i%2i%2i%2i%2i%2i%2i"
      [.int 0, .int 0, .int screenW.toNat, .int screenH.toNat, .int 0, .int 0, .int 0] s).2 =
      s.emit (.send s.config.socketFd (lengthPrefixed (infoPayload screenW screenH))) := by
  rw [synprotoSend_render infoFormat (by decide) (by decide)
    (render_info screenW screenH) (by simp [infoPayload, ascii])]
  rfl

/-- The forced size is the length of the first of the two payloads. -/
theorem synprotoSend_keepalive (s : Sys) :
    (synprotoSend s.config.socketFd 4 "CALV%4iCNOP" [.int 4] s).2 =
      s.emit (.send s.config.socketFd (keepalivePayloads.map lengthPrefixed).flatten) := by
  rw [synprotoSend_render keepaliveFormat (by decide) (by decide) render_keepalive
    (by decide)]
  rfl

/-- Only three types of packet re-arm the deadline or move the mouse. -/
theorem idle_of_kind {type : PktType} (kind : PktType.ofCode? (pktTypeCode pktBuf) = some type)
    (plain : type ≠ .barr ∧ type ≠ .calv ∧ type ≠ .dmmv) (mouse : UInt16 × UInt16) :
    rearms pktBuf = false ∧ mouseAfter pktBuf mouse = mouse := by
  obtain ⟨notBarr, notCalv, notDmmv⟩ := plain
  rw [rearms, mouseAfter, kind]
  cases type with
  | barr => exact absurd rfl notBarr
  | calv => exact absurd rfl notCalv
  | dmmv => exact absurd rfl notDmmv
  | _ => exact ⟨rfl, rfl⟩

/-- A packet that makes one call. -/
theorem Reacts.of_output {type : PktType} (output : Output)
    (kind : PktType.ofCode? (pktTypeCode pktBuf) = some type)
    (plain : type ≠ .barr ∧ type ≠ .calv ∧ type ≠ .dmmv)
    (made : packetOutputs host s.config.clientNameMem (s.mouseX, s.mouseY) pktBuf pktBufSz =
      [output]) :
    Reacts host pktBuf pktBufSz s (s.emit (output.event s.config.socketFd)) := by
  obtain ⟨idle, still⟩ := idle_of_kind kind plain (s.mouseX, s.mouseY)
  exact .of_outputs [output] (follows_emit (isLog_event _ output) s) idle made still

/-- A packet that only shows up in the log. -/
theorem Reacts.of_log {type : PktType} (follows : Follows s s' s.config 0 [])
    (kind : PktType.ofCode? (pktTypeCode pktBuf) = some type)
    (plain : type ≠ .barr ∧ type ≠ .calv ∧ type ≠ .dmmv)
    (made : packetOutputs host s.config.clientNameMem (s.mouseX, s.mouseY) pktBuf pktBufSz = []) :
    Reacts host pktBuf pktBufSz s s' := by
  obtain ⟨idle, still⟩ := idle_of_kind kind plain (s.mouseX, s.mouseY)
  exact .of_outputs [] follows idle made still

theorem toInt8_eq_iff (byte : UInt8) (n : Int8) : byte.toInt8 = n ↔ byte = n.toUInt8 :=
  ⟨fun same => by rw [← same, UInt8.toUInt8_toInt8], fun same => by rw [same, Int8.toInt8_toUInt8]⟩

/-- The clipboard branch, with its three tests. -/
theorem reacts_dclp (kind : PktType.ofCode? (pktTypeCode pktBuf) = some .dclp) :
    Reacts host pktBuf pktBufSz s (synprotoParseAndReply host pktBuf pktBufSz s).2 := by
  have plain : PktType.dclp ≠ .barr ∧ PktType.dclp ≠ .calv ∧ PktType.dclp ≠ .dmmv := by decide
  have clpId : (synprotoExval8 pktBuf 8).toInt8 = 0 ↔ pktBuf 8 = 0 := toInt8_eq_iff (pktBuf 8) 0
  have clpMark : (synprotoExval8 pktBuf 13).toInt8 = 2 ↔ pktBuf 13 = 2 :=
    toInt8_eq_iff (pktBuf 13) 2
  have none : ¬(pktBuf 8 = 0 ∧ pktBuf 13 = 2 ∧ dclpBufStart ≤ pktBufSz.toNat) →
      packetOutputs host s.config.clientNameMem (s.mouseX, s.mouseY) pktBuf pktBufSz = [] := by
    intro failed
    simp only [packetOutputs, kind]
    exact if_neg failed
  rw [synprotoParseAndReply]
  simp only [kind]
  by_cases id : pktBuf 8 = 0
  · rw [if_neg (not_not.mpr (clpId.mpr id))]
    by_cases mark : pktBuf 13 = 2
    · rw [if_neg (not_not.mpr (clpMark.mpr mark))]
      by_cases short : dclpBufStart > pktBufSz.toNat
      · rw [if_pos short]
        exact .of_log (follows_osioPrintf _ _ _ s) kind plain (none (by omega))
      · rw [if_neg short]
        refine .of_output (.setClipboard _) kind plain ?_
        simp only [packetOutputs, kind]
        exact if_pos ⟨id, mark, Nat.not_lt.mp short⟩
    · rw [if_pos (fun same => mark (clpMark.mp same))]
      exact .of_log (Follows.refl s) kind plain (none fun all => mark all.2.1)
  · rw [if_pos (fun same => id (clpId.mp same))]
    exact .of_log (Follows.refl s) kind plain (none fun all => id all.1)

theorem reacts_barr (kind : PktType.ofCode? (pktTypeCode pktBuf) = some .barr) :
    Reacts host pktBuf pktBufSz s (synprotoParseAndReply host pktBuf pktBufSz s).2 := by
  rw [synprotoParseAndReply]
  simp only [kind]
  rw [synprotoSend_hello]
  exact .of_rearm [.reply _] ((Follows.refl s).log.call rfl).reset
    (by rw [rearms, kind]) (by rw [packetOutputs, kind]; rfl) (by rw [mouseAfter, kind])

theorem reacts_calv (kind : PktType.ofCode? (pktTypeCode pktBuf) = some .calv) :
    Reacts host pktBuf pktBufSz s (synprotoParseAndReply host pktBuf pktBufSz s).2 := by
  rw [synprotoParseAndReply]
  simp only [kind]
  rw [synprotoSend_keepalive]
  exact .of_rearm [.reply _] ((Follows.refl s).call rfl).reset (by rw [rearms, kind])
    (by rw [packetOutputs, kind]) (by rw [mouseAfter, kind])

/-- The mouse moves to the position that the packet stores. -/
theorem reacts_dmmv (kind : PktType.ofCode? (pktTypeCode pktBuf) = some .dmmv) :
    Reacts host pktBuf pktBufSz s (synprotoParseAndReply host pktBuf pktBufSz s).2 := by
  have idle : rearms pktBuf = false := by rw [rearms, kind]
  rw [synprotoParseAndReply]
  simp only [kind]
  have moved := follows_emit (e := .mouseMove (synprotoExval16 makefileBuild pktBuf 8)
    (synprotoExval16 makefileBuild pktBuf 10)) rfl
    { s with
      mouseX := synprotoExval16 makefileBuild pktBuf 8
      mouseY := synprotoExval16 makefileBuild pktBuf 10 }
  refine ⟨?_, ?_, ?_, ?_⟩
  · rw [moved.config_eq, idle]
    rfl
  · rw [moved.ticks_eq, idle]
    rfl
  · rw [moved.calls_eq, packetOutputs, kind]
    rfl
  · rw [moved.mouseX_eq, moved.mouseY_eq, mouseAfter, kind]

/-- What `synproto_parse_and_reply` does, for every packet. -/
theorem synprotoParseAndReply_reacts (host : Host) (pktBuf : Nat → UInt8) (pktBufSz : UInt32)
    (s : Sys) : Reacts host pktBuf pktBufSz s (synprotoParseAndReply host pktBuf pktBufSz s).2 := by
  have invalid : Follows s (synprotoDump host pktBuf (pktBufSz.toNat % 2 ^ host.sizeTBits)
      (osioPrintf .debug "invalid packet:" [] s)) s.config 0 [] :=
    (follows_osioPrintf .debug "invalid packet:" [] s).trans (follows_synprotoDump _ _ _ _)
  cases kind : PktType.ofCode? (pktTypeCode pktBuf) with
  | none =>
      rw [synprotoParseAndReply]
      simp only [kind]
      exact .of_outputs [] invalid (by rw [rearms, kind]) (by rw [packetOutputs, kind])
        (by rw [mouseAfter, kind])
  | some type =>
      cases type with
      | barr => exact reacts_barr kind
      | calv => exact reacts_calv kind
      | dmmv => exact reacts_dmmv kind
      | dclp => exact reacts_dclp kind
      | qinf =>
          rw [synprotoParseAndReply]
          simp only [kind]
          rw [synprotoSend_info]
          exact .of_output (.reply _) kind (by decide) (by rw [packetOutputs, kind])
      | ciak | crop =>
          rw [synprotoParseAndReply]
          simp only [kind]
          exact .of_log (follows_osioPrintf _ _ _ s) kind (by decide) (by rw [packetOutputs, kind])
      | cinn | cout | dsop =>
          rw [synprotoParseAndReply]
          simp only [kind]
          exact .of_log (Follows.refl s) kind (by decide) (by rw [packetOutputs, kind])
      | ebad =>
          rw [synprotoParseAndReply]
          simp only [kind]
          exact .of_log invalid kind (by decide) (by rw [packetOutputs, kind])
      | dmdn =>
          rw [synprotoParseAndReply]
          simp only [kind]
          exact .of_output (.mouseDown _ _ _) kind (by decide) (by rw [packetOutputs, kind])
      | dmup =>
          rw [synprotoParseAndReply]
          simp only [kind]
          exact .of_output (.mouseUp _ _ _) kind (by decide) (by rw [packetOutputs, kind])
      | dkdn =>
          rw [synprotoParseAndReply]
          simp only [kind]
          exact .of_output (.keyDown _ _ _) kind (by decide) (by rw [packetOutputs, kind])
      | dkup =>
          rw [synprotoParseAndReply]
          simp only [kind]
          exact .of_output (.keyUp _ _ _) kind (by decide) (by rw [packetOutputs, kind])
      | dkrp =>
          rw [synprotoParseAndReply]
          simp only [kind]
          exact .of_output (.keyRpt _ _ _) kind (by decide) (by rw [packetOutputs, kind])

end Arms

end MinputHop
