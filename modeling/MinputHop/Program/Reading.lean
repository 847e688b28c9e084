import MinputHop.Library.Transducer
import MinputHop.Program.Isolation

/-!
# The reading of a stream

A list of frames has a meaning of its own: what each frame asks for, with the
mouse where the latest move before it left it.  A run that hands on all frames
of a stream does exactly that, however the bytes arrived and however the packet
budget cut the work.
-/

namespace MinputHop

open FlatMemory

/-! ## The reference reading -/

/-- The four letters in front of the payload of each packet type. -/
def PktType.letters : PktType → String
  | .barr => "Barr"
  | .qinf => "QINF"
  | .ciak => "CIAK"
  | .crop => "CROP"
  | .calv => "CALV"
  | .cinn => "CINN"
  | .dclp => "DCLP"
  | .dmmv => "DMMV"
  | .dmdn => "DMDN"
  | .dmup => "DMUP"
  | .dkdn => "DKDN"
  | .dkup => "DKUP"
  | .dkrp => "DKRP"
  | .cout => "COUT"
  | .dsop => "DSOP"
  | .ebad => "EBAD"

def frameType? (frame : List UInt8) : Option PktType :=
  PktType.all.find? fun type => (frame.drop 4).take 4 = ascii type.letters

/-- A 16-bit field of a frame. -/
def field (frame : List UInt8) (off : Nat) : UInt16 :=
  UInt16.ofNat (BigEndian.value ((frame.drop off).take 2))

def byteAt (frame : List UInt8) (i : Nat) : UInt8 := frame[i]?.getD 0

/-- Where the latest mouse move among the frames so far left the mouse. -/
def mouseAt (before : List (List UInt8)) : UInt16 × UInt16 :=
  match before.reverse.find? (frameType? · = some .dmmv) with
  | some frame => (field frame 8, field frame 10)
  | none => (0, 0)

/-- What one frame asks for, after the frames before it.  Any name is announced with seven
bytes. -/
def readFrame (screenW screenH : UInt16) (name : List UInt8) (before : List (List UInt8))
    (frame : List UInt8) : List Output :=
  match frameType? frame with
  | some .barr => [.reply (lengthPrefixed (ascii "Barrier" ++ ((frame.drop 11).take 4 ++
      (BigEndian.encode 4 7 ++ name))))]
  | some .qinf => [.reply (lengthPrefixed (infoPayload screenW screenH))]
  | some .calv => [.reply (lengthPrefixed (ascii "CALV") ++ lengthPrefixed (ascii "CNOP"))]
  | some .dclp =>
      if byteAt frame 8 = 0 ∧ byteAt frame 13 = 2 ∧ 30 ≤ frame.length then
        [.setClipboard (frame.drop 30)]
      else []
  | some .dmmv => [.mouseMove (field frame 8) (field frame 10)]
  | some .dmdn => [.mouseDown (mouseAt before).1 (mouseAt before).2 (byteAt frame 8).toUInt16]
  | some .dmup => [.mouseUp (mouseAt before).1 (mouseAt before).2 (byteAt frame 8).toUInt16]
  | some .dkdn => [.keyDown (field frame 8) (field frame 10) (field frame 12)]
  | some .dkup => [.keyUp (field frame 8) (field frame 10) (field frame 12)]
  | some .dkrp => [.keyRpt (field frame 8) (field frame 10) (field frame 12)]
  | _ => []

/-- The reader remembers the frames it has read. -/
def reader (screenW screenH : UInt16) (name : List UInt8) :
    Transducer (List (List UInt8)) (List UInt8) Output where
  next before frame := before ++ [frame]
  emit := readFrame screenW screenH name

/-- What a stream of frames asks for. -/
def reading (screenW screenH : UInt16) (name : List UInt8) (frames : List (List UInt8)) :
    List Output :=
  (reader screenW screenH name).run [] frames

/-- A frame long enough for its type, with a mouse button below 128. -/
def LongEnough (frame : List UInt8) : Prop :=
  8 ≤ frame.length ∧
  match frameType? frame with
  | some .barr => 15 ≤ frame.length
  | some .dmmv => 12 ≤ frame.length
  | some .dmdn | some .dmup => 9 ≤ frame.length ∧ byteAt frame 8 < 128
  | some .dclp | some .dkdn | some .dkup | some .dkrp => 14 ≤ frame.length
  | _ => True

instance (frame : List UInt8) : Decidable (LongEnough frame) :=
  decidable_of_iff (8 ≤ frame.length ∧
      (frameType? frame = some .barr → 15 ≤ frame.length) ∧
      (frameType? frame = some .dmmv → 12 ≤ frame.length) ∧
      (frameType? frame = some .dmdn ∨ frameType? frame = some .dmup →
        9 ≤ frame.length ∧ byteAt frame 8 < 128) ∧
      (frameType? frame = some .dclp ∨ frameType? frame = some .dkdn ∨
        frameType? frame = some .dkup ∨ frameType? frame = some .dkrp → 14 ≤ frame.length)) (by
    unfold LongEnough
    cases frameType? frame with
    | none => simp
    | some type => cases type <;> simp)

/-! ## A packet is read as its frame -/

section Packet

variable {pktBuf : Nat → UInt8} {n : Nat}

theorem encode_code (type : PktType) :
    BigEndian.encode 4 type.code.toNat = ascii type.letters := by
  cases type <;> decide

theorem take_drop_window (pktBuf : Nat → UInt8) {off length n : Nat} (inside : off + length ≤ n) :
    ((window pktBuf 0 n).drop off).take length = window pktBuf off length := by
  rw [drop_window pktBuf 0 (by omega), take_window _ _ (by omega), Nat.zero_add]

theorem frameType?_window (whole : 8 ≤ n) :
    frameType? (window pktBuf 0 n) = PktType.ofCode? (pktTypeCode pktBuf) := by
  rw [frameType?, PktType.ofCode?, take_drop_window pktBuf whole]
  congr 1
  funext type
  rw [decide_eq_decide, ← encode_code, ← pktTypeCode_eq_iff]
  exact eq_comm

theorem field_window {off : Nat} (inside : off + 2 ≤ n) :
    field (window pktBuf 0 n) off = synprotoExval16 makefileBuild pktBuf off := by
  rw [field, take_drop_window pktBuf inside, ← toNat_synprotoExval16 makefileBuild_matched,
    UInt16.ofNat_toNat]

theorem byteAt_window {i : Nat} (inside : i < n) : byteAt (window pktBuf 0 n) i = pktBuf i := by
  rw [byteAt, getElem?_window pktBuf 0 inside, Nat.zero_add, Option.getD_some]

/-- Below 128 a plain `char` has one value, whether signed or not. -/
theorem button_of_small (host : Host) {c : UInt8} (small : c < 128) :
    UInt16.ofInt (charVal host c) = c.toUInt16 := by
  have bound : c.toNat < 128 := UInt8.lt_iff_toNat_lt.mp small
  have value : charVal host c = c.toNat := by
    rw [charVal]
    split
    · exact BitVec.toInt_eq_toNat_of_lt (x := c.toBitVec) (by
        rw [UInt8.toNat_toBitVec]
        omega)
    · rfl
  rw [← UInt16.toNat_inj, value, UInt16.ofInt, UInt16.toNat_ofNat', UInt8.toNat_toUInt16]
  omega

/-- A long enough frame asks for what the client does with it. -/
theorem packetOutputs_window {host : Host} {nameMem : List UInt8} {before : List (List UInt8)}
    {pktBufSz : UInt32} (wide : 32 ≤ host.sizeTBits)
    (long : LongEnough (window pktBuf 0 pktBufSz.toNat)) :
    packetOutputs host nameMem (mouseAt before) pktBuf pktBufSz =
      readFrame host.screenW host.screenH (cString nameMem) before
        (window pktBuf 0 pktBufSz.toNat) := by
  obtain ⟨whole, long⟩ := long
  rw [length_window] at whole long
  rw [frameType?_window whole] at long
  rw [packetOutputs, readFrame, frameType?_window whole, length_window]
  cases kind : PktType.ofCode? (pktTypeCode pktBuf) with
  | none => rfl
  | some type =>
      rw [kind] at long
      cases type with
      | barr =>
          dsimp only at long ⊢
          rw [helloPayload_eq, take_drop_window pktBuf (by omega)]
      | calv => exact congrArg (fun bytes => [Output.reply bytes]) (by
          rw [keepalivePayloads, List.map_cons, List.map_singleton, List.flatten_cons,
            List.flatten_singleton])
      | dclp =>
          have size := Nat.mod_eq_of_lt (a := pktBufSz.toNat - dclpBufStart)
            (b := 2 ^ host.sizeTBits) (Nat.lt_of_le_of_lt (Nat.sub_le _ _)
              (Nat.lt_of_lt_of_le pktBufSz.toNat_lt (Nat.pow_le_pow_right (by decide) wide)))
          dsimp only at long ⊢
          rw [byteAt_window (by omega), byteAt_window (by omega), size]
          by_cases ours : pktBuf 8 = 0 ∧ pktBuf 13 = 2 ∧ 30 ≤ pktBufSz.toNat
          · rw [if_pos ours, if_pos (by exact ours), drop_window pktBuf 0 ours.2.2, Nat.zero_add]
            rfl
          · rw [if_neg ours, if_neg (by exact ours)]
      | dmmv =>
          dsimp only at long ⊢
          rw [field_window (by omega), field_window (by omega)]
      | dmdn | dmup =>
          dsimp only at long ⊢
          rw [byteAt_window (by omega)] at long ⊢
          rw [button_of_small host long.2]
      | dkdn | dkup | dkrp =>
          dsimp only at long ⊢
          rw [field_window (by omega), field_window (by omega), field_window (by omega)]
      | _ => rfl

theorem mouseAt_concat (before : List (List UInt8)) (frame : List UInt8) :
    mouseAt (before ++ [frame]) =
      if frameType? frame = some .dmmv then (field frame 8, field frame 10) else mouseAt before := by
  rw [mouseAt, List.reverse_append, List.reverse_singleton, List.singleton_append, List.find?_cons]
  by_cases moves : frameType? frame = some .dmmv
  · rw [if_pos moves, decide_eq_true moves]
  · rw [if_neg moves, decide_eq_false moves]
    rfl

/-- The packet moves the mouse as its frame does. -/
theorem mouseAfter_window {before : List (List UInt8)}
    (long : LongEnough (window pktBuf 0 n)) :
    mouseAfter pktBuf (mouseAt before) = mouseAt (before ++ [window pktBuf 0 n]) := by
  obtain ⟨whole, long⟩ := long
  rw [length_window] at whole long
  rw [frameType?_window whole] at long
  rw [mouseAt_concat, frameType?_window whole, mouseAfter]
  cases kind : PktType.ofCode? (pktTypeCode pktBuf) with
  | none => rfl
  | some type =>
      rw [kind] at long
      cases type with
      | dmmv =>
          dsimp only at long ⊢
          rw [field_window (by omega), field_window (by omega)]
          rfl
      | _ => rfl

end Packet

/-! ## A run reads its packets -/

/-- The dispatcher, as a transducer over the packets handed to it. -/
def dispatcher (host : Host) (nameMem : List UInt8) :
    Transducer (UInt16 × UInt16) ((Nat → UInt8) × UInt32) Output where
  next mouse packet := mouseAfter packet.1 mouse
  emit mouse packet := packetOutputs host nameMem mouse packet.1 packet.2

/-- The packet is this frame. -/
def Carries (packet : (Nat → UInt8) × UInt32) (frame : List UInt8) : Prop :=
  frame = window packet.1 0 packet.2.toNat ∧ LongEnough frame

/-- The dispatcher does what the frames ask for. -/
theorem dispatcher_simulates (host : Host) (wide : 32 ≤ host.sizeTBits) (nameMem : List UInt8) :
    Transducer.Simulates (dispatcher host nameMem)
      (reader host.screenW host.screenH (cString nameMem))
      (fun mouse before => mouse = mouseAt before) Carries where
  emit := by
    rintro _ before packet _ rfl ⟨rfl, long⟩
    exact packetOutputs_window wide long
  next := by
    rintro _ before packet _ rfl ⟨rfl, long⟩
    exact mouseAfter_window long

/-- All packets handed on, on all connections, in order. -/
def packetsOf (conns : List Conn) : List ((Nat → UInt8) × UInt32) :=
  conns.reverse.flatMap Conn.packets

theorem packetsOf_cons (conn : Conn) (older : List Conn) :
    packetsOf (conn :: older) = packetsOf older ++ conn.packets := by
  rw [packetsOf, List.reverse_cons, List.flatMap_append, List.flatMap_singleton]
  rfl

theorem packetsOf_ended (conns : List Conn) :
    packetsOf (conns.modifyHead Conn.ended) = packetsOf conns := by
  cases conns with
  | nil => rfl
  | cons conn older =>
      rw [List.modifyHead_cons, packetsOf_cons, packetsOf_cons]
      rfl

theorem packetsOf_take (conn : Conn) (older : List Conn) (pktBuf : Nat → UInt8)
    (pktBufSz : UInt32) (reply : List UInt8) :
    packetsOf (conn.take pktBuf pktBufSz reply :: older) =
      packetsOf (conn :: older) ++ [(pktBuf, pktBufSz)] := by
  rw [packetsOf_cons, packetsOf_cons, List.append_assoc]
  rfl

theorem filterMap_event (sockfd : Int) (outputs : List Output) :
    (outputs.map (Output.event sockfd)).filterMap Event.output? = outputs := by
  rw [List.filterMap_map]
  exact (List.filterMap_congr fun output _ => output?_event sockfd output).trans
    List.filterMap_some

theorem Sys.outputs_of_calls {s s' : Sys} {calls : List Event}
    (extended : s'.calls = s.calls ++ calls) :
    s'.outputs = s.outputs ++ calls.filterMap Event.output? := by
  rw [Sys.outputs, extended, List.filterMap_append]
  rfl

/-- The outputs so far, and the mouse, are what the dispatcher made of the
packets so far. -/
structure Replayed (host : Host) (nameMem : List UInt8) (s : Sys) : Prop where
  outputs_eq : s.outputs = (dispatcher host nameMem).run (0, 0) (packetsOf s.connections)
  mouse_eq : (s.mouseX, s.mouseY) =
    (dispatcher host nameMem).final (0, 0) (packetsOf s.connections)

namespace Replayed

variable {host : Host} {nameMem : List UInt8} {s s' : Sys} {config : NetioCfg} {elapsed : Nat}
  {calls : List Event}

/-- No packet was handed on and nothing was done. -/
theorem still (inv : Replayed host nameMem s) (follows : Follows s s' config elapsed calls)
    (quiet : calls.filterMap Event.output? = [])
    (same : packetsOf s'.connections = packetsOf s.connections) : Replayed host nameMem s' where
  outputs_eq := by
    rw [Sys.outputs_of_calls follows.calls_eq, quiet, List.append_nil, inv.outputs_eq, same]
  mouse_eq := by
    rw [follows.mouseX_eq, follows.mouseY_eq, inv.mouse_eq, same]

/-- One more packet was handed on. -/
theorem dispatched (inv : Replayed host nameMem s) (dispatches : Dispatches host s s')
    (name : cString s.config.clientNameMem = cString nameMem) {conn : Conn} {older : List Conn}
    (current : s.connections = conn :: older) : Replayed host nameMem s' := by
  have packets : packetsOf s'.connections =
      packetsOf s.connections ++ [(s.config.pktBuf.cells, pktClaimSz s.config)] := by
    rw [dispatches.connections_eq current, packetsOf_take, current]
  have emitted : packetOutputs host s.config.clientNameMem (s.mouseX, s.mouseY)
        s.config.pktBuf.cells (pktClaimSz s.config) =
      (dispatcher host nameMem).emit (s.mouseX, s.mouseY)
        (s.config.pktBuf.cells, pktClaimSz s.config) := by
    change packetOutputs _ _ _ _ _ = packetOutputs host nameMem _ _ _
    rw [packetOutputs, name]
    rfl
  constructor
  · rw [Sys.outputs_of_calls dispatches.calls_eq, List.filterMap_cons_none rfl, filterMap_event,
      emitted, packets, Transducer.run_concat, ← inv.outputs_eq, ← inv.mouse_eq]
  · rw [dispatches.mouse_eq, packets, Transducer.final_concat, ← inv.mouse_eq]
    rfl

end Replayed

theorem Step.replayed {host : Host} {input : IterInput} {stage stage' : Stage} {s s' : Sys}
    {nameMem : List UInt8} (step : Step host input stage s stage' s')
    (attached : Attached stage s) (name : cString s.config.clientNameMem = cString nameMem)
    (inv : Replayed host nameMem s) : Replayed host nameMem s' := by
  cases step with
  | connected | rested => exact inv
  | failed _ attempt follows =>
      refine inv.still follows ?_ ?_
      · cases attempt <;> rfl
      · rw [follows.connections_failed attempt, packetsOf_ended]
  | opened _ accepted event_eq follows =>
      refine inv.still follows (by rw [event_eq]; rfl) ?_
      rw [follows.connections_opened accepted event_eq, packetsOf_cons, packetsOf_ended]
      exact List.append_nil _
  | starved _ follows | waited _ follows | kept _ follows =>
      exact inv.still follows rfl (congrArg packetsOf follows.connections_eq)
  | exhausted _ _ _ follows =>
      obtain ⟨conn, older, _, current⟩ := attached
      refine inv.still follows rfl ?_
      rw [follows.connections_exhausted current, current, packetsOf_cons, packetsOf_cons]
      rfl
  | filled _ room follows =>
      obtain ⟨conn, older, _, current⟩ := attached
      refine inv.still follows ?_ ?_
      · rcases room.calls_eq with rfl | ⟨_, rfl⟩ <;> rfl
      · rw [follows.connections_filled room current, current, packetsOf_cons, packetsOf_cons]
        rfl
  | took _ _ dispatches | overran _ _ dispatches =>
      obtain ⟨conn, older, _, current⟩ := attached
      exact inv.dispatched dispatches name current
  | dropped _ _ follows =>
      refine inv.still follows rfl ?_
      rw [follows.connections_eq]
      exact packetsOf_ended s.connections

theorem Reach.replayed {host : Host} {Admits : IterInput → Stage → Sys → Prop}
    {serverAddr clientName : Vector UInt8 64} {serverPort : Int} {input : IterInput}
    {stage : Stage} {s : Sys} (terminated : Terminated clientName)
    (reach : Reach host Admits (minputMainSetup serverAddr clientName serverPort) input stage s) :
    Replayed host clientName.toList s := by
  refine Reach.induction (fun _ s => Replayed host clientName.toList s) ⟨rfl, rfl⟩ ?_ id reach
  intro _ _ _ _ _ reach _ step inv
  have kept := Reach.clientName_eq reach
  refine step.replayed (Reach.attached reach) ?_ inv
  rw [cString_clientNameMem (by rw [kept]; exact terminated), kept]
  rfl

/-! ## Arrival does not matter -/

/-- A run brought this stream on one connection, and all of it was handed on. -/
def Completes (host : Host) (clientName : Vector UInt8 64) (frames : List (List UInt8)) (s : Sys) :
    Prop :=
  ∃ (serverAddr : Vector UInt8 64) (serverPort : Int) (input : IterInput) (stage : Stage)
    (conn : Conn),
    Reach host inRange (minputMainSetup serverAddr clientName serverPort) input stage s ∧
      s.connections = [conn] ∧ conn.received = frames.flatten ∧
      conn.packets.length = frames.length

/-- All frames were handed on, each as it was sent. -/
theorem Completes.outputs_eq {host : Host} {clientName : Vector UInt8 64}
    {frames : List (List UInt8)} {s : Sys} (wide : 32 ≤ host.sizeTBits)
    (terminated : Terminated clientName) (wire : ∀ frame ∈ frames, WireFrame frame)
    (long : ∀ frame ∈ frames, LongEnough frame) (completes : Completes host clientName frames s) :
    s.outputs = reading host.screenW host.screenH (clientNameOf clientName) frames := by
  obtain ⟨serverAddr, serverPort, input, stage, conn, reach, only, received, complete⟩ := completes
  have inv := Reach.reassembled (fetchesFit_of_inRange wide) reach
  obtain ⟨pending, keeps⟩ := inv.ledger.past conn (only ▸ List.mem_singleton_self conn)
  have front : conn.dispatched <+: frames :=
    keeps.faithful frames wire (keeps.arrived.trans (received ▸ List.prefix_refl _))
  have dispatched : conn.dispatched = frames :=
    front.eq_of_length (by rw [Conn.dispatched, List.length_map, complete])
  have carries : List.Forall₂ Carries conn.packets frames := by
    rw [← dispatched, Conn.dispatched, List.forall₂_map_right_iff, List.forall₂_same]
    intro packet member
    refine ⟨rfl, long _ ?_⟩
    rw [← dispatched]
    exact List.mem_map_of_mem member
  have start : ((0, 0) : UInt16 × UInt16) = mouseAt [] := rfl
  rw [(Reach.replayed terminated reach).outputs_eq, only, packetsOf_cons]
  exact (dispatcher_simulates host wide clientName.toList).run start carries

/-- Two runs that bring the same frames, however cut, do the same: what the
frames ask for. -/
theorem outputs_eq_reading {host₁ host₂ : Host} (wide₁ : 32 ≤ host₁.sizeTBits)
    (wide₂ : 32 ≤ host₂.sizeTBits) (sameW : host₁.screenW = host₂.screenW)
    (sameH : host₁.screenH = host₂.screenH) {clientName : Vector UInt8 64}
    (terminated : Terminated clientName) {frames : List (List UInt8)}
    (wire : ∀ frame ∈ frames, WireFrame frame) (long : ∀ frame ∈ frames, LongEnough frame)
    {s₁ s₂ : Sys} (first : Completes host₁ clientName frames s₁)
    (second : Completes host₂ clientName frames s₂) :
    s₁.outputs = s₂.outputs ∧
      s₂.outputs = reading host₂.screenW host₂.screenH (clientNameOf clientName) frames := by
  have firstOutputs := first.outputs_eq wide₁ terminated wire long
  have secondOutputs := second.outputs_eq wide₂ terminated wire long
  rw [sameW, sameH] at firstOutputs
  exact ⟨firstOutputs.trans secondOutputs.symm, secondOutputs⟩

/-- Iterations that pass the checks and bring all of the frames. -/
theorem Completes.of_osioLoop {host : Host} {frames : List (List UInt8)} {inputs : List IterInput}
    (admits : osioLoopAdmits host inRange inputs defaultSetup = true)
    (ok : (osioLoop host inputs defaultSetup).1 = 0)
    (carried : (osioLoop host inputs defaultSetup).2.connections.map
      (fun conn => (conn.received, conn.packets.length)) = [(frames.flatten, frames.length)]) :
    Completes host defaultName frames (osioLoop host inputs defaultSetup).2 := by
  obtain ⟨conn, only, carried⟩ := List.map_eq_singleton_iff.mp carried
  obtain ⟨received, complete⟩ := Prod.mk.inj carried
  exact ⟨_, _, _, _, conn, osioLoop_next .first admits ok receivesNothing, only, received, complete⟩

def atOnce : List IterInput := [receives ⟨secondFrames.flatten, by decide, by decide⟩]

def inPieces : List IterInput :=
  [receives ⟨secondFrames.flatten.take 2, by decide, by decide⟩,
    receives ⟨(secondFrames.flatten.drop 2).take 23, by decide, by decide⟩, cutRest]

theorem outputs_eq_reading_pieces :
    (osioLoop unixHost atOnce defaultSetup).2.outputs =
        (osioLoop tickingHost inPieces defaultSetup).2.outputs ∧
      (osioLoop tickingHost inPieces defaultSetup).2.outputs =
        reading 640 480 (clientNameOf defaultName) secondFrames := by
  have well : (∀ frame ∈ secondFrames, WireFrame frame) ∧ ∀ frame ∈ secondFrames, LongEnough frame := by
    decide +kernel
  have first : Completes unixHost defaultName secondFrames (osioLoop unixHost atOnce defaultSetup).2 :=
    .of_osioLoop (by decide +kernel) (by decide +kernel) (by decide +kernel)
  have second : Completes tickingHost defaultName secondFrames
      (osioLoop tickingHost inPieces defaultSetup).2 :=
    .of_osioLoop (by decide +kernel) (by decide +kernel) (by decide +kernel)
  have sameScreen : unixHost.screenW = tickingHost.screenW ∧ unixHost.screenH = tickingHost.screenH :=
    ⟨rfl, rfl⟩
  exact outputs_eq_reading (by decide) (by decide) sameScreen.1 sameScreen.2 terminated_defaultName
    well.1 well.2 first second

end MinputHop
