import MinputHop.Program.Replies

/-!
# What a packet may read

`synproto_parse_and_reply` gets the length of the packet, but only the clipboard
branch compares an offset with it.  A packet that is long enough for its type
is read inside its own bytes; every shorter one takes part of its meaning from
whatever lies behind it in the buffer.
-/

namespace MinputHop

open FlatMemory

/-- The result of a call does not depend on any byte behind the packet. -/
def Isolated (host : Host) (pktBuf : Nat → UInt8) (pktBufSz : UInt32) (s : Sys) : Prop :=
  ∀ other : Nat → UInt8, (∀ i < pktBufSz.toNat, other i = pktBuf i) →
    synprotoParseAndReply host other pktBufSz s = synprotoParseAndReply host pktBuf pktBufSz s

/-- The first bytes of a type field, as many as a packet of `n` bytes has. -/
def typePrefix (type : PktType) (n : Nat) : List UInt8 :=
  (BigEndian.encode 4 type.code.toNat).take (n - 4)

/-- A packet of `n` bytes is long enough for its type; without a whole type
field, it is not the start of any packet that the client knows. -/
def SelfContained (n : Nat) (pktBuf : Nat → UInt8) : Prop :=
  if 8 ≤ n then
    match PktType.ofCode? (pktTypeCode pktBuf) with
    | some .barr => 15 ≤ n
    | some .dmmv => 12 ≤ n
    | some .dmdn | some .dmup => 9 ≤ n
    | some .dkdn | some .dkup | some .dkrp => 14 ≤ n
    | some .dclp => 14 ≤ n ∨ 9 ≤ n ∧ pktBuf 8 ≠ 0
    | _ => True
  else ∀ type : PktType, type ≠ .ebad → window pktBuf 4 (n - 4) ≠ typePrefix type n

/-! ## Packet types -/

theorem ofCode?_code (type : PktType) : PktType.ofCode? type.code = some type := by
  cases type <;> rfl

theorem ofCode?_eq_some_iff {code : UInt32} {type : PktType} :
    PktType.ofCode? code = some type ↔ code = type.code := by
  constructor
  · intro found
    have same := List.find?_some found
    exact (of_decide_eq_true same).symm
  · rintro rfl
    exact ofCode?_code type

/-- The type is what the four bytes of the type field spell. -/
theorem pktTypeCode_eq_iff {pktBuf : Nat → UInt8} {type : PktType} :
    pktTypeCode pktBuf = type.code ↔ window pktBuf 4 4 = BigEndian.encode 4 type.code.toNat := by
  have bound := type.code.toNat_lt
  rw [← UInt32.toNat_inj, pktTypeCode, toNat_synprotoExval32 makefileBuild_matched]
  constructor
  · intro same
    have written := BigEndian.encode_value (window pktBuf 4 4)
    rw [length_window, same] at written
    exact written.symm
  · intro same
    rw [same, BigEndian.value_encode_of_lt (by omega)]

theorem ofCode?_pktTypeCode_iff {pktBuf : Nat → UInt8} {type : PktType} :
    PktType.ofCode? (pktTypeCode pktBuf) = some type ↔
      window pktBuf 4 4 = BigEndian.encode 4 type.code.toNat :=
  ofCode?_eq_some_iff.trans pktTypeCode_eq_iff

/-! ## A long enough packet is isolated -/

section Agree

variable {pktBuf other : Nat → UInt8} {n : Nat}

theorem window_agree (agree : ∀ i < n, other i = pktBuf i) {off length : Nat}
    (inside : off + length ≤ n) : window other off length = window pktBuf off length :=
  window_congr fun i below => agree (off + i) (by omega)

theorem exval16_congr (agree : ∀ i < n, other i = pktBuf i) (off : Nat) (inside : off + 2 ≤ n) :
    synprotoExval16 makefileBuild other off = synprotoExval16 makefileBuild pktBuf off := by
  rw [synprotoExval16, window_agree agree inside]
  rfl

theorem pktTypeCode_congr (agree : ∀ i < n, other i = pktBuf i) (inside : 8 ≤ n) :
    pktTypeCode other = pktTypeCode pktBuf := by
  rw [pktTypeCode, synprotoExval32, window_agree agree inside]
  rfl

end Agree

section Calls

variable {host : Host} {pktBuf other : Nat → UInt8} {pktBufSz : UInt32} {s : Sys}

/-- What happens to a packet of no known type. -/
theorem synprotoParseAndReply_invalid
    (unknown : ∀ type, type ≠ .ebad → PktType.ofCode? (pktTypeCode pktBuf) ≠ some type) :
    synprotoParseAndReply host pktBuf pktBufSz s =
      (minhopErrProtocol, synprotoDump host pktBuf (pktBufSz.toNat % 2 ^ host.sizeTBits)
        (osioPrintf .debug "invalid packet:" [] s)) := by
  rw [synprotoParseAndReply]
  cases kind : PktType.ofCode? (pktTypeCode pktBuf) with
  | none => rfl
  | some type =>
      cases type with
      | ebad => rfl
      | _ => exact absurd kind (unknown _ (by decide))

theorem synprotoDump_congr (agree : ∀ i < pktBufSz.toNat, other i = pktBuf i) (s : Sys) :
    synprotoDump host other (pktBufSz.toNat % 2 ^ host.sizeTBits) s =
      synprotoDump host pktBuf (pktBufSz.toNat % 2 ^ host.sizeTBits) s := by
  have dumped := Nat.mod_le pktBufSz.toNat (2 ^ host.sizeTBits)
  rw [synprotoDump, window_agree agree (by omega)]
  rfl

/-- A packet without a whole type field has no known type if its start has none. -/
theorem unknown_of_start {n : Nat} (short : n < 8) (agree : ∀ i < n, other i = pktBuf i)
    (apart : ∀ type : PktType, type ≠ .ebad → window pktBuf 4 (n - 4) ≠ typePrefix type n) :
    ∀ type, type ≠ .ebad → PktType.ofCode? (pktTypeCode other) ≠ some type := by
  intro type notEbad kind
  rw [ofCode?_pktTypeCode_iff] at kind
  refine apart type notEbad ?_
  by_cases some : 4 ≤ n
  · rw [typePrefix, ← kind, take_window other 4 (by omega), window_agree agree (by omega)]
  · rw [typePrefix, show n - 4 = 0 by omega]
    rfl

/-- The clipboard branch ends with the id, or reads the mark and what it copies. -/
theorem dclp_congr (kind : PktType.ofCode? (pktTypeCode pktBuf) = some .dclp)
    (whole : 8 ≤ pktBufSz.toNat) (agree : ∀ i < pktBufSz.toNat, other i = pktBuf i)
    (contained : 14 ≤ pktBufSz.toNat ∨ 9 ≤ pktBufSz.toNat ∧ pktBuf 8 ≠ 0) :
    synprotoParseAndReply host other pktBufSz s =
      synprotoParseAndReply host pktBuf pktBufSz s := by
  rw [synprotoParseAndReply, synprotoParseAndReply, pktTypeCode_congr agree whole, kind]
  dsimp only
  have id : synprotoExval8 other 8 = synprotoExval8 pktBuf 8 := agree 8 (by omega)
  rw [id]
  rcases contained with marked | ⟨_, foreign⟩
  · have mark : synprotoExval8 other 13 = synprotoExval8 pktBuf 13 := agree 13 (by omega)
    rw [mark]
    by_cases starts : dclpBufStart > pktBufSz.toNat
    · rw [if_pos starts, if_pos starts]
    · have size := Nat.mod_le (pktBufSz.toNat - dclpBufStart) (2 ^ host.sizeTBits)
      rw [window_agree agree (by omega)]
  · have ignored : (synprotoExval8 pktBuf 8).toInt8 ≠ 0 := fun zero =>
      foreign ((toInt8_eq_iff (pktBuf 8) 0).mp zero)
    rw [if_pos ignored, if_pos ignored]

theorem isolated_of_selfContained (contained : SelfContained pktBufSz.toNat pktBuf) :
    Isolated host pktBuf pktBufSz s := by
  intro other agree
  by_cases whole : 8 ≤ pktBufSz.toNat
  · rw [SelfContained, if_pos whole] at contained
    have type := pktTypeCode_congr agree whole
    cases kind : PktType.ofCode? (pktTypeCode pktBuf) with
    | none =>
        rw [synprotoParseAndReply, synprotoParseAndReply, type, kind]
        dsimp only
        rw [synprotoDump_congr agree]
    | some known =>
        rw [kind] at contained
        cases known with
        | dclp => exact dclp_congr kind whole agree contained
        | barr =>
            rw [synprotoParseAndReply, synprotoParseAndReply, type, kind]
            dsimp only at contained ⊢
            rw [exval16_congr agree 11 (by omega), exval16_congr agree 13 (by omega)]
        | dmmv =>
            rw [synprotoParseAndReply, synprotoParseAndReply, type, kind]
            dsimp only at contained ⊢
            rw [exval16_congr agree 8 (by omega), exval16_congr agree 10 (by omega)]
        | dmdn | dmup =>
            rw [synprotoParseAndReply, synprotoParseAndReply, type, kind]
            dsimp only at contained ⊢
            rw [agree 8 (by omega)]
        | dkdn | dkup | dkrp =>
            rw [synprotoParseAndReply, synprotoParseAndReply, type, kind]
            dsimp only at contained ⊢
            rw [exval16_congr agree 8 (by omega), exval16_congr agree 10 (by omega),
              exval16_congr agree 12 (by omega)]
        | ebad =>
            rw [synprotoParseAndReply, synprotoParseAndReply, type, kind]
            dsimp only
            rw [synprotoDump_congr agree]
        | _ =>
            rw [synprotoParseAndReply, synprotoParseAndReply, type, kind]
  · rw [SelfContained, if_neg whole] at contained
    have short : pktBufSz.toNat < 8 := Nat.lt_of_not_le whole
    rw [synprotoParseAndReply_invalid (unknown_of_start short agree contained),
      synprotoParseAndReply_invalid (unknown_of_start short (fun _ _ => rfl) contained),
      synprotoDump_congr agree]

end Calls

/-! ## A shorter packet is not -/

section Differ

variable {host : Host} {pktBuf other first second : Nat → UInt8} {pktBufSz : UInt32} {s : Sys}

/-- An isolated packet has the same result in any two buffers that it starts. -/
theorem Isolated.same (isolated : Isolated host pktBuf pktBufSz s)
    (agreeFirst : ∀ i < pktBufSz.toNat, first i = pktBuf i)
    (agreeSecond : ∀ i < pktBufSz.toNat, second i = pktBuf i) :
    synprotoParseAndReply host first pktBufSz s = synprotoParseAndReply host second pktBufSz s :=
  (isolated first agreeFirst).trans (isolated second agreeSecond).symm

theorem event_injective (sockfd : Int) : Function.Injective (Output.event sockfd) := by
  intro first second same
  have read := congrArg Event.output? same
  rw [output?_event, output?_event] at read
  exact Option.some.inj read

/-- An isolated packet makes the same outputs whatever follows it. -/
theorem Isolated.outputs_eq (isolated : Isolated host pktBuf pktBufSz s)
    (agree : ∀ i < pktBufSz.toNat, other i = pktBuf i) :
    packetOutputs host s.config.clientNameMem (s.mouseX, s.mouseY) other pktBufSz =
      packetOutputs host s.config.clientNameMem (s.mouseX, s.mouseY) pktBuf pktBufSz := by
  have calls := congrArg (fun result : Int × Sys => result.2.calls) (isolated other agree)
  rw [(synprotoParseAndReply_reacts host other pktBufSz s).calls_eq,
    (synprotoParseAndReply_reacts host pktBuf pktBufSz s).calls_eq] at calls
  exact List.map_injective_iff.mpr (event_injective _) (List.append_cancel_left calls)

/-- The buffer with one byte changed. -/
def alter (pktBuf : Nat → UInt8) (i : Nat) (byte : UInt8) : Nat → UInt8 :=
  Function.update pktBuf i byte

theorem alter_agree {i n : Nat} (behind : n ≤ i) (byte : UInt8) :
    ∀ j < n, alter pktBuf i byte j = pktBuf j :=
  fun j below => Function.update_of_ne (by omega) _ _

theorem alter_ne (pktBuf : Nat → UInt8) (i : Nat) :
    alter pktBuf i (pktBuf i + 1) i ≠ pktBuf i := by
  rw [alter, Function.update_self]
  intro fixed
  simp at fixed

/-- With another low byte there is another 16-bit field. -/
theorem exval16_alter (pktBuf : Nat → UInt8) (off : Nat) :
    synprotoExval16 makefileBuild (alter pktBuf (off + 1) (pktBuf (off + 1) + 1)) off ≠
      synprotoExval16 makefileBuild pktBuf off := by
  intro same
  have value := congrArg UInt16.toNat same
  rw [toNat_synprotoExval16 makefileBuild_matched, toNat_synprotoExval16 makefileBuild_matched]
    at value
  have bytes := BigEndian.value_injective (by rw [length_window, length_window]) value
  exact alter_ne pktBuf (off + 1) (cell_of_window_eq bytes (i := 1) (by decide))

/-- Bytes are told apart by the value of a plain `char`, signed or not. -/
theorem charVal_emod (host : Host) (c : UInt8) : charVal host c % 256 = c.toNat := by
  rw [charVal]
  split
  · have signed : c.toInt8.toInt = (c.toNat : Int).bmod 256 := c.toBitVec.toInt_eq_toNat_bmod
    have bound := c.toNat_lt
    rw [signed, show (256 : Int) = ((256 : Nat) : Int) from rfl, Int.bmod_emod]
    omega
  · have bound := c.toNat_lt
    omega

theorem button_injective (host : Host) :
    Function.Injective fun c => UInt16.ofInt (charVal host c) := by
  intro first second same
  have value := congrArg UInt16.toNat same
  simp only [UInt16.ofInt, UInt16.toNat_ofNat'] at value
  have firstByte := charVal_emod host first
  have secondByte := charVal_emod host second
  exact UInt8.toNat_inj.mp (by omega)

/-- A known packet that is not for this clipboard is no protocol error. -/
theorem synprotoParseAndReply_handled {type : PktType}
    (kind : PktType.ofCode? (pktTypeCode pktBuf) = some type) (handled : type ≠ .ebad)
    (foreign : pktBuf 8 ≠ 0) : (synprotoParseAndReply host pktBuf pktBufSz s).1 = 0 := by
  rw [synprotoParseAndReply]
  simp only [kind]
  cases type with
  | ebad => exact absurd rfl handled
  | dclp =>
      have ignored : (synprotoExval8 pktBuf 8).toInt8 ≠ 0 := fun zero =>
        foreign ((toInt8_eq_iff (pktBuf 8) 0).mp zero)
      dsimp only
      rw [if_pos ignored]
  | _ => rfl

/-- A type field that ends in this byte is of no known type. -/
theorem unknown_of_last (last : pktBuf 7 = 0xff) :
    ∀ type, type ≠ .ebad → PktType.ofCode? (pktTypeCode pktBuf) ≠ some type := by
  intro type _ kind
  rw [ofCode?_pktTypeCode_iff] at kind
  have byte := getElem?_window pktBuf 4 (show 3 < 4 by decide)
  rw [kind, last] at byte
  cases type <;> exact absurd byte (by decide)

/-- A whole type field stays when a byte behind it changes. -/
theorem kind_alter {i : Nat} (behind : 8 ≤ i) (byte : UInt8) :
    PktType.ofCode? (pktTypeCode (alter pktBuf i byte)) = PktType.ofCode? (pktTypeCode pktBuf) := by
  rw [pktTypeCode_congr (alter_agree behind byte) (Nat.le_refl 8)]

/-- Changing a byte behind an isolated packet does not change its outputs. -/
theorem Isolated.outputs_alter (isolated : Isolated host pktBuf pktBufSz s) {i : Nat}
    (behind : pktBufSz.toNat ≤ i) :
    packetOutputs host s.config.clientNameMem (s.mouseX, s.mouseY)
        (alter pktBuf i (pktBuf i + 1)) pktBufSz =
      packetOutputs host s.config.clientNameMem (s.mouseX, s.mouseY) pktBuf pktBufSz :=
  isolated.outputs_eq (alter_agree behind _)

/-- The clipboard branch reads the id and the mark before it compares a length. -/
theorem dclp_marks_inside (isolated : Isolated host pktBuf pktBufSz s) (whole : 8 ≤ pktBufSz.toNat)
    (kind : PktType.ofCode? (pktTypeCode pktBuf) = some .dclp) :
    14 ≤ pktBufSz.toNat ∨ 9 ≤ pktBufSz.toNat ∧ pktBuf 8 ≠ 0 := by
  by_contra short
  have own : ∀ i < pktBufSz.toNat, alter pktBuf 8 0 i = pktBuf i := by
    intro i below
    by_cases atId : i = 8
    · have id : pktBuf 8 = 0 := by_contra fun foreign => short (.inr ⟨by omega, foreign⟩)
      rw [atId, id, alter, Function.update_self]
    · exact Function.update_of_ne atId _ _
  have marked (mark : UInt8) : ∀ i < pktBufSz.toNat, alter (alter pktBuf 8 0) 13 mark i = pktBuf i :=
    fun i below => (alter_agree (by omega) mark i below).trans (own i below)
  have kinds (mark : UInt8) :
      PktType.ofCode? (pktTypeCode (alter (alter pktBuf 8 0) 13 mark)) = some .dclp := by
    rw [kind_alter (by decide), kind_alter (Nat.le_refl 8), kind]
  have idAt (mark : UInt8) : alter (alter pktBuf 8 0) 13 mark 8 = 0 := by
    rw [alter, Function.update_of_ne (by decide), alter, Function.update_self]
  have markAt (mark : UInt8) : alter (alter pktBuf 8 0) 13 mark 13 = mark :=
    Function.update_self _ _ _
  have starts : dclpBufStart > pktBufSz.toNat := by
    have front : dclpBufStart = 30 := rfl
    omega
  have codes := congrArg Prod.fst (isolated.same (marked 0) (marked 2))
  simp only [synprotoParseAndReply, kinds, synprotoExval8, idAt, markAt, if_pos starts] at codes
  have ignored : (UInt8.toInt8 0 ≠ 2) := by decide
  have ours : ¬(UInt8.toInt8 0 ≠ 0) := by decide
  have marks : ¬(UInt8.toInt8 2 ≠ 2) := by decide
  rw [if_neg ours, if_neg ours, if_pos ignored, if_neg marks] at codes
  exact absurd codes (by decide : (0 : Int) ≠ minhopErrProtocol)

/-- The start of a known type field can be completed to that type or to none. -/
theorem not_isolated_of_start (short : pktBufSz.toNat < 8) {type : PktType} (handled : type ≠ .ebad)
    (start : window pktBuf 4 (pktBufSz.toNat - 4) = typePrefix type pktBufSz.toNat) :
    ¬Isolated host pktBuf pktBufSz s := by
  intro isolated
  have known : ∀ i < pktBufSz.toNat,
      alter (blit pktBuf 4 (BigEndian.encode 4 type.code.toNat)) 8 1 i = pktBuf i := by
    intro i below
    rw [alter_agree (by omega) 1 i below]
    by_cases field : i < 4
    · exact blit_before _ _ field
    · have written := window_blit pktBuf 4 (BigEndian.encode 4 type.code.toNat)
      rw [BigEndian.length_encode] at written
      have front := take_window (blit pktBuf 4 (BigEndian.encode 4 type.code.toNat)) 4
        (show pktBufSz.toNat - 4 ≤ 4 by omega)
      rw [written, ← typePrefix, ← start] at front
      have cell := cell_of_window_eq front.symm (i := i - 4) (by omega)
      rwa [show 4 + (i - 4) = i by omega] at cell
  have kind : PktType.ofCode? (pktTypeCode
      (alter (blit pktBuf 4 (BigEndian.encode 4 type.code.toNat)) 8 1)) = some type := by
    rw [kind_alter (Nat.le_refl 8), ofCode?_pktTypeCode_iff]
    exact window_blit _ _ _
  have foreign : alter (blit pktBuf 4 (BigEndian.encode 4 type.code.toNat)) 8 1 8 ≠ 0 := by
    rw [alter, Function.update_self]
    decide
  have unknown : alter pktBuf 7 0xff 7 = 0xff := Function.update_self _ _ _
  have codes := congrArg Prod.fst
    (isolated.same known (alter_agree (i := 7) (by omega) 0xff))
  rw [synprotoParseAndReply_handled kind handled foreign,
    synprotoParseAndReply_invalid (unknown_of_last unknown)] at codes
  exact absurd codes (by decide : (0 : Int) ≠ minhopErrProtocol)

theorem selfContained_of_isolated (isolated : Isolated host pktBuf pktBufSz s) :
    SelfContained pktBufSz.toNat pktBuf := by
  by_cases whole : 8 ≤ pktBufSz.toNat
  · rw [SelfContained, if_pos whole]
    cases kind : PktType.ofCode? (pktTypeCode pktBuf) with
    | none => trivial
    | some type =>
        cases type with
        | barr =>
            by_contra short
            have outputs := isolated.outputs_alter (i := 14) (by omega)
            simp only [packetOutputs, kind_alter (show 8 ≤ 14 by decide), kind,
              lengthPrefixed_helloPayload, List.cons.injEq, Output.reply.injEq,
              List.append_cancel_left_eq, and_true] at outputs
            have version := List.append_inj_left outputs (by rw [length_window, length_window])
            exact alter_ne pktBuf 14 (cell_of_window_eq version (i := 3) (by decide))
        | dmmv =>
            by_contra short
            have outputs := isolated.outputs_alter (i := 11) (by omega)
            simp only [packetOutputs, kind_alter (show 8 ≤ 11 by decide), kind, List.cons.injEq,
              Output.mouseMove.injEq] at outputs
            exact exval16_alter pktBuf 10 outputs.1.2
        | dmdn | dmup =>
            by_contra short
            have outputs := isolated.outputs_alter (i := 8) (by omega)
            simp only [packetOutputs, kind_alter (show 8 ≤ 8 by decide), kind, List.cons.injEq,
              Output.mouseDown.injEq, Output.mouseUp.injEq] at outputs
            exact alter_ne pktBuf 8 (button_injective host outputs.1.2.2)
        | dkdn | dkup | dkrp =>
            by_contra short
            have outputs := isolated.outputs_alter (i := 13) (by omega)
            simp only [packetOutputs, kind_alter (show 8 ≤ 13 by decide), kind, List.cons.injEq,
              Output.keyDown.injEq, Output.keyUp.injEq, Output.keyRpt.injEq] at outputs
            exact exval16_alter pktBuf 12 outputs.1.2.2
        | dclp => exact dclp_marks_inside isolated whole kind
        | _ => trivial
  · rw [SelfContained, if_neg whole]
    exact fun type handled start =>
      not_isolated_of_start (Nat.lt_of_not_le whole) handled start isolated

/-- Nothing behind a packet matters exactly if the packet is long enough for its type. -/
theorem isolated_iff (host : Host) (pktBuf : Nat → UInt8) (pktBufSz : UInt32) (s : Sys) :
    Isolated host pktBuf pktBufSz s ↔ SelfContained pktBufSz.toNat pktBuf :=
  ⟨selfContained_of_isolated, isolated_of_selfContained⟩

end Differ

/-- A mouse button packet of eight bytes. -/
def shortChunk : Chunk := ⟨[0, 0, 0, 4, 0x44, 0x4d, 0x44, 0x4e], by decide, by decide⟩

/-- The button that it presses is a byte behind it. -/
theorem isolated_not_always :
    ¬∀ (host : Host) (serverAddr clientName : Vector UInt8 64) (serverPort : Int)
      (input : IterInput) (stage : Stage) (s : Sys),
      Reach host anyStep (minputMainSetup serverAddr clientName serverPort) input stage s →
      Claimed s.config → Isolated host s.config.pktBuf.cells (pktClaimSz s.config) s := by
  intro always
  have claimed : Claimed (afterFetch unixHost (receives shortChunk)).2.config := by
    unfold Claimed
    decide +kernel
  have reach : Reach unixHost anyStep defaultSetup (receives shortChunk)
      (afterFetch unixHost (receives shortChunk)).1 (afterFetch unixHost (receives shortChunk)).2 :=
    .step (.step (.first _) trivial) trivial
  have outputs := (always _ _ _ _ _ _ _ reach claimed).outputs_alter (i := 8) (by decide +kernel)
  exact absurd outputs (by decide +kernel)

end MinputHop
