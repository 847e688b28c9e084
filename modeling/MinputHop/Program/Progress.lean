import Mathlib.Data.List.Forall2
import MinputHop.Program.Reassembly

/-!
# Progress of the packet loop

A call of `netio_process_packets` waits for the rest of a frame or takes at
least a header off the buffer, except where the announced length is so close to
`2 ^ 32` that adding the header wraps around.  Such a packet is taken without
being removed.
-/

namespace MinputHop

open FlatMemory Framing

/-! ## One call -/

/-- The announced size wraps around, and what is left of it is there. -/
def Replays (config : NetioCfg) : Prop :=
  config.pktBufSz ≠ 0 ∧ 2 ^ 32 ≤ announced config + 4 ∧
    announced config + 4 - 2 ^ 32 ≤ config.pktBufSz.toNat

instance (config : NetioCfg) : Decidable (Replays config) :=
  inferInstanceAs (Decidable (_ ∧ _ ∧ _))

/-- A claimed packet that does not wrap around has its announced size. -/
theorem toNat_pktClaimSz_of_claimed {config : NetioCfg} (claimed : Claimed config)
    (sound : ¬Replays config) : (pktClaimSz config).toNat = announced config + 4 := by
  have bound := announced_lt config
  have fits := claimed.le
  have claim := toNat_pktClaimSz config
  by_cases wraps : 2 ^ 32 ≤ announced config + 4
  · have rest : (announced config + 4) % 2 ^ 32 = announced config + 4 - 2 ^ 32 := by
      rw [Nat.mod_eq_sub_mod wraps, Nat.mod_eq_of_lt (by omega)]
    exact absurd ⟨claimed.1, wraps, by omega⟩ sound
  · rw [claim, Nat.mod_eq_of_lt (by omega)]

theorem claimed_iff (config : NetioCfg) :
    Claimed config ↔ config.pktBufSz ≠ 0 ∧
      (announced config + 4) % 2 ^ 32 ≤ config.pktBufSz.toNat := by
  rw [Claimed, UInt32.le_iff_toNat_le, toNat_pktClaimSz]

/-- A replayed packet is claimed with less than a header. -/
theorem Replays.claimed {config : NetioCfg} (replays : Replays config) :
    Claimed config ∧ (pktClaimSz config).toNat + 2 ^ 32 = announced config + 4 := by
  obtain ⟨some, wraps, rest⟩ := replays
  have bound := announced_lt config
  have claim : (announced config + 4) % 2 ^ 32 = announced config + 4 - 2 ^ 32 := by
    rw [Nat.mod_eq_sub_mod wraps, Nat.mod_eq_of_lt (by omega)]
  rw [claimed_iff, toNat_pktClaimSz, claim]
  exact ⟨⟨some, rest⟩, by omega⟩

/-- Where each packet of a connection starts among the bytes taken off the buffer. -/
def Conn.starts (conn : Conn) : List Nat :=
  Framing.starts 0 (conn.packets.map fun packet => packet.2.toNat)

/-- The side condition that no packet is replayed. -/
def replaysNothing (_ : IterInput) (stage : Stage) (s : Sys) : Prop :=
  ∀ pktProcIter, stage = .process pktProcIter → ¬Replays s.config

/-- The packets of a connection and `rest` more bytes are among the bytes
received, and each packet has a header. -/
structure Accounted (conn : Conn) (rest : Nat) : Prop where
  header : ∀ packet ∈ conn.packets, 4 ≤ packet.2.toNat
  total : (conn.packets.map fun packet => packet.2.toNat).sum + rest ≤ conn.received.length

namespace Accounted

variable {conn : Conn} {rest : Nat}

theorem opened : Accounted .opened 0 := ⟨fun _ member => absurd member List.not_mem_nil, Nat.le_refl 0⟩

theorem less (accounted : Accounted conn rest) {rest' : Nat} (fewer : rest' ≤ rest) :
    Accounted conn rest' :=
  ⟨accounted.header, Nat.le_trans (Nat.add_le_add_left fewer _) accounted.total⟩

theorem arrive (accounted : Accounted conn rest) (data : List UInt8) :
    Accounted (conn.arrive data) (rest + data.length) where
  header := accounted.header
  total := by
    change _ ≤ (conn.received ++ data).length
    rw [List.length_append, ← Nat.add_assoc]
    exact Nat.add_le_add_right accounted.total _

theorem take (accounted : Accounted conn rest) (pktBuf : Nat → UInt8) {pktBufSz : UInt32}
    (header : 4 ≤ pktBufSz.toNat) (fits : pktBufSz.toNat ≤ rest) (reply : List UInt8) :
    Accounted (conn.take pktBuf pktBufSz reply) (rest - pktBufSz.toNat) where
  header packet member := by
    rcases List.mem_append.mp member with member | member
    · exact accounted.header packet member
    · rw [List.mem_singleton.mp member]
      exact header
  total := by
    have total := accounted.total
    change ((conn.packets ++ [(pktBuf, pktBufSz)]).map _).sum + _ ≤ conn.received.length
    rw [List.map_append, List.sum_append, List.map_singleton, List.sum_singleton]
    dsimp only
    omega

theorem long (accounted : Accounted conn rest) :
    ∀ length ∈ conn.packets.map (fun packet => packet.2.toNat), 4 ≤ length := by
  intro length member
  obtain ⟨packet, packetMember, rfl⟩ := List.mem_map.mp member
  exact accounted.header packet packetMember

/-- At least four bytes were received for each packet. -/
theorem count (accounted : Accounted conn rest) :
    4 * conn.packets.length ≤ conn.received.length := by
  have least := length_mul_le_sum accounted.long
  have total := accounted.total
  rw [List.length_map] at least
  omega

/-- The packets start at different received bytes, each with its header. -/
theorem starts (accounted : Accounted conn rest) :
    conn.starts.Pairwise (· < ·) ∧ ∀ start ∈ conn.starts, start + 4 ≤ conn.received.length := by
  have total := accounted.total
  refine ⟨starts_increasing fun length member => ?_, fun start member => ?_⟩
  · have long := accounted.long length member
    omega
  · have bounds := starts_bounds accounted.long member
    omega

end Accounted

/-- Every connection is accounted for, the one in use with what is buffered. -/
def Counted (s : Sys) : Prop :=
  Ledger (fun conn => Accounted conn 0) (fun conn => Accounted conn s.config.pktBufSz.toNat) s

theorem Accounted.ended {conn : Conn} {rest : Nat} (accounted : Accounted conn rest) :
    Accounted conn.ended rest :=
  ⟨accounted.header, accounted.total⟩

/-- A fetch never makes more of the buffer than it received. -/
theorem toNat_fetchSum_le (s : Sys) (chunk : Chunk) :
    (fetchSum s chunk).toNat ≤ s.config.pktBufSz.toNat + chunk.bytes.length := by
  rw [toNat_fetchSum]
  exact Nat.mod_le _ _

theorem Step.counted {host : Host} {input : IterInput} {stage stage' : Stage} {s s' : Sys}
    (step : Step host input stage s stage' s') (admits : replaysNothing input stage s)
    (attached : Attached stage s) (inv : Counted s) : Counted s' := by
  cases step with
  | connected => exact inv
  | failed _ attempt follows =>
      exact inv.ended (fun _ => Accounted.ended) (follows.connections_failed attempt)
  | opened _ accepted event_eq follows =>
      refine inv.opened (fun _ => Accounted.ended) (follows.connections_opened accepted event_eq)
        Accounted.opened ?_
      rw [follows.config_eq]
      exact Accounted.opened
  | starved _ follows | waited _ follows | kept _ follows =>
      refine inv.unchanged follows.connections_eq fun conn accounted => ?_
      rw [follows.config_eq]
      exact accounted
  | @exhausted _ _ chunk _ _ _ follows =>
      obtain ⟨conn, older, live, current⟩ := attached
      have after := follows.connections_exhausted current
      have accounted := (inv.current conn older current live).arrive chunk.bytes
      refine inv.changed current after (accounted.less (Nat.zero_le _)) ?_
      rw [follows.config_eq]
      exact accounted.less (Nat.le_add_right _ _)
  | @filled _ _ chunk _ _ _ _ room follows =>
      obtain ⟨conn, older, live, current⟩ := attached
      have after := follows.connections_filled room current
      obtain ⟨header, total⟩ := (inv.current conn older current live).arrive chunk.bytes
      have accounted : Accounted ((conn.arrive chunk.bytes).append chunk.bytes)
          (s.config.pktBufSz.toNat + chunk.bytes.length) := ⟨header, total⟩
      refine inv.changed current after (accounted.less (Nat.zero_le _)) ?_
      rw [follows.config_eq]
      exact accounted.less (toNat_fetchSum_le s chunk)
  | took claimed _ dispatches | overran claimed _ dispatches =>
      obtain ⟨conn, older, live, current⟩ := attached
      have sound := admits _ rfl
      have claim := toNat_pktClaimSz_of_claimed claimed sound
      have header : 4 ≤ (pktClaimSz s.config).toNat := by omega
      have accounted := (inv.current conn older current live).take s.config.pktBuf.cells header
        claimed.le
        (sentBytes (packetOutputs host s.config.clientNameMem (s.mouseX, s.mouseY)
          s.config.pktBuf.cells (pktClaimSz s.config)))
      refine inv.changed current (dispatches.connections_eq current)
        (accounted.less (Nat.zero_le _)) ?_
      rw [dispatches.config_eq]
      dsimp only
      rw [claimed.toNat_left]
      exact accounted
  | dropped _ _ follows => exact inv.ended (fun _ => Accounted.ended) follows.connections_eq
  | rested => exact inv

section Runs

variable {host : Host} {Admits : IterInput → Stage → Sys → Prop}
  {serverAddr clientName : Vector UInt8 64} {serverPort : Int} {input : IterInput}
  {stage : Stage} {s : Sys}

theorem Reach.counted
    (reach : Reach host replaysNothing (minputMainSetup serverAddr clientName serverPort)
      input stage s) : Counted s :=
  Reach.induction (fun _ s => Counted s) (.empty rfl)
    (fun reach admits step inv => step.counted admits (Reach.attached reach) inv) id reach

end Runs

/-! ### Runs with and without a replayed packet -/

instance (input : IterInput) (stage : Stage) (s : Sys) : Decidable (replaysNothing input stage s) :=
  match stage with
  | .process _ =>
      decidable_of_iff (¬Replays s.config) ⟨fun sound _ _ => sound, fun sound => sound _ rfl⟩
  | .connect | .fetch | .keepalive _ | .returned _ => isTrue fun _ other => Stage.noConfusion other

end MinputHop
