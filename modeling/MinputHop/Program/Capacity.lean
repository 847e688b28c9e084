import MinputHop.Program.Steps

/-!
# The size of the packet buffer

The three sizes that `netio.c` keeps apart: the bytes really allocated, the
recorded `pkt_buf_sz_max`, and the bytes in use.  They stay in order as long as
the sums in `netio_fetch_packets` fit in their types.  Then the loop that moves
the rest of the buffer down never leaves it, and nothing the server sends can
stop the client.
-/

namespace MinputHop

open FlatMemory

/-! ## The invariant -/

/-- What the three sizes satisfy. -/
structure Capacity (config : NetioCfg) : Prop where
  allocated : config.pktBufSzMax.toNat ≤ config.pktBuf.size
  held : config.pktBufSz.toNat ≤ config.pktBufSzMax.toNat
  atLeast : sockbufSz ≤ config.pktBufSzMax.toNat
  bounded : config.pktBuf.size < 2 ^ 32

/-- Every copy among these calls stays inside the allocation. -/
def CopiesInBounds (calls : List Event) : Prop :=
  ∀ time off data size, Event.memcpy time off data size ∈ calls → off + data.length ≤ size

/-- The sums of a fetch fit in their types, or nothing comes of it; but `realloc()` is
not asked for a size that wraps to 0, which frees the block. -/
def FetchFits (host : Host) (input : IterInput) (s : Sys) : Prop :=
  ∀ chunk, input.recv = some chunk →
    (UInt32.ofNat sockbufSz ≤ fetchSum s chunk ∧ input.realloc = none ∧
      reallocSize host s chunk ≠ 0) ∨
    (s.config.pktBufSz.toNat + chunk.bytes.length + 100 < 2 ^ 32 ∧
      s.config.pktBufSz.toNat + chunk.bytes.length + 100 < 2 ^ host.sizeTBits)

/-- The side condition that every fetch fits. -/
def fetchesFit (host : Host) (input : IterInput) (stage : Stage) (s : Sys) : Prop :=
  stage = .fetch → FetchFits host input s

instance (host : Host) (input : IterInput) (s : Sys) : Decidable (FetchFits host input s) :=
  inferInstanceAs (Decidable (∀ chunk ∈ input.recv, _ ∨ _ ∧ _))

instance (host : Host) (input : IterInput) (stage : Stage) (s : Sys) :
    Decidable (fetchesFit host input stage s) :=
  inferInstanceAs (Decidable (_ → FetchFits host input s))

def Event.copyFits : Event → Bool
  | .memcpy _ off data size => off + data.length ≤ size
  | _ => true

theorem copiesInBounds_iff_all (calls : List Event) :
    calls.all Event.copyFits = true ↔ CopiesInBounds calls := by
  rw [List.all_eq_true]
  constructor
  · intro all time off data size member
    exact of_decide_eq_true (all _ member)
  · intro inBounds e member
    cases e with
    | memcpy time off data size => exact decide_eq_true (inBounds time off data size member)
    | _ => rfl

instance (calls : List Event) : Decidable (CopiesInBounds calls) :=
  decidable_of_iff _ (copiesInBounds_iff_all calls)

section Fetch

variable {host : Host} {input : IterInput} {s : Sys} {chunk : Chunk} {block : Block UInt8}
  {szMax : UInt32} {calls : List Event}

theorem toNat_sockbufSz : (UInt32.ofNat sockbufSz).toNat = sockbufSz := rfl

theorem toNat_fetchSum (s : Sys) (chunk : Chunk) :
    (fetchSum s chunk).toNat = (s.config.pktBufSz.toNat + chunk.bytes.length) % 2 ^ 32 := by
  have short := chunk.fits
  rw [sockbufSz] at short
  rw [fetchSum, UInt32.toNat_add, UInt32.toNat_ofNat', Nat.mod_eq_of_lt (a := chunk.bytes.length)
    (by omega)]

theorem toNat_fetchSum_add (s : Sys) (chunk : Chunk) :
    (fetchSum s chunk + 100).toNat =
      (s.config.pktBufSz.toNat + chunk.bytes.length + 100) % 2 ^ 32 := by
  rw [UInt32.toNat_add, toNat_fetchSum, show (100 : UInt32).toNat = 100 from rfl, Nat.mod_add_mod]

/-- A fetch that fits finds enough room. -/
theorem Room.enough (room : Room host input s chunk block szMax calls)
    (capacity : Capacity s.config)
    (fits : s.config.pktBufSz.toNat + chunk.bytes.length + 100 < 2 ^ 32)
    (argument : s.config.pktBufSz.toNat + chunk.bytes.length + 100 < 2 ^ host.sizeTBits) :
    szMax.toNat ≤ block.size ∧ sockbufSz ≤ szMax.toNat ∧ block.size < 2 ^ 32 ∧
      s.config.pktBufSz.toNat + chunk.bytes.length ≤ szMax.toNat := by
  have sum := toNat_fetchSum s chunk
  rw [Nat.mod_eq_of_lt (by omega)] at sum
  have sum100 := toNat_fetchSum_add s chunk
  rw [Nat.mod_eq_of_lt fits] at sum100
  cases room with
  | kept small =>
      rw [UInt32.not_le, UInt32.lt_iff_toNat_lt, toNat_sockbufSz, sum] at small
      have atLeast := capacity.atLeast
      exact ⟨capacity.allocated, atLeast, capacity.bounded, by omega⟩
  | grown full granted =>
      rw [UInt32.le_iff_toNat_le, toNat_sockbufSz, sum] at full
      have size : reallocSize host s chunk = s.config.pktBufSz.toNat + chunk.bytes.length + 100 := by
        rw [reallocSize, sum100, Nat.mod_eq_of_lt argument]
      rw [Block.resize, size, sum100]
      exact ⟨Nat.le_refl _, by omega, fits, by omega⟩

/-- Room was found only by a fetch that did not fail. -/
theorem FetchFits.of_room (fetchFits : FetchFits host input s)
    (received : input.recv = some chunk) (room : Room host input s chunk block szMax calls) :
    s.config.pktBufSz.toNat + chunk.bytes.length + 100 < 2 ^ 32 ∧
      s.config.pktBufSz.toNat + chunk.bytes.length + 100 < 2 ^ host.sizeTBits := by
  rcases fetchFits chunk received with ⟨full, refused, _⟩ | fits
  · cases room with
    | kept small => exact absurd full small
    | grown _ granted => exact absurd (refused.symm.trans granted) nofun
  · exact fits

/-- A size that fits is not 0. -/
theorem reallocSize_ne_zero {host : Host} {s : Sys} {chunk : Chunk}
    (fits : s.config.pktBufSz.toNat + chunk.bytes.length + 100 < 2 ^ 32)
    (argument : s.config.pktBufSz.toNat + chunk.bytes.length + 100 < 2 ^ host.sizeTBits) :
    reallocSize host s chunk ≠ 0 := by
  rw [reallocSize, toNat_fetchSum_add, Nat.mod_eq_of_lt fits, Nat.mod_eq_of_lt argument]
  exact Nat.succ_ne_zero _

/-- In a fetch that fits, no size wraps to 0. -/
theorem FetchFits.ne_zero (fetchFits : FetchFits host input s)
    (received : input.recv = some chunk) : reallocSize host s chunk ≠ 0 := by
  rcases fetchFits chunk received with ⟨_, _, some⟩ | ⟨fits, argument⟩
  · exact some
  · exact reallocSize_ne_zero fits argument

theorem Room.capacity_appended (room : Room host input s chunk block szMax calls)
    (capacity : Capacity s.config)
    (fits : s.config.pktBufSz.toNat + chunk.bytes.length + 100 < 2 ^ 32)
    (argument : s.config.pktBufSz.toNat + chunk.bytes.length + 100 < 2 ^ host.sizeTBits) :
    Capacity (appended s chunk block szMax) := by
  obtain ⟨allocated, atLeast, bounded, held⟩ := room.enough capacity fits argument
  refine ⟨allocated, ?_, atLeast, bounded⟩
  change (fetchSum s chunk).toNat ≤ szMax.toNat
  rw [toNat_fetchSum, Nat.mod_eq_of_lt (by omega)]
  exact held

/-- A block that is large enough for its record and for the data fits both types. -/
theorem Room.fits (room : Room host input s chunk block szMax calls)
    (wide : 16 ≤ host.sizeTBits) (capacity : Capacity s.config)
    (allocated : szMax.toNat ≤ block.size)
    (inside : s.config.pktBufSz.toNat + chunk.bytes.length ≤ block.size) :
    s.config.pktBufSz.toNat + chunk.bytes.length + 100 < 2 ^ 32 ∧
      s.config.pktBufSz.toNat + chunk.bytes.length + 100 < 2 ^ host.sizeTBits := by
  have sum := toNat_fetchSum s chunk
  have sum100 := toNat_fetchSum_add s chunk
  have wider : 2 ^ 16 ≤ 2 ^ host.sizeTBits := Nat.pow_le_pow_right (by decide) wide
  cases room with
  | kept small =>
      have bounded := capacity.bounded
      rw [UInt32.not_le, UInt32.lt_iff_toNat_lt, toNat_sockbufSz, sum, Nat.mod_eq_of_lt (by omega),
        sockbufSz] at small
      omega
  | grown full granted =>
      have size : reallocSize host s chunk ≤ (fetchSum s chunk + 100).toNat := Nat.mod_le _ _
      have bound := (fetchSum s chunk + 100).toNat_lt
      rw [Block.resize] at allocated inside
      dsimp only at allocated inside
      have fits : s.config.pktBufSz.toNat + chunk.bytes.length + 100 < 2 ^ 32 := by omega
      rw [Nat.mod_eq_of_lt fits] at sum100
      refine ⟨fits, ?_⟩
      -- A remainder reaches the number itself only below the modulus.
      rw [sum100, reallocSize, sum100] at allocated
      exact Nat.lt_of_le_of_lt allocated (Nat.mod_lt _ (Nat.two_pow_pos _))

/-- A block that the data was copied into is as large as its record says. -/
theorem Room.allocated_of_inside (room : Room host input s chunk block szMax calls)
    (wide : 16 ≤ host.sizeTBits) (capacity : Capacity s.config)
    (inside : s.config.pktBufSz.toNat + chunk.bytes.length ≤ block.size) :
    szMax.toNat ≤ block.size := by
  cases room with
  | kept => exact capacity.allocated
  | grown full granted =>
      have sum100 := toNat_fetchSum_add s chunk
      have wider : 2 ^ 16 ≤ 2 ^ host.sizeTBits := Nat.pow_le_pow_right (by decide) wide
      have bound := s.config.pktBufSz.toNat_lt
      have short := chunk.fits
      rw [sockbufSz] at short
      rw [Block.resize, reallocSize] at inside ⊢
      dsimp only at inside ⊢
      -- Where either modulus took something off, less is left than was copied.
      have reduced := Nat.div_add_mod (fetchSum s chunk + 100).toNat (2 ^ host.sizeTBits)
      have whole : (fetchSum s chunk + 100).toNat / 2 ^ host.sizeTBits = 0 := by
        by_contra some
        have much := Nat.mul_le_mul_left (2 ^ host.sizeTBits) (Nat.pos_of_ne_zero some)
        rw [Nat.succ_eq_add_one, Nat.zero_add, Nat.mul_one] at much
        omega
      rw [whole, Nat.mul_zero, Nat.zero_add] at reduced
      exact reduced.ge

end Fetch

/-- Below the recorded size the loop is the plain move, `j` steps of which are done. -/
theorem shiftPktBuf_eq_copyDown {claimSz szMax j : UInt32} {count : Nat}
    (within : j.toNat + count + claimSz.toNat ≤ szMax.toNat) (cells : Nat → UInt8) :
    shiftPktBuf claimSz szMax count j (copyDown claimSz.toNat j.toNat cells) =
      (true, copyDown claimSz.toNat (j.toNat + count) cells) := by
  induction count generalizing j with
  | zero => rfl
  | succ count ih =>
      have bound := szMax.toNat_lt
      have source : (j + claimSz).toNat = j.toNat + claimSz.toNat := by
        rw [UInt32.toNat_add, Nat.mod_eq_of_lt (by omega)]
      have next : (j + 1).toNat = j.toNat + 1 := by
        rw [UInt32.toNat_add, show (1 : UInt32).toNat = 1 from rfl, Nat.mod_eq_of_lt (by omega)]
      have inside : ¬szMax ≤ j + claimSz := by
        rw [UInt32.not_le, UInt32.lt_iff_toNat_lt, source]
        omega
      have later := ih (j := j + 1) (by omega)
      rw [next, copyDown, ← source] at later
      rw [shiftPktBuf, if_neg inside, later, Nat.add_right_comm, Nat.add_assoc]

section Claimed

variable {config : NetioCfg}

theorem Claimed.le (claimed : Claimed config) :
    (pktClaimSz config).toNat ≤ config.pktBufSz.toNat :=
  UInt32.le_iff_toNat_le.mp claimed.2

theorem Claimed.toNat_left (claimed : Claimed config) :
    (config.pktBufSz - pktClaimSz config).toNat =
      config.pktBufSz.toNat - (pktClaimSz config).toNat :=
  UInt32.toNat_sub_of_le _ _ claimed.2

/-- With the sizes in order, the whole rest of the buffer is moved down. -/
theorem Capacity.shifted_eq (capacity : Capacity config) (claimed : Claimed config) :
    shifted config = (true, copyDown (pktClaimSz config).toNat
      (config.pktBufSz.toNat - (pktClaimSz config).toNat) config.pktBuf.cells) := by
  have fits := claimed.le
  have held := capacity.held
  have within : (0 : UInt32).toNat + (config.pktBufSz.toNat - (pktClaimSz config).toNat) +
      (pktClaimSz config).toNat ≤ config.pktBufSzMax.toNat := by
    rw [UInt32.toNat_zero]
    omega
  have moved := shiftPktBuf_eq_copyDown within config.pktBuf.cells
  rw [UInt32.toNat_zero, Nat.zero_add] at moved
  rw [shifted, claimed.toNat_left]
  exact moved

end Claimed

/-! ## Every step keeps the sizes in order -/

theorem capacity_setup (serverAddr clientName : Vector UInt8 64) (serverPort : Int) :
    Capacity (minputMainSetup serverAddr clientName serverPort).config where
  allocated := Nat.le_refl _
  held := Nat.zero_le _
  atLeast := Nat.le_refl _
  bounded := (by decide : sockbufSz < 2 ^ 32)

theorem Dispatches.capacity {host : Host} {s s' : Sys} (dispatches : Dispatches host s s')
    (claimed : Claimed s.config) (capacity : Capacity s.config) : Capacity s'.config := by
  rw [dispatches.config_eq]
  refine ⟨capacity.allocated, ?_, capacity.atLeast, capacity.bounded⟩
  dsimp only
  rw [claimed.toNat_left]
  exact Nat.le_trans (Nat.sub_le _ _) capacity.held

/-- An empty buffer fits in any block. -/
theorem Capacity.emptied {config : NetioCfg} (capacity : Capacity config) (socketFd : Int)
    (calvDeadline : UInt32) :
    Capacity { config with
      pktBufSz := 0
      socketFd := socketFd
      calvDeadline := calvDeadline } :=
  ⟨capacity.allocated, Nat.zero_le _, capacity.atLeast, capacity.bounded⟩

theorem Step.capacity {host : Host} {input : IterInput} {stage stage' : Stage} {s s' : Sys}
    (step : Step host input stage s stage' s') (admits : fetchesFit host input stage s)
    (capacity : Capacity s.config) : Capacity s'.config := by
  cases step with
  | connected => exact capacity
  | failed _ _ follows => exact follows.config_eq ▸ capacity.emptied _ _
  | opened _ _ _ follows => exact follows.config_eq ▸ capacity.emptied _ _
  | starved _ follows => exact follows.config_eq ▸ capacity
  | exhausted received _ _ follows =>
      rw [follows.config_eq, afterRefusal_of_ne_zero ((admits rfl).ne_zero received)]
      exact capacity
  | filled received room follows =>
      obtain ⟨fits, argument⟩ := (admits rfl).of_room received room
      exact follows.config_eq ▸ room.capacity_appended capacity fits argument
  | waited _ follows => exact follows.config_eq ▸ capacity
  | took claimed _ dispatches => exact dispatches.capacity claimed capacity
  | overran claimed _ dispatches => exact dispatches.capacity claimed capacity
  | dropped _ _ follows => exact follows.config_eq ▸ capacity.emptied _ _
  | kept _ follows => exact follows.config_eq ▸ capacity
  | rested => exact capacity

theorem copiesInBounds_append {first second : List Event} :
    CopiesInBounds (first ++ second) ↔ CopiesInBounds first ∧ CopiesInBounds second := by
  constructor
  · intro all
    exact ⟨fun time off data size member => all time off data size (List.mem_append_left _ member),
      fun time off data size member => all time off data size (List.mem_append_right _ member)⟩
  · rintro ⟨before, after⟩ time off data size member
    rcases List.mem_append.mp member with member | member
    · exact before time off data size member
    · exact after time off data size member

/-- Calls without a copy are in bounds. -/
theorem copiesInBounds_of_none {calls : List Event}
    (none : ∀ time off data size, Event.memcpy time off data size ∉ calls) :
    CopiesInBounds calls :=
  fun time off data size member => absurd member (none time off data size)

theorem FailedConnect.copiesInBounds {calls : List Event} (attempt : FailedConnect calls) :
    CopiesInBounds (.invalidate :: calls) := by
  cases attempt <;> exact copiesInBounds_of_none (by simp)

theorem Room.calls_eq {host : Host} {input : IterInput} {s : Sys} {chunk : Chunk}
    {block : Block UInt8} {szMax : UInt32} {calls : List Event}
    (room : Room host input s chunk block szMax calls) :
    calls = [] ∨ ∃ size, calls = [.realloc size true] := by
  cases room with
  | kept => exact .inl rfl
  | grown => exact .inr ⟨_, rfl⟩

/-- Among the calls of a fetch, the copy alone counts. -/
theorem Room.copiesInBounds_iff {host : Host} {input : IterInput} {s : Sys} {chunk : Chunk}
    {block : Block UInt8} {szMax : UInt32} {calls : List Event}
    (room : Room host input s chunk block szMax calls) (time off : Nat) (fd : Int) :
    CopiesInBounds (.recv time fd (some chunk.bytes) ::
        (calls ++ [.memcpy time off chunk.bytes block.size])) ↔
      off + chunk.bytes.length ≤ block.size := by
  constructor
  · intro all
    exact all time off chunk.bytes block.size (by simp)
  · intro inside time' off' data size member
    have copy : Event.memcpy time' off' data size = .memcpy time off chunk.bytes block.size := by
      rcases room.calls_eq with rfl | ⟨_, rfl⟩ <;> simpa using member
    cases copy
    exact inside

theorem copiesInBounds_outputs (sockfd : Int) (time : Nat) (pktBuf : Nat → UInt8)
    (pktBufSz : UInt32) (outputs : List Output) :
    CopiesInBounds (.dispatch time pktBuf pktBufSz :: outputs.map (Output.event sockfd)) := by
  apply copiesInBounds_of_none
  intro time off data size member
  rcases List.mem_cons.mp member with here | member
  · cases here
  · obtain ⟨output, _, same⟩ := List.mem_map.mp member
    cases output <;> cases same

theorem Step.copiesInBounds {host : Host} {input : IterInput} {stage stage' : Stage} {s s' : Sys}
    (step : Step host input stage s stage' s') (admits : fetchesFit host input stage s)
    (capacity : Capacity s.config) (inBounds : CopiesInBounds s.calls) :
    CopiesInBounds s'.calls := by
  cases step with
  | connected => exact inBounds
  | failed _ attempt follows =>
      rw [follows.calls_eq]
      exact copiesInBounds_append.mpr ⟨inBounds, attempt.copiesInBounds⟩
  | opened _ _ event_eq follows =>
      rw [follows.calls_eq, event_eq]
      exact copiesInBounds_append.mpr
        ⟨inBounds, copiesInBounds_of_none (by simp [connectEvent])⟩
  | filled received room follows =>
      obtain ⟨fits, argument⟩ := (admits rfl).of_room received room
      obtain ⟨allocated, _, _, held⟩ := room.enough capacity fits argument
      rw [follows.calls_eq]
      exact copiesInBounds_append.mpr
        ⟨inBounds, (room.copiesInBounds_iff _ _ _).mpr (Nat.le_trans held allocated)⟩
  | starved _ follows | exhausted _ _ _ follows | waited _ follows | dropped _ _ follows
  | kept _ follows =>
      rw [follows.calls_eq]
      exact copiesInBounds_append.mpr ⟨inBounds, copiesInBounds_of_none (by simp)⟩
  | took _ _ dispatches | overran _ _ dispatches =>
      rw [dispatches.calls_eq]
      exact copiesInBounds_append.mpr ⟨inBounds, copiesInBounds_outputs _ _ _ _ _⟩
  | rested => exact inBounds

/-! ## Runs -/

section Runs

variable {host : Host} {Admits : IterInput → Stage → Sys → Prop}
  {serverAddr clientName : Vector UInt8 64} {serverPort : Int} {input : IterInput}
  {stage : Stage} {s : Sys}

theorem Reach.capacity (weaker : ∀ input stage s, Admits input stage s →
      fetchesFit host input stage s)
    (reach : Reach host Admits (minputMainSetup serverAddr clientName serverPort) input stage s) :
    Capacity s.config :=
  Reach.induction (fun _ s => Capacity s.config) (capacity_setup _ _ _)
    (fun _ admits step capacity => step.capacity (weaker _ _ _ admits) capacity) id reach

theorem Reach.copiesInBounds (weaker : ∀ input stage s, Admits input stage s →
      fetchesFit host input stage s)
    (reach : Reach host Admits (minputMainSetup serverAddr clientName serverPort) input stage s) :
    CopiesInBounds s.calls :=
  Reach.induction (fun _ s => CopiesInBounds s.calls)
    (copiesInBounds_of_none (by simp [minputMainSetup, Sys.calls]))
    (fun reach admits step inBounds =>
      step.copiesInBounds (weaker _ _ _ admits) (Reach.capacity weaker reach) inBounds) id reach

/-- A fetch whose copies stayed inside the block was one that fits, unless it ended
with `realloc()`. -/
theorem FetchFits.of_defined (wide : 16 ≤ host.sizeTBits) (capacity : Capacity s.config)
    (defined : CopiesInBounds (netioFetchPackets host input s).2.calls)
    (granted : (netioFetchPackets host input s).1 ≠ minhopErrAlloc) :
    FetchFits host input s := by
  intro chunk received
  rcases netioFetchPackets_cases host input s with ⟨nothing, _⟩ | ⟨_, _, _, _, s', called, _⟩ |
    ⟨other, block, szMax, calls, received', room, s', called, follows⟩
  · exact absurd (nothing.symm.trans received) nofun
  · rw [called] at granted
    exact absurd rfl granted
  · obtain rfl := Option.some.inj (received'.symm.trans received)
    rw [called, follows.calls_eq] at defined
    have inside := (room.copiesInBounds_iff _ _ _).mp (copiesInBounds_append.mp defined).2
    exact .inr (room.fits wide capacity (room.allocated_of_inside wide capacity inside) inside)

/-- A run without undefined behaviour, in which no copy left its block, is one whose
fetches fit, up to a `realloc()` that ends it. -/
theorem Reach.defined_cases (wide : 16 ≤ host.sizeTBits)
    (reach : Reach host Admits (minputMainSetup serverAddr clientName serverPort) input stage s)
    (defined : CopiesInBounds s.calls) :
    Reach host (fetchesFit host) (minputMainSetup serverAddr clientName serverPort) input stage
        s ∨
      stage = .returned minhopErrAlloc ∧ ∃ before chunk,
        Reach host (fetchesFit host) (minputMainSetup serverAddr clientName serverPort) input
          .fetch before ∧
        Follows before s (afterRefusal host before chunk) 1
          [.recv (host.clock before.ticks) before.config.socketFd (some chunk.bytes),
            .realloc (reallocSize host before chunk) false] := by
  induction reach with
  | first input => exact .inl (.first input)
  | @step input stage s reach _ ih =>
      obtain ⟨later, extended⟩ := (stageStep_step host input stage s).calls_start
      rcases ih (copiesInBounds_append.mp (extended ▸ defined)).1 with fits | ⟨rfl, ended⟩
      · cases stage with
        | fetch =>
            rcases netioFetchPackets_cases host input s with ⟨nothing, _⟩ |
              ⟨chunk, _, _, _, s', called, follows⟩ | ⟨_, _, _, _, _, _, s', called, _⟩
            · exact .inl (.step fits fun _ chunk received =>
                absurd (nothing.symm.trans received) (Option.some_ne_none _).symm)
            · have stepped : stageStep host input .fetch s = (.returned minhopErrAlloc, s') := by
                rw [stageStep, called]
                rfl
              exact .inr ⟨congrArg Prod.fst stepped, s, chunk, fits,
                congrArg Prod.snd stepped ▸ follows⟩
            · refine .inl (.step fits fun _ => .of_defined wide
                (Reach.capacity (fun _ _ _ => id) fits) defined ?_)
              rw [called]
              exact (by decide : (0 : Int) ≠ minhopErrAlloc)
        | connect | process | keepalive | returned =>
            exact .inl (.step fits fun same => Stage.noConfusion same)
      · exact .inr ⟨rfl, ended⟩
  | next fresh _ ih =>
      rcases ih defined with fits | ⟨failed, _⟩
      · exact .inl (.next fresh fits)
      · exact absurd (Stage.returned.inj failed) (by decide)

theorem Reach.fetchesFit_of_defined (wide : 16 ≤ host.sizeTBits)
    (reach : Reach host Admits (minputMainSetup serverAddr clientName serverPort) input stage s)
    (defined : CopiesInBounds s.calls) (granted : stage ≠ .returned minhopErrAlloc) :
    Reach host (fetchesFit host) (minputMainSetup serverAddr clientName serverPort) input stage
      s := by
  rcases Reach.defined_cases wide reach defined with fits | ⟨failed, _⟩
  · exact fits
  · exact absurd failed granted

end Runs

/-- A Unix machine with a 64-bit `size_t`, whose clock stands still, and which knows one
address. -/
def unixHost : Host where
  sizeTBits := 64
  charSigned := true
  screenW := 640
  screenH := 480
  inetAddr := fun text => if text = ascii "10.0.0.1" then 0x0100000a else 0xffffffff
  clock := fun _ => 0

/-- A short string, padded with NULs as `strncpy()` does. -/
def padded (text : String) : Vector UInt8 64 := Vector.ofFn fun i => (ascii text).getD i 0

def defaultAddr : Vector UInt8 64 := padded "10.0.0.1"

def defaultName : Vector UInt8 64 := padded "pc"

/-- A machine whose clock goes on two seconds between two looks at it. -/
def tickingHost : Host := { unixHost with clock := fun tick => 2000 * tick }

/-- `minput_main` behind `minhop pc 10.0.0.1`. -/
def defaultSetup : Sys := minputMainSetup defaultAddr defaultName 24800

/-- An iteration that connects when it has to and then receives this chunk. -/
def receives (chunk : Chunk) : IterInput := ⟨3, 0, some chunk, some fun _ => 0⟩

/-- An iteration that connects when it has to and receives nothing. -/
def receivesNothing : IterInput := ⟨3, 0, none, none⟩

/-- A full `recv()` of a frame too large to be complete soon. -/
def fullChunk : Chunk where
  bytes := List.replicate 2048 0x41
  nonempty := by rw [List.length_replicate]; decide
  fits := by rw [List.length_replicate]; decide

/-- A keepalive, as the server sends it. -/
def calvChunk : Chunk := ⟨[0, 0, 0, 4, 0x43, 0x41, 0x4c, 0x56], by decide, by decide⟩

/-- One connection is made and one chunk fetched. -/
def afterFetch (host : Host) (input : IterInput) : Stage × Sys :=
  let opened := stageStep host input .connect defaultSetup
  stageStep host input opened.1 opened.2

/-- The same answers from outside, but `realloc()` gives nothing. -/
def refuses (chunk : Chunk) : IterInput := { receives chunk with realloc := none }

/-- The side condition that the sums of a fetch stay in `uint32_t`. -/
def inRange (input : IterInput) (stage : Stage) (s : Sys) : Prop :=
  stage = .fetch → ∀ chunk, input.recv = some chunk →
    s.config.pktBufSz.toNat + chunk.bytes.length + 100 < 2 ^ 32

instance (input : IterInput) (stage : Stage) (s : Sys) : Decidable (inRange input stage s) :=
  decidable_of_iff (stage ≠ .fetch ∨
      ∀ chunk ∈ input.recv, s.config.pktBufSz.toNat + chunk.bytes.length + 100 < 2 ^ 32)
    Decidable.imp_iff_not_or.symm

/-- In range, every fetch fits where `size_t` has 32 bits. -/
theorem fetchesFit_of_inRange {host : Host} (wide : 32 ≤ host.sizeTBits) (input : IterInput)
    (stage : Stage) (s : Sys) (within : inRange input stage s) : fetchesFit host input stage s := by
  intro atFetch chunk received
  have fits := within atFetch chunk received
  exact .inr ⟨fits, Nat.lt_of_lt_of_le fits (Nat.pow_le_pow_right (by decide) wide)⟩

/-- What an iteration can end with, stage by stage. -/
def EndsWith (input : IterInput) : Stage → Prop
  | .keepalive retval => retval = 0
  | .returned retval => retval = 0 ∨ retval = minhopErrOverflow ∨
      retval = minhopErrAlloc ∧ input.realloc = none
  | _ => True

theorem afterPacket_endsWith (input : IterInput) (pktProcIter : Nat) (s : Sys) :
    EndsWith input (afterPacket pktProcIter s) := by
  rw [afterPacket]
  split <;> trivial

theorem Step.endsWith {host : Host} {input : IterInput} {stage stage' : Stage} {s s' : Sys}
    (step : Step host input stage s stage' s') (ends : EndsWith input stage) :
    EndsWith input stage' := by
  cases step with
  | connected | opened | starved | filled => trivial
  | failed => exact .inl rfl
  | exhausted _ _ refused => exact .inr (.inr ⟨rfl, refused⟩)
  | waited | took => exact afterPacket_endsWith _ _ _
  | overran => exact .inr (.inl rfl)
  | dropped | kept => exact .inl ends
  | rested => exact ends

section InRange

variable {host : Host} {serverAddr clientName : Vector UInt8 64} {serverPort : Int}
  {input : IterInput} {stage : Stage} {s : Sys}

theorem Reach.endsWith {Admits : IterInput → Stage → Sys → Prop} {start : Sys}
    (reach : Reach host Admits start input stage s) : EndsWith input stage := by
  induction reach with
  | first => trivial
  | step _ _ ih => exact (stageStep_step host _ _ _).endsWith ih
  | next => trivial

/-- No iteration of a run in range ends with an overflow. -/
theorem Reach.not_overflow (wide : 32 ≤ host.sizeTBits)
    (reach : Reach host inRange (minputMainSetup serverAddr clientName serverPort) input stage s) :
    stage ≠ .returned minhopErrOverflow := by
  have notZero : (0 : Int) ≠ minhopErrOverflow := by decide
  refine Reach.induction (fun stage _ => stage ≠ .returned minhopErrOverflow) (by decide) ?_
    (fun _ => by decide) reach
  intro input stage s stage' s' reach admits step ih
  cases step with
  | connected | opened | starved | filled =>
      intro same
      cases same
  | failed => exact fun same => notZero (Stage.returned.inj same)
  | exhausted => exact fun same => absurd (Stage.returned.inj same) (by decide)
  | waited | took =>
      rw [afterPacket]
      split <;> intro same <;> cases same
  | overran claimed stuck =>
      have capacity := Reach.capacity (fetchesFit_of_inRange wide) reach
      rw [capacity.shifted_eq claimed] at stuck
      exact absurd stuck.symm Bool.false_ne_true
  | dropped | kept =>
      have zero := Reach.endsWith reach
      exact fun same => notZero (zero.symm.trans (Stage.returned.inj same))
  | rested => exact ih

/-- In range, a claimed packet is taken and all that follows it is kept. -/
theorem Capacity.netioProcessPackets (capacity : Capacity s.config) (host : Host) :
    (netioProcessPackets host s).1 ≠ minhopErrOverflow ∧
      (Claimed s.config →
        (netioProcessPackets host s).2.config.pktBufSz.toNat + (pktClaimSz s.config).toNat =
          s.config.pktBufSz.toNat ∧
        ∀ j < s.config.pktBufSz.toNat - (pktClaimSz s.config).toNat,
          j + (pktClaimSz s.config).toNat < s.config.pktBufSzMax.toNat) := by
  rcases netioProcessPackets_cases host s with
    ⟨idle, s', called, _⟩ | ⟨claimed, retval, s', called, dispatches, code⟩
  · rw [called]
    exact ⟨(by decide : (0 : Int) ≠ minhopErrOverflow), fun claimed => absurd claimed idle⟩
  · have fits := claimed.le
    have held := capacity.held
    rw [capacity.shifted_eq claimed, if_pos rfl] at code
    rw [called]
    refine ⟨?_, fun _ => ⟨?_, fun j below => by omega⟩⟩
    · rcases code with rfl | rfl
      · exact (by decide : (0 : Int) ≠ minhopErrOverflow)
      · exact (by decide : minhopErrProtocol ≠ minhopErrOverflow)
    · rw [dispatches.config_eq]
      dsimp only
      rw [claimed.toNat_left]
      omega

/-- Nothing the server sends stops the client: no packet runs over the buffer,
and an iteration fails only when `realloc()` does. -/
theorem minputLoopIter_run (wide : 32 ≤ host.sizeTBits)
    (reach : Reach host inRange (minputMainSetup serverAddr clientName serverPort) input stage s) :
    (netioProcessPackets host s).1 ≠ minhopErrOverflow ∧
      (Claimed s.config →
        (netioProcessPackets host s).2.config.pktBufSz.toNat + (pktClaimSz s.config).toNat =
          s.config.pktBufSz.toNat ∧
        ∀ j < s.config.pktBufSz.toNat - (pktClaimSz s.config).toNat,
          j + (pktClaimSz s.config).toNat < s.config.pktBufSzMax.toNat) ∧
      (∀ retval, stage = .returned retval →
        retval = 0 ∨ retval = minhopErrAlloc ∧ input.realloc = none) ∧
      (stage = .connect →
        (∀ stage' s', Visits host input s stage' s' → inRange input stage' s') →
        (minputLoopIter host input s).1 = 0 ∨
          (minputLoopIter host input s).1 = minhopErrAlloc ∧ input.realloc = none) := by
  have capacity := Reach.capacity (fetchesFit_of_inRange wide) reach
  have returns : ∀ {s' retval}, Reach host inRange
      (minputMainSetup serverAddr clientName serverPort) input (.returned retval) s' →
      retval = 0 ∨ retval = minhopErrAlloc ∧ input.realloc = none := by
    intro s' retval reach
    have notOverflow := Reach.not_overflow wide reach
    rcases Reach.endsWith reach with zero | overflow | alloc
    · exact .inl zero
    · exact absurd (congrArg Stage.returned overflow) notOverflow
    · exact .inr alloc
  obtain ⟨noOverflow, taken⟩ := capacity.netioProcessPackets host
  refine ⟨noOverflow, taken, ?_, ?_⟩
  · intro retval atReturn
    subst atReturn
    exact returns reach
  · intro atConnect admits
    subst atConnect
    exact returns (minputLoopIter_reach reach admits)

end InRange

/-- A keepalive, and the front part of another packet. -/
def cutChunk : Chunk := ⟨calvChunk.bytes ++ [0, 0, 0, 4, 0x43], by decide, by decide⟩

def fetchedCut : Stage × Sys := afterFetch unixHost (receives cutChunk)

def afterCut : Sys := (osioLoop unixHost [receives cutChunk] defaultSetup).2

def atRefusal : Stage × Sys := stageStep unixHost (refuses fullChunk) .connect afterCut

/-- The packet in front is taken and five bytes stay; then an iteration fails for want of
memory, and in no other way. -/
theorem minputLoopIter_run_cut :
    ((netioProcessPackets unixHost fetchedCut.2).1 ≠ minhopErrOverflow ∧
      (netioProcessPackets unixHost fetchedCut.2).2.config.pktBufSz.toNat +
          (pktClaimSz fetchedCut.2.config).toNat = 13 ∧
      ∀ j < 13 - (pktClaimSz fetchedCut.2.config).toNat,
        j + (pktClaimSz fetchedCut.2.config).toNat < fetchedCut.2.config.pktBufSzMax.toNat) ∧
    (minhopErrAlloc = 0 ∨ minhopErrAlloc = minhopErrAlloc ∧ (refuses fullChunk).realloc = none) ∧
    ((minputLoopIter unixHost (refuses fullChunk) afterCut).1 = 0 ∨
      (minputLoopIter unixHost (refuses fullChunk) afterCut).1 = minhopErrAlloc ∧
        (refuses fullChunk).realloc = none) := by
  have facts : Claimed fetchedCut.2.config ∧
      fetchedCut.2.config.pktBufSz.toNat = 13 ∧
      inRange (receives cutChunk) (stageStep unixHost (receives cutChunk) .connect defaultSetup).1
        (stageStep unixHost (receives cutChunk) .connect defaultSetup).2 ∧
      inRange (refuses fullChunk) atRefusal.1 atRefusal.2 ∧
      (stageStep unixHost (refuses fullChunk) atRefusal.1 atRefusal.2).1 = .returned minhopErrAlloc ∧
      osioLoopAdmits unixHost inRange [receives cutChunk] defaultSetup = true ∧
      (osioLoop unixHost [receives cutChunk] defaultSetup).1 = 0 ∧
      iterAdmits unixHost inRange (refuses fullChunk) afterCut = true := by
    decide +kernel
  obtain ⟨claimed, size, fits, fits', failed, admits, ok, later⟩ := facts
  have first : Reach unixHost inRange defaultSetup (receives cutChunk) .connect defaultSetup :=
    .first _
  have atProcess : Reach unixHost inRange defaultSetup (receives cutChunk) fetchedCut.1
      fetchedCut.2 :=
    (first.onward fun same => Stage.noConfusion same).onward fits
  have next : Reach unixHost inRange defaultSetup (refuses fullChunk) .connect afterCut :=
    osioLoop_next .first admits ok (refuses fullChunk)
  have refused : Reach unixHost inRange defaultSetup (refuses fullChunk) atRefusal.1 atRefusal.2 :=
    next.onward fun same => Stage.noConfusion same
  obtain ⟨safe, taken, _⟩ := minputLoopIter_run (by decide) atProcess
  obtain ⟨_, _, returns, _⟩ := minputLoopIter_run (by decide) (refused.onward fits')
  obtain ⟨_, _, _, iterates⟩ := minputLoopIter_run (by decide) next
  obtain ⟨left, inside⟩ := taken claimed
  rw [size] at left inside
  exact ⟨⟨safe, left, inside⟩, returns _ failed,
    iterates rfl fun _ _ visits => visits.admitted_of_iter later⟩

end MinputHop
