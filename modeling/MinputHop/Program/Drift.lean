import MinputHop.Program.Drain

/-!
# The backlog over a run

An iteration fetches bytes and works through packets.  What a fetch brings
beyond ten of the smallest packets stays in the buffer, and adds up from one
iteration to the next.
-/

namespace MinputHop

open FlatMemory Framing Service

/-! ## Fetches and packets -/

/-- How much each fetch on the newest connection brought. -/
def trackFetches (sizes : List Nat) : Event → List Nat
  | .connect _ _ _ _ ret => if ret = 0 then [] else sizes
  | .recv _ _ result => sizes ++ [(result.getD []).length]
  | _ => sizes

def Sys.fetches (s : Sys) : List Nat := s.calls.foldl trackFetches []

theorem Sys.fetches_of_calls {s s' : Sys} {calls : List Event}
    (extended : s'.calls = s.calls ++ calls) : s'.fetches = calls.foldl trackFetches s.fetches := by
  rw [Sys.fetches, extended, List.foldl_append]
  rfl

theorem foldl_trackFetches_outputs (sockfd : Int) (outputs : List Output) (sizes : List Nat) :
    (outputs.map (Output.event sockfd)).foldl trackFetches sizes = sizes := by
  induction outputs with
  | nil => rfl
  | cons output outputs ih => cases output <;> exact ih

section Changes

variable {host : Host} {input : IterInput} {s s' before : Sys} {config : NetioCfg} {elapsed : Nat}
  {calls : List Event} {chunk : Chunk}

theorem Dispatches.fetches_eq (dispatches : Dispatches host s s') : s'.fetches = s.fetches := by
  rw [Sys.fetches_of_calls dispatches.calls_eq, List.foldl_cons]
  exact foldl_trackFetches_outputs _ _ _

theorem Follows.fetches_filled {time time' off size : Nat} {fd : Int} {block : Block UInt8}
    {szMax : UInt32}
    (follows : Follows s s' config elapsed
      (.recv time fd (some chunk.bytes) :: (calls ++ [.memcpy time' off chunk.bytes size])))
    (room : Room host input before chunk block szMax calls) :
    s'.fetches = s.fetches ++ [chunk.bytes.length] := by
  rw [Sys.fetches_of_calls follows.calls_eq]
  rcases room.calls_eq with rfl | ⟨_, rfl⟩ <;> rfl

end Changes

/-- A connection that has just ended is not in use. -/
theorem not_live_of_ended {s s' : Sys} {conn : Conn} {older : List Conn}
    (ended : s'.connections = s.connections.modifyHead Conn.ended)
    (shape : s'.connections = conn :: older) : conn.live ≠ true := by
  rw [ended] at shape
  cases before : s.connections with
  | nil =>
      rw [before] at shape
      exact absurd shape nofun
  | cons first rest =>
      rw [before, List.modifyHead_cons] at shape
      obtain ⟨rfl, _⟩ := List.cons.inj shape
      exact Bool.false_ne_true

/-- The number of packets that the iteration may still take. -/
def Stage.budget : Stage → Nat
  | .process pktProcIter => pktProcPerLoop - pktProcIter
  | _ => 0

/-- Every byte received on a connection came with one of its fetches, and at
most ten packets were handed on for each of them. -/
structure Metered (stage : Stage) (conn : Conn) (fetches : List Nat) : Prop where
  total : fetches.sum = conn.received.length
  pieces : ∀ size ∈ fetches, size ≤ sockbufSz
  packets : conn.packets.length + stage.budget ≤ pktProcPerLoop * fetches.length
  within : ∀ pktProcIter, stage = .process pktProcIter → pktProcIter < pktProcPerLoop

/-- `Metered` for the connection in use. -/
def MeteredIn (stage : Stage) (s : Sys) : Prop :=
  ∀ conn older, s.connections = conn :: older → conn.live = true → Metered stage conn s.fetches

theorem Metered.fetched {stage : Stage} {conn : Conn} {fetches : List Nat}
    (metered : Metered .fetch conn fetches) {data : List UInt8} (piece : data.length ≤ sockbufSz)
    (next : stage = .process 0 ∨ ∃ retval, stage = .returned retval) (conn' : Conn)
    (received : conn'.received = conn.received ++ data)
    (packets : conn'.packets = conn.packets) : Metered stage conn' (fetches ++ [data.length]) := by
  have before : conn.packets.length ≤ pktProcPerLoop * fetches.length := metered.packets
  refine ⟨?_, ?_, ?_, ?_⟩
  · rw [List.sum_append, List.sum_singleton, metered.total, received, List.length_append]
  · intro size member
    rcases List.mem_append.mp member with earlier | last
    · exact metered.pieces size earlier
    · exact List.mem_singleton.mp last ▸ piece
  · rw [packets, List.length_append, List.length_singleton, Nat.mul_succ]
    rcases next with rfl | ⟨retval, rfl⟩
    · exact Nat.add_le_add_right before _
    · exact Nat.le_add_right_of_le before
  · intro pktProcIter at'
    rcases next with rfl | ⟨retval, rfl⟩
    · obtain rfl := Stage.process.inj at'
      decide
    · cases at'

/-- One call of `netio_process_packets` takes at most one packet. -/
theorem Metered.processed {pktProcIter : Nat} {conn conn' : Conn} {fetches : List Nat}
    (metered : Metered (.process pktProcIter) conn fetches) (s : Sys)
    (received : conn'.received = conn.received)
    (packets : conn'.packets.length ≤ conn.packets.length + 1) :
    Metered (afterPacket pktProcIter s) conn' fetches := by
  have below := metered.within pktProcIter rfl
  have before := metered.packets
  rw [Stage.budget] at before
  have total := metered.total.trans (congrArg List.length received).symm
  by_cases more : 0 < s.config.pktBufSz ∧ pktProcIter + 1 < pktProcPerLoop
  · rw [afterPacket, if_pos more]
    refine ⟨total, metered.pieces, ?_, fun _ at' => Stage.process.inj at' ▸ more.2⟩
    rw [Stage.budget]
    omega
  · rw [afterPacket, if_neg more]
    refine ⟨total, metered.pieces, ?_, fun _ at' => Stage.noConfusion at'⟩
    change conn'.packets.length + 0 ≤ _
    omega

/-- Where nothing is left to take, the stage does not matter. -/
theorem Metered.left {stage stage' : Stage} {conn : Conn} {fetches : List Nat}
    (metered : Metered stage conn fetches) (spent : stage'.budget = 0)
    (outside : ∀ pktProcIter, stage' ≠ .process pktProcIter) : Metered stage' conn fetches := by
  have before := metered.packets
  exact ⟨metered.total, metered.pieces, by omega, fun pktProcIter at' => absurd at' (outside pktProcIter)⟩

theorem Step.metered {host : Host} {input : IterInput} {stage stage' : Stage} {s s' : Sys}
    (step : Step host input stage s stage' s') (attached : Attached stage s)
    (inv : MeteredIn stage s) : MeteredIn stage' s' := by
  intro conn' older' shape live'
  cases step with
  | connected | rested => exact (inv conn' older' shape live').left rfl fun _ at' => Stage.noConfusion at'
  | failed _ attempt follows =>
      exact absurd live' (not_live_of_ended (follows.connections_failed attempt) shape)
  | dropped _ _ follows =>
      exact absurd live' (not_live_of_ended follows.connections_eq shape)
  | opened _ accepted event_eq follows =>
      have fresh := follows.connections_opened accepted event_eq
      obtain ⟨rfl, _⟩ := List.cons.inj (fresh.symm.trans shape)
      rw [Sys.fetches_of_calls follows.calls_eq, event_eq]
      simp only [List.foldl_cons, List.foldl_nil, trackFetches, connectEvent, if_pos accepted]
      exact ⟨rfl, fun _ member => absurd member List.not_mem_nil, Nat.le_refl _,
        fun _ at' => Stage.noConfusion at'⟩
  | starved _ follows =>
      have metered := inv conn' older' (follows.connections_eq.symm.trans shape) live'
      rw [Sys.fetches_of_calls follows.calls_eq]
      exact metered.fetched (Nat.zero_le _) (.inl rfl) conn' (List.append_nil _).symm rfl
  | @exhausted _ _ chunk _ _ _ follows =>
      obtain ⟨conn, older, live, current⟩ := attached
      obtain ⟨rfl, _⟩ := List.cons.inj ((follows.connections_exhausted current).symm.trans shape)
      rw [Sys.fetches_of_calls follows.calls_eq]
      exact (inv conn older current live).fetched chunk.fits (.inr ⟨_, rfl⟩) _ rfl rfl
  | @filled _ _ chunk _ _ _ _ room follows =>
      obtain ⟨conn, older, live, current⟩ := attached
      obtain ⟨rfl, _⟩ := List.cons.inj ((follows.connections_filled room current).symm.trans shape)
      rw [follows.fetches_filled room]
      exact (inv conn older current live).fetched chunk.fits (.inl rfl) _ rfl rfl
  | waited _ follows =>
      have metered := inv conn' older' (follows.connections_eq.symm.trans shape) live'
      rw [Sys.fetches_of_calls follows.calls_eq]
      exact metered.processed s' rfl (Nat.le_succ _)
  | took _ _ dispatches =>
      obtain ⟨conn, older, live, current⟩ := attached
      obtain ⟨rfl, _⟩ := List.cons.inj ((dispatches.connections_eq current).symm.trans shape)
      rw [dispatches.fetches_eq]
      exact (inv conn older current live).processed s' rfl List.length_append.le
  | overran _ _ dispatches =>
      obtain ⟨conn, older, live, current⟩ := attached
      obtain ⟨rfl, _⟩ := List.cons.inj ((dispatches.connections_eq current).symm.trans shape)
      have metered := inv conn older current live
      have below := metered.within _ rfl
      have before := metered.packets
      rw [Stage.budget] at before
      rw [dispatches.fetches_eq]
      refine ⟨metered.total, metered.pieces, ?_, fun _ at' => Stage.noConfusion at'⟩
      change (conn.packets ++ [_]).length + 0 ≤ _
      rw [List.length_append, List.length_singleton]
      omega
  | kept _ follows =>
      have metered := inv conn' older' (follows.connections_eq.symm.trans shape) live'
      rw [Sys.fetches_of_calls follows.calls_eq]
      exact metered.left rfl fun _ at' => Stage.noConfusion at'

theorem Reach.metered {host : Host} {Admits : IterInput → Stage → Sys → Prop}
    {serverAddr clientName : Vector UInt8 64} {serverPort : Int} {input : IterInput}
    {stage : Stage} {s : Sys}
    (reach : Reach host Admits (minputMainSetup serverAddr clientName serverPort) input stage s) :
    MeteredIn stage s := by
  refine Reach.induction MeteredIn (fun _ _ shape => absurd shape.symm (List.cons_ne_nil _ _))
    (fun reach _ step inv => step.metered (Reach.attached reach) inv) ?_ reach
  exact fun inv conn older shape live => (inv conn older shape live).left rfl nofun

/-! ## How much is left over -/

/-- The connection sized frames between these two sizes. -/
def Sized (least most : Nat) (conn : Conn) : Prop :=
  ∃ frames : List (List UInt8),
    (∀ frame ∈ frames, WireFrame frame ∧ least ≤ frame.length ∧ frame.length ≤ most) ∧
      conn.received <+: frames.flatten

section Front

variable {s : Sys} {conn conn' : Conn} {least most : Nat}

theorem Sized.start (sized : Sized least most conn')
    (start : conn.received <+: conn'.received) : Sized least most conn := by
  obtain ⟨frames, wire, received⟩ := sized
  exact ⟨frames, wire, start.trans received⟩

/-- The buffer is empty or starts with one of the frames. -/
theorem Sized.front (sized : Sized least most conn) (keeps : Keeps conn s.buffered) :
    s.buffered = [] ∨ ∃ frame behind, WireFrame frame ∧ least ≤ frame.length ∧
      frame.length ≤ most ∧ s.buffered <+: frame ++ behind := by
  obtain ⟨frames, wire, received⟩ := sized
  obtain ⟨rest, rfl, held⟩ := keeps.faithful.pending_start (fun frame member => (wire frame member).1)
    (keeps.arrived.trans received)
  cases rest with
  | nil => exact .inl (List.prefix_nil.mp held)
  | cons frame rest =>
      obtain ⟨isWire, long, short⟩ := wire frame (by simp)
      exact .inr ⟨frame, rest.flatten, isWire, long, short, held⟩

/-- Without a complete packet in front, less than the largest frame is held. -/
theorem Sized.idle (sized : Sized least most conn) (keeps : Keeps conn s.buffered)
    (idle : ¬Claimed s.config) : s.buffered.length ≤ most := by
  rcases sized.front keeps with empty | ⟨frame, behind, wire, _, short, held⟩
  · rw [empty]
    exact Nat.zero_le _
  · by_contra long
    have header := wire.length_ge
    have whole := s.length_buffered
    have size := wire.isFrame.size_of_start held (Nat.le_trans header (by omega))
    exact idle (claimed_of_size (by omega) (by omega))

/-- A packet that is taken has at least the size of the smallest frame. -/
theorem Sized.taken (sized : Sized least most conn) (keeps : Keeps conn s.buffered)
    (claimed : Claimed s.config) : least ≤ (pktClaimSz s.config).toNat := by
  rcases sized.front keeps with empty | ⟨frame, behind, wire, long, _, held⟩
  · have none := s.length_buffered
    rw [empty] at none
    exact absurd (UInt32.toNat_inj.mp none.symm) claimed.1
  · obtain ⟨complete, size⟩ := claimed.announces wire held
    rw [size, wire.isFrame.size_of_start held complete]
    exact long

end Front

/-- What is held is bounded by one frame and by what the fetches brought beyond
ten of the smallest frames each. -/
def Bounded (stage : Stage) (s : Sys) : Prop :=
  ∀ conn older, s.connections = conn :: older → conn.live = true →
    ∀ least most, Sized least most conn →
      s.buffered.length ≤
        most + excess (pktProcPerLoop * least) s.fetches + stage.budget * least

theorem budget_afterPacket (pktProcIter : Nat) (s : Sys) :
    (afterPacket pktProcIter s).budget = pktProcPerLoop - (pktProcIter + 1) ∨
      s.config.pktBufSz = 0 := by
  by_cases empty : s.config.pktBufSz = 0
  · exact .inr empty
  · refine .inl ?_
    rw [afterPacket]
    split
    · rfl
    · next spent =>
        have some := UInt32.pos_iff_ne_zero.mpr empty
        have last : ¬pktProcIter + 1 < pktProcPerLoop := fun more => spent ⟨some, more⟩
        exact (Nat.sub_eq_zero_of_le (Nat.le_of_not_lt last)).symm

/-- A fetch for which `realloc()` fails adds nothing. -/
theorem Bounded.refused {host : Host} {time : Nat} {fd : Int} {size : Nat} {chunk : Chunk}
    {s s' : Sys} (inv : Bounded .fetch s) (attached : Attached .fetch s)
    (follows : Follows s s' (afterRefusal host s chunk) 1
      [.recv time fd (some chunk.bytes), .realloc size false]) :
    Bounded (.returned minhopErrAlloc) s' := by
  intro conn' older' shape live' least most sized
  obtain ⟨conn, older, live, current⟩ := attached
  obtain ⟨rfl, _⟩ := List.cons.inj ((follows.connections_exhausted current).symm.trans shape)
  have before := inv conn older current live least most (sized.start (List.prefix_append _ _))
  have fetches : s'.fetches = s.fetches ++ [chunk.bytes.length] :=
    Sys.fetches_of_calls follows.calls_eq
  rw [buffered_of_config follows.config_eq rfl rfl, fetches, excess_concat]
  change _ ≤ _ + 0 * least at before
  omega

theorem Step.bounded {host : Host} {input : IterInput} {stage stage' : Stage} {s s' : Sys}
    (step : Step host input stage s stage' s') (admits : fetchesFit host input stage s)
    (capacity : Capacity s.config) (attached : Attached stage s) (reassembled : Reassembled stage s)
    (metered : MeteredIn stage s) (inv : Bounded stage s) : Bounded stage' s' := by
  intro conn' older' shape live' least most sized
  cases step with
  | connected | rested => exact inv conn' older' shape live' least most sized
  | failed _ attempt follows =>
      exact absurd live' (not_live_of_ended (follows.connections_failed attempt) shape)
  | dropped _ _ follows =>
      exact absurd live' (not_live_of_ended follows.connections_eq shape)
  | opened _ accepted event_eq follows =>
      have empty : s'.config.pktBufSz = 0 := by rw [follows.config_eq]; rfl
      rw [buffered_of_empty empty]
      exact Nat.zero_le _
  | starved _ follows =>
      have before := inv conn' older' (follows.connections_eq.symm.trans shape) live' least most sized
      have fetches : s'.fetches = s.fetches ++ [0] := Sys.fetches_of_calls follows.calls_eq
      rw [buffered_of_config follows.config_eq rfl rfl, fetches, excess_concat]
      change _ ≤ _ + 0 * least at before
      omega
  | exhausted _ _ _ follows =>
      exact inv.refused attached follows conn' older' shape live' least most sized
  | @filled _ _ chunk _ _ _ received room follows =>
      obtain ⟨conn, older, live, current⟩ := attached
      obtain ⟨rfl, _⟩ := List.cons.inj ((follows.connections_filled room current).symm.trans shape)
      have before := inv conn older current live least most (sized.start (List.prefix_append _ _))
      obtain ⟨fits, argument⟩ := (admits rfl).of_room received room
      rw [room.buffered_appended capacity fits argument follows.config_eq, List.length_append,
        follows.fetches_filled room, excess_concat]
      change _ ≤ _ + 0 * least at before
      change _ ≤ _ + pktProcPerLoop * least
      omega
  | waited idle follows =>
      have shape' := follows.connections_eq.symm.trans shape
      have keeps := (reassembled.ledger.current conn' older' shape' live').1
      have short := sized.idle keeps idle
      rw [buffered_of_config follows.config_eq rfl rfl]
      omega
  | @took _ _ pktProcIter claimed _ dispatches =>
      obtain ⟨conn, older, live, current⟩ := attached
      obtain ⟨rfl, _⟩ := List.cons.inj ((dispatches.connections_eq current).symm.trans shape)
      have carried : Sized least most conn := sized.start (List.prefix_refl _)
      have before := inv conn older current live least most carried
      have taken := carried.taken (reassembled.ledger.current conn older current live).1 claimed
      have below := (metered conn older current live).within pktProcIter rfl
      rcases budget_afterPacket pktProcIter s' with budget | empty
      · have next : pktProcPerLoop - pktProcIter = (pktProcPerLoop - (pktProcIter + 1)) + 1 := by omega
        rw [Stage.budget, next, Nat.succ_mul] at before
        rw [dispatches.buffered_eq claimed capacity, List.length_drop, dispatches.fetches_eq, budget]
        omega
      · rw [buffered_of_empty empty]
        exact Nat.zero_le _
  | overran claimed stuck =>
      rw [capacity.shifted_eq claimed] at stuck
      exact absurd stuck.symm Bool.false_ne_true
  | kept _ follows =>
      have before := inv conn' older' (follows.connections_eq.symm.trans shape) live' least most sized
      have fetches : s'.fetches = s.fetches := Sys.fetches_of_calls follows.calls_eq
      rw [buffered_of_config follows.config_eq rfl rfl, fetches]
      exact before

section Runs

variable {host : Host} {serverAddr clientName : Vector UInt8 64} {serverPort : Int}
  {input : IterInput} {stage : Stage} {s : Sys}

theorem Reach.bounded
    (reach : Reach host (fetchesFit host) (minputMainSetup serverAddr clientName serverPort) input
      stage s) : Bounded stage s := by
  refine Reach.induction Bounded (fun _ _ shape => absurd shape.symm (List.cons_ne_nil _ _))
    (fun reach admits step inv => step.bounded admits (Reach.capacity (fun _ _ _ => id) reach)
      (Reach.attached reach) (Reach.reassembled (fun _ _ _ => id) reach) (Reach.metered reach) inv)
    id reach

end Runs

/-! ## A steady stream -/

/-- A connection that these bytes came in on, in fetches of these sizes, all of
which were copied inside the buffer. -/
structure Streaming (received : List UInt8) (fetches : List Nat) (s : Sys) : Prop where
  capacity : Capacity s.config
  defined : CopiesInBounds s.calls
  up : s.config.socketFd ≠ 0
  current : ∃ conn, s.current = some conn ∧ conn.received = received
  fetches_eq : s.fetches = fetches
  held : s.config.pktBufSz.toNat ≤ received.length

section Streaming

variable {host : Host} {input : IterInput} {received : List UInt8} {fetches : List Nat}
  {s s' connected : Sys}

theorem Streaming.follows (streaming : Streaming received fetches s) {elapsed : Nat}
    (follows : Follows s s' s.config elapsed []) : Streaming received fetches s' := by
  have calls : s'.calls = s.calls := follows.calls_eq.trans (List.append_nil _)
  refine ⟨follows.config_eq ▸ streaming.capacity, calls ▸ streaming.defined,
    follows.config_eq ▸ streaming.up, ?_, ?_, follows.config_eq ▸ streaming.held⟩
  · rw [Sys.current, Sys.connections, calls]
    exact streaming.current
  · rw [Sys.fetches, calls]
    exact streaming.fetches_eq

theorem Streaming.take (streaming : Streaming received fetches s)
    (dispatches : Dispatches host s s') (claimed : Claimed s.config) :
    Streaming received fetches s' := by
  obtain ⟨conn, current, rfl⟩ := streaming.current
  obtain ⟨live, older, shape⟩ := Sys.connections_of_current current
  have held := streaming.held
  refine ⟨dispatches.capacity claimed streaming.capacity, ?_, ?_, ?_,
    dispatches.fetches_eq.trans streaming.fetches_eq, ?_⟩
  · rw [dispatches.calls_eq]
    exact copiesInBounds_append.mpr ⟨streaming.defined, copiesInBounds_outputs _ _ _ _ _⟩
  · rw [dispatches.config_eq]
    exact streaming.up
  · rw [Sys.current, dispatches.connections_eq shape]
    exact ⟨_, Option.filter_some_pos live, rfl⟩
  · rw [dispatches.config_eq]
    dsimp only
    rw [claimed.toNat_left]
    omega

theorem Streaming.fill {chunk : Chunk} {block : Block UInt8} {szMax : UInt32} {calls : List Event}
    (streaming : Streaming received fetches s)
    (room : Room host input s chunk block szMax calls)
    (fits : s.config.pktBufSz.toNat + chunk.bytes.length + 100 < 2 ^ 32)
    (argument : s.config.pktBufSz.toNat + chunk.bytes.length + 100 < 2 ^ host.sizeTBits)
    (follows : Follows s s' (appended s chunk block szMax) 1
      (.recv (host.clock s.ticks) s.config.socketFd (some chunk.bytes) ::
        (calls ++ [.memcpy (host.clock s.ticks) s.config.pktBufSz.toNat chunk.bytes block.size]))) :
    Streaming (received ++ chunk.bytes) (fetches ++ [chunk.bytes.length]) s' := by
  obtain ⟨conn, current, rfl⟩ := streaming.current
  obtain ⟨live, older, shape⟩ := Sys.connections_of_current current
  obtain ⟨allocated, _, _, inside⟩ := room.enough streaming.capacity fits argument
  have held := streaming.held
  refine ⟨?_, ?_, ?_, ?_, ?_, ?_⟩
  · exact follows.config_eq ▸ room.capacity_appended streaming.capacity fits argument
  · rw [follows.calls_eq]
    exact copiesInBounds_append.mpr ⟨streaming.defined,
      (room.copiesInBounds_iff _ _ _).mpr (Nat.le_trans inside allocated)⟩
  · rw [follows.config_eq]
    exact streaming.up
  · rw [Sys.current, follows.connections_filled room shape]
    exact ⟨_, Option.filter_some_pos live, rfl⟩
  · rw [follows.fetches_filled room, streaming.fetches_eq]
  · have length := congrArg List.length
      (room.buffered_appended streaming.capacity fits argument follows.config_eq)
    rw [Sys.length_buffered, List.length_append, Sys.length_buffered] at length
    rw [List.length_append]
    omega

end Streaming

end MinputHop
