import MinputHop.Library.Service
import MinputHop.Program.Backlog

/-!
# Draining a backlog

While nothing more is received and the deadline is kept, the iterations serve
the complete frames in the packet buffer in rounds of ten, whatever is in the
frames, and then leave an incomplete frame behind them alone.
-/

namespace MinputHop

open FlatMemory Framing Service

/-! ## What the buffer holds -/

/-- The start of a frame whose rest has not arrived. -/
def Incomplete (tail : List UInt8) : Prop :=
  ∃ frame, WireFrame frame ∧ tail <+: frame ∧ tail ≠ frame

/-- The connection in use handed on these packets, and the buffer holds these
frames and then the tail. -/
structure Holds (dispatched frames : List (List UInt8)) (tail : List UInt8) (s : Sys) : Prop where
  current : ∃ conn, s.current = some conn ∧ conn.dispatched = dispatched
  buffered_eq : s.buffered = frames.flatten ++ tail

/-- A queue of frames in the packet buffer of a connection. -/
structure Queued (queue : Queue (List UInt8)) (tail : List UInt8) (s : Sys) : Prop where
  holds : Holds queue.served queue.waiting tail s
  wire : ∀ frame ∈ queue.waiting, WireFrame frame
  incomplete : Incomplete tail
  capacity : Capacity s.config
  up : s.config.socketFd ≠ 0

section Front

variable {host : Host} {s s' : Sys} {dispatched rest : List (List UInt8)} {frame tail : List UInt8}

theorem WireFrame.length_ge (wire : WireFrame frame) : 4 ≤ frame.length := wire.isFrame.header_le

/-- An incomplete frame is not claimed. -/
theorem not_claimed_of_incomplete (incomplete : Incomplete tail) (held : s.buffered = tail) :
    ¬Claimed s.config := by
  intro claimed
  obtain ⟨frame, wire, start, unequal⟩ := incomplete
  have start' : s.buffered <+: frame ++ [] := by
    rw [held, List.append_nil]
    exact start
  obtain ⟨complete, size⟩ := claimed.announces wire start'
  rw [wire.isFrame.size_of_start start' complete] at size
  have fits := claimed.le
  rw [size, ← s.length_buffered, held] at fits
  exact unequal (start.eq_of_length_le fits)

/-- A frame in front is claimed with its length. -/
theorem claimed_of_front (wire : WireFrame frame) {behind : List UInt8}
    (held : s.buffered = frame ++ behind) :
    Claimed s.config ∧ (pktClaimSz s.config).toNat = frame.length := by
  have start : s.buffered <+: frame ++ behind := held ▸ List.prefix_refl _
  have length := congrArg List.length held
  rw [s.length_buffered, List.length_append] at length
  have header := wire.length_ge
  have complete : 4 ≤ s.config.pktBufSz.toNat := by omega
  have size := wire.isFrame.size_of_start start (by rw [s.length_buffered]; exact complete)
  have claimed := claimed_of_size complete (by omega)
  exact ⟨claimed, (claimed.announces wire start).2.trans size⟩

/-- Taking the frame in front serves it. -/
theorem Queued.take (queued : Queued ⟨dispatched, frame :: rest⟩ tail s)
    (dispatches : Dispatches host s s') (claimed : Claimed s.config)
    (claims : (pktClaimSz s.config).toNat = frame.length) :
    Queued ⟨dispatched ++ [frame], rest⟩ tail s' := by
  obtain ⟨conn, current, rfl⟩ := queued.holds.current
  obtain ⟨live, older, shape⟩ := Sys.connections_of_current current
  have held := queued.holds.buffered_eq
  rw [List.flatten_cons, List.append_assoc] at held
  have current' := dispatches.connections_eq shape
  have front : window s.config.pktBuf.cells 0 (pktClaimSz s.config).toNat = frame := by
    rw [← take_window _ _ claimed.le, ← Sys.buffered, held, claims, List.take_left]
  refine ⟨⟨?_, ?_⟩, fun other member => queued.wire other (List.mem_cons_of_mem _ member),
    queued.incomplete, dispatches.capacity claimed queued.capacity, ?_⟩
  · rw [Sys.current, current']
    refine ⟨_, Option.filter_some_pos live, ?_⟩
    rw [Conn.dispatched_take, front]
  · rw [dispatches.buffered_eq claimed queued.capacity, held, claims, List.drop_left]
  · rw [dispatches.config_eq]
    exact queued.up

/-- Nothing but calls that leave the connection alone happened. -/
theorem Queued.follows {queue : Queue (List UInt8)} (queued : Queued queue tail s)
    {elapsed : Nat} {calls : List Event} (follows : Follows s s' s.config elapsed calls)
    (quiet : calls.foldl trackConn s.connections = s.connections) : Queued queue tail s' := by
  have same : s'.connections = s.connections := follows.connections_eq.trans quiet
  refine ⟨⟨?_, ?_⟩, queued.wire, queued.incomplete, ?_, ?_⟩
  · rw [Sys.current, same]
    exact queued.holds.current
  · rw [buffered_of_config follows.config_eq rfl rfl]
    exact queued.holds.buffered_eq
  · exact follows.config_eq ▸ queued.capacity
  · exact follows.config_eq ▸ queued.up

end Front

/-! ## One round -/

/-- The packet loop serves one round. -/
theorem processLoop_serves (host : Host) (budget : Nat) {queue : Queue (List UInt8)}
    {tail : List UInt8} {s : Sys} (queued : Queued queue tail s) :
    ∃ s', processLoop host budget s = (0, s') ∧ Queued (queue.serve budget) tail s' ∧
      (queue.waiting = [] → s'.config = s.config) := by
  induction budget generalizing queue s with
  | zero =>
      rw [Queue.serve_zero]
      exact ⟨s, rfl, queued, fun _ => rfl⟩
  | succ budget ih =>
      obtain ⟨dispatched, waiting⟩ := queue
      cases waiting with
      | nil =>
          have idle := not_claimed_of_incomplete queued.incomplete queued.holds.buffered_eq
          obtain ⟨s', looped, follows⟩ := processLoop_idle host (budget + 1) idle
          rw [Queue.serve_idle]
          exact ⟨s', looped, queued.follows follows rfl, fun _ => follows.config_eq⟩
      | cons frame rest =>
          have held := queued.holds.buffered_eq
          rw [List.flatten_cons, List.append_assoc] at held
          have wire := queued.wire frame List.mem_cons_self
          obtain ⟨claimed, claims⟩ := claimed_of_front wire held
          rcases processPacket_cases host s with ⟨idle, _⟩ | ⟨_, after, dispatches, called⟩
          · exact absurd claimed idle
          rw [queued.capacity.shifted_eq claimed, if_pos rfl] at called
          have served := queued.take dispatches claimed claims
          rw [processLoop_succ called, Queue.serve_cons]
          by_cases more : 0 < after.config.pktBufSz ∧ 0 < budget
          · rw [if_pos more]
            obtain ⟨s', looped, later, _⟩ := ih served
            exact ⟨s', looped, later, nofun⟩
          · rw [if_neg more]
            refine ⟨after, rfl, ?_, nofun⟩
            by_cases spent : budget = 0
            · rw [spent, Queue.serve_zero]
              exact served
            · have empty : after.config.pktBufSz = 0 := by
                by_contra some
                exact more ⟨UInt32.pos_iff_ne_zero.mpr some, Nat.pos_of_ne_zero spent⟩
              have none := served.holds.buffered_eq
              rw [buffered_of_empty empty] at none
              cases rest with
              | nil =>
                  rw [Queue.serve_idle]
                  exact served
              | cons other rest =>
                  have header := (served.wire other List.mem_cons_self).length_ge
                  have length := congrArg List.length none
                  rw [List.flatten_cons, List.length_nil, List.length_append,
                    List.length_append] at length
                  omega

/-! ## Iterations without data -/

/-- The state at the keepalive check of an iteration that finds a connection. -/
def atCheck (host : Host) (input : IterInput) (s : Sys) : Sys :=
  (processLoop host pktProcPerLoop (netioFetchPackets host input s).2).2

/-- The deadline is kept at the check of each of these iterations. -/
def OnTime (host : Host) : List IterInput → Sys → Prop
  | [], _ => True
  | input :: rest, s =>
      ¬TimedOut host (atCheck host input s) ∧ OnTime host rest (minputLoopIter host input s).2

/-- An iteration that receives nothing serves one round. -/
theorem minputLoopIter_serves {host : Host} {input : IterInput} {queue : Queue (List UInt8)}
    {tail : List UInt8} {s : Sys} (queued : Queued queue tail s) (silent : input.recv = none)
    (onTime : ¬TimedOut host (atCheck host input s)) :
    ∃ s', minputLoopIter host input s = (0, s') ∧ Queued (queue.serve pktProcPerLoop) tail s' ∧
      (queue.waiting = [] → s'.config = s.config) := by
  have ensured : ensureConnected host input s = (true, s) := by
    rw [ensureConnected, if_neg queued.up]
  rcases netioFetchPackets_cases host input s with ⟨_, fetched, called, follows⟩ |
    ⟨chunk, received, _⟩ | ⟨chunk, block, szMax, calls, received, _⟩
  · obtain ⟨looped, ran, served, idle⟩ :=
      processLoop_serves host pktProcPerLoop (queued.follows follows rfl)
    rw [atCheck, called, ran] at onTime
    rcases checkKeepalive_cases host looped with ⟨late, _⟩ | ⟨_, kept⟩
    · exact absurd late onTime
    · refine ⟨checkKeepalive host looped, ?_, served.follows kept rfl, fun nothing => ?_⟩
      · rw [minputLoopIter_of_loop ensured called (by decide), ran]
        exact if_neg (by exact (by decide : (0 : Int) ≠ minhopErrOverflow))
      · rw [kept.config_eq, idle nothing, follows.config_eq]
  · cases silent.symm.trans received
  · cases silent.symm.trans received

section Runs

variable {host : Host} {serverAddr clientName : Vector UInt8 64} {serverPort : Int}
  {input : IterInput} {s : Sys} {frames : List (List UInt8)} {tail : List UInt8}

/-- Between two iterations of a defined run, the buffer of a connection is a queue. -/
theorem Reach.queued (wide : 16 ≤ host.sizeTBits)
    (reach : Reach host anyStep (minputMainSetup serverAddr clientName serverPort) input .connect s)
    (defined : CopiesInBounds s.calls) (up : s.config.socketFd ≠ 0)
    (wire : ∀ frame ∈ frames, WireFrame frame) (incomplete : Incomplete tail)
    (held : s.buffered = frames.flatten ++ tail) :
    ∃ conn, s.current = some conn ∧ Queued ⟨conn.dispatched, frames⟩ tail s := by
  obtain ⟨conn, older, live, shape⟩ := Reach.attached reach up
  have current : s.current = some conn := by
    rw [Sys.current, shape]
    exact Option.filter_some_pos live
  exact ⟨conn, current, ⟨⟨conn, current, rfl⟩, held⟩, wire, incomplete,
    Reach.capacity (fun _ _ _ => id) (reach.fetchesFit_of_defined wide defined fun same =>
      Stage.noConfusion same), up⟩

end Runs

/-! ### One frame behind ten -/

end MinputHop
