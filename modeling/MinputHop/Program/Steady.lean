import MinputHop.Program.Drift
import MinputHop.Program.Keepalive

/-!
# A server that keeps its side

The deadline is re-armed when a keepalive is handed on, and the server only knows when
it has sent one.  As long as no iteration begins with more complete packets than it may
take, that is soon enough: a connection on which keepalives arrive is never given up.
-/

namespace MinputHop

open FlatMemory Framing

/-! ## What has re-armed the deadline -/

/-- The deadline was last re-armed at this time or later. -/
def RearmedSince (s : Sys) (time : Nat) : Prop :=
  ∃ rearmed, s.rearmedAt = some rearmed ∧ time ≤ rearmed

/-- When a connection was opened. -/
def Event.openTime? : Event → Option Nat
  | .connect time _ _ _ ret => if ret = 0 then some time else none
  | _ => none

/-- When the newest connection was opened. -/
def Sys.openedAt (s : Sys) : Option Nat := (s.calls.filterMap Event.openTime?).getLast?

/-- The deadline was re-armed since the connection was opened, and since the last byte of
each keepalive handed on there had come. -/
structure Credited (host : Host) (conn : Conn) (s : Sys) : Prop where
  arrived : ∀ time ∈ s.arrivals, time ≤ host.clock s.ticks
  opened : ∀ time, s.openedAt = some time → time ≤ host.clock s.ticks ∧ RearmedSince s time
  handed : ∀ m packet, conn.packets[m]? = some packet → rearms packet.1 = true →
    ∀ time ∈ s.arrivals.take (conn.dispatched.take (m + 1)).flatten.length, RearmedSince s time

section Effects

variable {host : Host} {input : IterInput} {s s' : Sys} {config : NetioCfg} {elapsed : Nat}
  {calls : List Event} {conn conn' : Conn}

theorem Sys.openedAt_of_calls (extended : s'.calls = s.calls ++ calls) :
    s'.openedAt = (calls.filterMap Event.openTime?).getLast?.or s.openedAt := by
  unfold Sys.openedAt
  rw [extended, List.filterMap_append, List.getLast?_append]

/-- What comes in re-arms nothing, and leaves what was handed on as it is. -/
theorem Credited.still (credited : Credited host conn s) (monotone : Monotone host.clock)
    (follows : Follows s s' config elapsed calls)
    (quiet : calls.filterMap Event.rearmTime? = []) (noOpen : calls.filterMap Event.openTime? = [])
    {times : List Nat} (arrivals : s'.arrivals = s.arrivals ++ times)
    (late : ∀ time ∈ times, time ≤ host.clock s.ticks)
    (held : conn.dispatched.flatten.length ≤ s.arrivals.length)
    (packets : conn'.packets = conn.packets) : Credited host conn' s' := by
  have rearmed : s'.rearmedAt = s.rearmedAt := by
    rw [Sys.rearmedAt_of_calls follows.calls_eq, quiet]
    rfl
  have opened : s'.openedAt = s.openedAt := by
    rw [Sys.openedAt_of_calls follows.calls_eq, noOpen]
    rfl
  have later : host.clock s.ticks ≤ host.clock s'.ticks := by
    rw [follows.ticks_eq]
    exact monotone (Nat.le_add_right _ _)
  have since {time : Nat} (before : RearmedSince s time) : RearmedSince s' time := by
    unfold RearmedSince
    rw [rearmed]
    exact before
  have dispatched : conn'.dispatched = conn.dispatched := by
    unfold Conn.dispatched
    rw [packets]
  constructor
  · rw [arrivals]
    intro time member
    rcases List.mem_append.mp member with member | member
    · exact Nat.le_trans (credited.arrived time member) later
    · exact Nat.le_trans (late time member) later
  · rw [opened]
    intro time at'
    obtain ⟨past, before⟩ := credited.opened time at'
    exact ⟨Nat.le_trans past later, since before⟩
  · rw [packets, dispatched, arrivals]
    intro m packet handed counts time member
    have within : (conn.dispatched.take (m + 1)).flatten.length ≤ s.arrivals.length :=
      Nat.le_trans (List.take_prefix _ _).flatten.length_le held
    rw [List.take_append_of_le_length within] at member
    exact since (credited.handed m packet handed counts time member)

theorem Dispatches.rearmedAt_eq (dispatches : Dispatches host s s') :
    s'.rearmedAt =
      if rearms s.config.pktBuf.cells then some (host.clock s.ticks) else s.rearmedAt := by
  rw [Sys.rearmedAt_of_calls dispatches.calls_eq]
  split
  · next counts =>
      have stamp : (Event.dispatch (host.clock s.ticks) s.config.pktBuf.cells
          (pktClaimSz s.config)).rearmTime? = some (host.clock s.ticks) := if_pos counts
      rw [List.filterMap_cons_some stamp, filterMap_rearmTime?_outputs]
      rfl
  · next other =>
      have stamp : (Event.dispatch (host.clock s.ticks) s.config.pktBuf.cells
          (pktClaimSz s.config)).rearmTime? = none := if_neg other
      rw [List.filterMap_cons_none stamp, filterMap_rearmTime?_outputs]
      rfl

theorem Dispatches.arrivals_eq (dispatches : Dispatches host s s') : s'.arrivals = s.arrivals := by
  rw [Sys.arrivals_of_calls dispatches.calls_eq, List.foldl_cons]
  exact foldl_trackArrivals_outputs _ _ _

theorem Dispatches.openedAt_eq (dispatches : Dispatches host s s') : s'.openedAt = s.openedAt := by
  have outputs (outputs : List Output) :
      (outputs.map (Output.event s.config.socketFd)).filterMap Event.openTime? = [] := by
    rw [List.filterMap_map, List.filterMap_eq_nil_iff]
    intro output _
    cases output <;> rfl
  rw [Sys.openedAt_of_calls dispatches.calls_eq, List.filterMap_cons_none rfl, outputs]
  rfl

/-- A keepalive is behind everything that has come so far. -/
theorem Credited.dispatched (credited : Credited host conn s) (monotone : Monotone host.clock)
    (dispatches : Dispatches host s s') : Credited host (takenConn host s conn) s' := by
  have later : host.clock s.ticks ≤ host.clock s'.ticks := by
    rw [dispatches.ticks_eq]
    exact monotone (Nat.le_add_right _ _)
  by_cases counts : rearms s.config.pktBuf.cells = true
  · have since {time : Nat} (past : time ≤ host.clock s.ticks) : RearmedSince s' time := by
      refine ⟨host.clock s.ticks, ?_, past⟩
      rw [dispatches.rearmedAt_eq, if_pos counts]
    constructor
    · rw [dispatches.arrivals_eq]
      exact fun time member => Nat.le_trans (credited.arrived time member) later
    · rw [dispatches.openedAt_eq]
      intro time at'
      obtain ⟨past, _⟩ := credited.opened time at'
      exact ⟨Nat.le_trans past later, since past⟩
    · rw [dispatches.arrivals_eq]
      intro m packet _ _ time member
      exact since (credited.arrived time (List.mem_of_mem_take member))
  · have since {time : Nat} (before : RearmedSince s time) : RearmedSince s' time := by
      unfold RearmedSince
      rw [dispatches.rearmedAt_eq, if_neg counts]
      exact before
    constructor
    · rw [dispatches.arrivals_eq]
      exact fun time member => Nat.le_trans (credited.arrived time member) later
    · rw [dispatches.openedAt_eq]
      intro time at'
      obtain ⟨past, before⟩ := credited.opened time at'
      exact ⟨Nat.le_trans past later, since before⟩
    · rw [dispatches.arrivals_eq, Conn.dispatched_take]
      intro m packet handed keepalive time member
      -- The packet itself is no keepalive, so this one was handed on before it.
      rcases Nat.lt_or_ge m conn.packets.length with earlier | last
      · have before : conn.packets[m]? = some packet := by
          rw [← handed]
          exact (List.getElem?_append_left earlier).symm
        have inside : m + 1 ≤ conn.dispatched.length := by
          rw [Conn.dispatched, List.length_map]
          exact earlier
        rw [List.take_append_of_le_length inside] at member
        exact since (credited.handed m packet before keepalive time member)
      · change (conn.packets ++ [(s.config.pktBuf.cells, pktClaimSz s.config)])[m]? = _ at handed
        rw [List.getElem?_append_right last] at handed
        obtain rfl := List.mem_singleton.mp (List.mem_of_getElem? handed)
        exact absurd keepalive counts

/-- A new connection starts with its deadline armed. -/
theorem credited_opened {event : Event} (monotone : Monotone host.clock)
    (accepted : input.connect = 0)
    (event_eq : event = connectEvent host input { s with config.pktBufSz := 0 })
    (follows : Follows s s' (attempted host s input.socket) 1
      [.invalidate, .socket input.socket, event]) : Credited host .opened s' := by
  have later : host.clock s.ticks ≤ host.clock s'.ticks := by
    rw [follows.ticks_eq]
    exact monotone (Nat.le_add_right _ _)
  have opens : event.openTime? = some (host.clock s.ticks) := by
    rw [event_eq]
    exact if_pos accepted
  have rearm : event.rearmTime? = some (host.clock s.ticks) := by
    rw [event_eq]
    exact if_pos accepted
  have arrivals : s'.arrivals = [] := by
    rw [Sys.arrivals_of_calls follows.calls_eq, event_eq]
    exact if_pos accepted
  constructor
  · rw [arrivals]
    exact fun _ member => absurd member List.not_mem_nil
  · intro time at'
    rw [Sys.openedAt_of_calls follows.calls_eq, List.filterMap_cons_none rfl,
      List.filterMap_cons_none rfl, List.filterMap_cons_some opens] at at'
    obtain rfl := Option.some.inj at'
    refine ⟨later, _, ?_, Nat.le_refl _⟩
    rw [Sys.rearmedAt_of_calls follows.calls_eq, List.filterMap_cons_none rfl,
      List.filterMap_cons_none rfl, List.filterMap_cons_some rearm]
    rfl
  · exact fun _ _ handed => absurd handed nofun

end Effects

/-- `Credited` for the connection in use. -/
def CreditedIn (host : Host) (s : Sys) : Prop :=
  ∀ conn older, s.connections = conn :: older → conn.live = true → Credited host conn s

theorem Step.credited {host : Host} {input : IterInput} {stage stage' : Stage} {s s' : Sys}
    (step : Step host input stage s stage' s') (monotone : Monotone host.clock)
    (attached : Attached stage s) (timed : Timed s) (reassembled : Reassembled stage s)
    (inv : CreditedIn host s) : CreditedIn host s' := by
  have held {conn : Conn} {older : List Conn} (shape : s.connections = conn :: older)
      (live : conn.live = true) : conn.dispatched.flatten.length ≤ s.arrivals.length := by
    have split := (reassembled.ledger.current conn older shape live).1.split
    rw [Timed, shape, newestAppended, split, List.length_append] at timed
    omega
  intro conn' older' shape live'
  cases step with
  | connected | rested => exact inv conn' older' shape live'
  | failed _ attempt follows =>
      exact absurd live' (not_live_of_ended (follows.connections_failed attempt) shape)
  | dropped _ _ follows =>
      exact absurd live' (not_live_of_ended follows.connections_eq shape)
  | opened _ accepted event_eq follows =>
      have fresh := follows.connections_opened accepted event_eq
      obtain ⟨rfl, _⟩ := List.cons.inj (fresh.symm.trans shape)
      exact credited_opened monotone accepted event_eq follows
  | starved _ follows | waited _ follows | kept _ follows =>
      have before := follows.connections_eq.symm.trans shape
      have arrivals := (Sys.arrivals_of_calls follows.calls_eq).trans (List.append_nil _).symm
      exact (inv conn' older' before live').still monotone follows rfl rfl arrivals (List.forall_mem_nil _)
        (held before live') rfl
  | @exhausted _ _ chunk _ _ _ follows =>
      obtain ⟨conn, older, live, current⟩ := attached
      obtain ⟨rfl, _⟩ := List.cons.inj ((follows.connections_exhausted current).symm.trans shape)
      have arrivals := (Sys.arrivals_of_calls follows.calls_eq).trans (List.append_nil _).symm
      exact (inv conn older current live).still monotone follows rfl rfl arrivals (List.forall_mem_nil _)
        (held current live) rfl
  | @filled _ _ chunk _ _ _ _ room follows =>
      obtain ⟨conn, older, live, current⟩ := attached
      obtain ⟨rfl, _⟩ := List.cons.inj ((follows.connections_filled room current).symm.trans shape)
      have quiet := inv conn older current live
      have arrivals : s'.arrivals =
          s.arrivals ++ List.replicate chunk.bytes.length (host.clock s.ticks) := by
        rw [Sys.arrivals_of_calls follows.calls_eq]
        rcases room.calls_eq with rfl | ⟨_, rfl⟩ <;> rfl
      refine quiet.still monotone follows ?_ ?_ arrivals ?_ (held current live) rfl
      · rcases room.calls_eq with rfl | ⟨_, rfl⟩ <;> rfl
      · rcases room.calls_eq with rfl | ⟨_, rfl⟩ <;> rfl
      · intro time member
        exact (List.eq_of_mem_replicate member).le
  | took _ _ dispatches | overran _ _ dispatches =>
      obtain ⟨conn, older, live, current⟩ := attached
      obtain ⟨rfl, _⟩ := List.cons.inj ((dispatches.connections_eq current).symm.trans shape)
      exact (inv conn older current live).dispatched monotone dispatches

/-! ## What the server does, and the client can keep up with -/

/-- The deadline is re-armed for this frame: it is a keepalive or the greeting. -/
def CountsAsAlive (frame : List UInt8) : Prop :=
  frameType? frame = some .calv ∨ frameType? frame = some .barr
  deriving Decidable

/-- It is no longer than the timeout ago that the connection was opened, or that the last
byte of a keepalive came on it. -/
def Lately (host : Host) (frames : List (List UInt8)) (s : Sys) : Prop :=
  (∃ time ∈ s.openedAt, host.clock s.ticks ≤ time + synprotoTimeoutMs.toNat) ∨
    ∃ conn ∈ s.current, ∃ m < frames.length, ∃ frame ∈ frames[m]?, CountsAsAlive frame ∧
      (frames.take (m + 1)).flatten.length ≤ conn.appended.length ∧
      ∃ time ∈ s.arrivals[(frames.take (m + 1)).flatten.length - 1]?,
        host.clock s.ticks ≤ time + synprotoTimeoutMs.toNat

/-- At most `n` complete frames are waiting to be handed on. -/
def Waiting (frames : List (List UInt8)) (n : Nat) (s : Sys) : Prop :=
  ∀ conn ∈ s.current, ∀ m < frames.length,
    (frames.take (m + 1)).flatten.length ≤ conn.appended.length → m < conn.packets.length + n

def Stage.checks : Stage → Bool
  | .keepalive _ => true
  | _ => false

/-- The server sends these frames, a keepalive among them at least every five seconds, and
no more at a time than an iteration takes. -/
structure KeepsSide (host : Host) (frames : List (List UInt8)) (input : IterInput) (stage : Stage)
    (s : Sys) : Prop where
  fits : fetchesFit host input stage s
  /-- The code takes 0 for no descriptor. -/
  descriptor : input.socket ≠ 0
  stream : ∀ conn ∈ s.current, conn.received <+: frames.flatten
  waiting : stage = .process 0 → Waiting frames pktProcPerLoop s
  lately : stage.checks = true → Lately host frames s

theorem CountsAsAlive.rearms {pktBuf : Nat → UInt8} {n : Nat}
    (counts : CountsAsAlive (window pktBuf 0 n)) : rearms pktBuf = true := by
  have whole {type : PktType} (letters : frameType? (window pktBuf 0 n) = some type) : 8 ≤ n := by
    have spelled := List.find?_some letters
    have same := congrArg List.length (of_decide_eq_true spelled)
    have four : (ascii type.letters).length = 4 := by
      cases type <;> decide
    rw [four, List.length_take, List.length_drop, length_window] at same
    omega
  unfold MinputHop.rearms
  rcases counts with letters | letters
  · rw [← frameType?_window (whole letters), letters]
  · rw [← frameType?_window (whole letters), letters]

section Check

variable {host : Host} {serverAddr clientName : Vector UInt8 64} {serverPort : Int}
  {input : IterInput} {stage : Stage} {s : Sys} {retval : Int} {frames : List (List UInt8)}

/-- A keepalive that was handed on has re-armed the deadline behind its last byte. -/
theorem rearmedSince_of_keepalive {conn : Conn} (credited : Credited host conn s)
    (wire : ∀ frame ∈ frames, WireFrame frame) (handed : conn.dispatched <+: frames)
    {m time : Nat} {frame : List UInt8} (found : frames[m]? = some frame)
    (counts : CountsAsAlive frame) (before : m < conn.packets.length)
    (last : s.arrivals[(frames.take (m + 1)).flatten.length - 1]? = some time) :
    RearmedSince s time := by
  have inside : m < conn.dispatched.length := by
    rwa [Conn.dispatched, List.length_map]
  have packet : conn.packets[m]? = some conn.packets[m] := List.getElem?_eq_getElem before
  have same : frame = window conn.packets[m].1 0 conn.packets[m].2.toNat := by
    have front : conn.dispatched[m]? = some frame := by
      obtain ⟨rest, rfl⟩ := handed
      rwa [List.getElem?_append_left inside] at found
    rw [Conn.dispatched, List.getElem?_map, packet] at front
    exact (Option.some.inj front).symm
  have taken : conn.dispatched.take (m + 1) = frames.take (m + 1) := by
    obtain ⟨rest, rfl⟩ := handed
    rw [List.take_append_of_le_length inside]
  have some : 0 < (frames.take (m + 1)).flatten.length := by
    obtain ⟨byte, rest, rfl, _⟩ := (wire frame (List.mem_of_getElem? found)).first_byte
    have among : byte :: rest ∈ frames.take (m + 1) := by
      apply List.mem_of_getElem?
      rw [List.getElem?_take_of_lt (Nat.lt_succ_self m), found]
    exact Nat.lt_of_lt_of_le (Nat.succ_pos _) (List.sublist_flatten_of_mem among).length_le
  refine credited.handed m _ packet (same ▸ counts).rearms time ?_
  rw [taken]
  apply List.mem_of_getElem?
  rw [List.getElem?_take_of_lt (Nat.sub_lt some Nat.one_pos), last]

/-- Where nothing complete is waiting, a server that was heard lately is not given up. -/
theorem not_drops_of_lately (noWrap : ∀ tick, host.clock tick + synprotoTimeoutMs.toNat < 2 ^ 32)
    (wire : ∀ frame ∈ frames, WireFrame frame)
    (reach : Reach host (fetchesFit host) (minputMainSetup serverAddr clientName serverPort) input
      (.keepalive retval) s)
    (credited : CreditedIn host s)
    (stream : ∀ conn, s.current = some conn → conn.received <+: frames.flatten)
    (waiting : Waiting frames 0 s) (lately : Lately host frames s) : ¬Drops host s := by
  obtain ⟨conn, older, live, shape⟩ := Reach.attached reach
  have current : s.current = some conn := Sys.current_of_connections shape live
  obtain ⟨time, since, recent⟩ : ∃ time, RearmedSince s time ∧
      host.clock s.ticks ≤ time + synprotoTimeoutMs.toNat := by
    rcases lately with ⟨time, opened, recent⟩ |
      ⟨conn', current', m, inside, frame, found, counts, complete, time, last, recent⟩
    · exact ⟨time, ((credited conn older shape live).opened time opened).2, recent⟩
    · obtain rfl := Option.some.inj (current.symm.trans current')
      have keeps := ((Reach.reassembled (fun _ _ _ => id) reach).ledger.current conn older shape
        live).1
      have handed := keeps.faithful frames wire (keeps.arrived.trans (stream conn current))
      have before := waiting conn current m inside complete
      exact ⟨time, rearmedSince_of_keepalive (credited conn older shape live) wire handed found
        counts before last, recent⟩
  obtain ⟨rearmed, latest, behind⟩ := since
  obtain ⟨tick, _, same, deadline⟩ := Reach.armed reach
  obtain rfl := Option.some.inj (same.symm.trans latest)
  rintro ⟨late, _⟩
  have passed := (Armed.timedOut_iff deadline).mp late
  have deadlineFits := noWrap tick
  have nowFits := noWrap s.ticks
  rw [WrappedClock.Expired, Nat.mod_eq_of_lt deadlineFits, Nat.mod_eq_of_lt (by omega)] at passed
  omega

/-- Behind an idle call of the packet loop nothing complete is waiting. -/
theorem waiting_of_idle
    (reach : Reach host (fetchesFit host) (minputMainSetup serverAddr clientName serverPort) input
      stage s)
    (wire : ∀ frame ∈ frames, WireFrame frame)
    (stream : ∀ conn, s.current = some conn → conn.received <+: frames.flatten)
    (idle : ¬Claimed s.config) (n : Nat) : Waiting frames n s := by
  intro conn current m inside complete
  exact Nat.lt_add_right n
    (handed_of_complete reach current wire (stream conn current) idle inside complete)

end Check

/-! ## Runs -/

/-- What waits once the first packet of an iteration is dealt with. -/
def CaughtUp (frames : List (List UInt8)) : Stage → Sys → Prop
  | .process 0, _ => True
  | .process (pktProcIter + 1), s => Waiting frames (pktProcPerLoop - (pktProcIter + 1)) s
  | .keepalive _, s => Waiting frames 0 s
  | _, _ => True

/-- There is one connection at most, and it is in use. -/
def Single (s : Sys) : Prop :=
  s.connections = [] ∨
    ∃ conn, s.connections = [conn] ∧ conn.live = true ∧ s.config.socketFd ≠ 0

/-- What holds at each stage while the server keeps its side. -/
structure Steady (host : Host) (frames : List (List UInt8)) (stage : Stage) (s : Sys) : Prop where
  credited : CreditedIn host s
  caughtUp : CaughtUp frames stage s
  single : Single s

section Runs

variable {host : Host} {serverAddr clientName : Vector UInt8 64} {serverPort : Int}
  {input : IterInput} {stage stage' : Stage} {s s' : Sys} {frames : List (List UInt8)}

theorem caughtUp_afterPacket {pktProcIter : Nat}
    (waiting : Waiting frames (pktProcPerLoop - (pktProcIter + 1)) s)
    (idle : s.config.pktBufSz = 0 → Waiting frames 0 s) :
    CaughtUp frames (afterPacket pktProcIter s) s := by
  unfold afterPacket
  split
  · exact waiting
  · next last =>
      by_cases empty : s.config.pktBufSz = 0
      · exact idle empty
      · have spent : pktProcPerLoop - (pktProcIter + 1) = 0 := by
          have more : ¬pktProcIter + 1 < pktProcPerLoop :=
            fun more => last ⟨UInt32.pos_iff_ne_zero.mpr empty, more⟩
          omega
        rwa [spent] at waiting

/-- A packet more was handed on, and one less is waiting. -/
theorem Waiting.dispatched {n : Nat} (waiting : Waiting frames (n + 1) s) {conn : Conn}
    {older : List Conn} (live : conn.live = true) (current : s.connections = conn :: older)
    (dispatches : Dispatches host s s') : Waiting frames n s' := by
  intro conn' current' m inside complete
  have before : s.current = some conn := Sys.current_of_connections current live
  obtain ⟨_, _, shape⟩ := Sys.connections_of_current current'
  obtain ⟨rfl, _⟩ := List.cons.inj ((dispatches.connections_eq current).symm.trans shape)
  have within := waiting conn before m inside complete
  change m < (conn.packets ++ [_]).length + n
  rw [List.length_append, List.length_singleton]
  omega

theorem Step.caughtUp (step : Step host input stage s stage' s')
    (wire : ∀ frame ∈ frames, WireFrame frame)
    (reach : Reach host (fetchesFit host) (minputMainSetup serverAddr clientName serverPort) input
      stage s)
    (next : Reach host (fetchesFit host) (minputMainSetup serverAddr clientName serverPort) input
      stage' s')
    (side : KeepsSide host frames input stage s) (inv : CaughtUp frames stage s) :
    CaughtUp frames stage' s' := by
  cases step with
  | connected | failed | opened | starved | exhausted | filled | overran | dropped | kept =>
      trivial
  | rested => exact inv
  | waited idle follows =>
      have still : ¬Claimed s'.config := by
        rw [follows.config_eq]
        exact idle
      have stream : ∀ conn, s'.current = some conn → conn.received <+: frames.flatten := by
        rw [Sys.current, follows.connections_eq]
        exact side.stream
      exact caughtUp_afterPacket (waiting_of_idle next wire stream still _)
        fun _ => waiting_of_idle next wire stream still 0
  | @took _ _ pktProcIter _ _ dispatches =>
      obtain ⟨conn, older, live, current⟩ := Reach.attached reach
      have inUse : s.current = some conn := Sys.current_of_connections current live
      have stream : ∀ conn', s'.current = some conn' → conn'.received <+: frames.flatten := by
        intro conn' current'
        obtain ⟨_, _, shape⟩ := Sys.connections_of_current current'
        obtain ⟨rfl, _⟩ := List.cons.inj ((dispatches.connections_eq current).symm.trans shape)
        exact side.stream conn inUse
      have before : Waiting frames (pktProcPerLoop - pktProcIter) s := by
        cases pktProcIter with
        | zero => exact side.waiting rfl
        | succ pktProcIter => exact inv
      have counted := (Reach.startedFrom reach).1
      rw [show pktProcPerLoop - pktProcIter = pktProcPerLoop - (pktProcIter + 1) + 1 by omega]
        at before
      exact caughtUp_afterPacket (before.dispatched live current dispatches) fun empty =>
        waiting_of_idle next wire stream (fun claimed => claimed.1 empty) 0

theorem Single.only (single : Single s) {conn : Conn} {older : List Conn}
    (current : s.connections = conn :: older) : older = [] ∧ s.config.socketFd ≠ 0 := by
  rcases single with none | ⟨only, shape, _, up⟩
  · exact absurd (none.symm.trans current) nofun
  · exact ⟨(List.cons.inj (current.symm.trans shape)).2, up⟩

/-- Nothing but the keepalive check ends a connection. -/
theorem Step.single (step : Step host input stage s stage' s') (attached : Attached stage s)
    (descriptor : input.socket ≠ 0)
    (kept : stage.checks = true → ¬Drops host s) (single : Single s) : Single s' := by
  have fresh (down : s.config.socketFd = 0) : s.connections = [] := by
    rcases single with none | ⟨_, _, _, up⟩
    · exact none
    · exact absurd down up
  cases step with
  | connected | rested => exact single
  | failed down attempt follows =>
      unfold Single
      rw [follows.connections_failed attempt, fresh down]
      exact .inl rfl
  | opened down accepted event_eq follows =>
      refine .inr ⟨.opened, ?_, rfl, ?_⟩
      · rw [follows.connections_opened accepted event_eq, fresh down]
        rfl
      · rw [follows.config_eq]
        exact descriptor
  | dropped late up follows => exact absurd ⟨late, up⟩ (kept rfl)
  | starved _ follows | waited _ follows | kept _ follows =>
      unfold Single
      rw [follows.connections_eq, follows.config_eq]
      exact single
  | exhausted _ _ _ follows =>
      obtain ⟨conn, older, live, current⟩ := attached
      obtain ⟨rfl, up⟩ := single.only current
      unfold Single
      rw [follows.connections_exhausted current, follows.config_eq]
      exact .inr ⟨_, rfl, live, up⟩
  | filled _ room follows =>
      obtain ⟨conn, older, live, current⟩ := attached
      obtain ⟨rfl, up⟩ := single.only current
      unfold Single
      rw [follows.connections_filled room current, follows.config_eq]
      exact .inr ⟨_, rfl, live, up⟩
  | took _ _ dispatches | overran _ _ dispatches =>
      obtain ⟨conn, older, live, current⟩ := attached
      obtain ⟨rfl, up⟩ := single.only current
      unfold Single
      rw [dispatches.connections_eq current, dispatches.config_eq]
      exact .inr ⟨_, rfl, live, up⟩

/-- As long as the server keeps its side, on a clock that does not wrap, the connection
that the client makes first is never given up. -/
theorem Reach.never_given_up (monotone : Monotone host.clock)
    (noWrap : ∀ tick, host.clock tick + synprotoTimeoutMs.toNat < 2 ^ 32)
    (wire : ∀ frame ∈ frames, WireFrame frame)
    (reach : Reach host (KeepsSide host frames)
      (minputMainSetup serverAddr clientName serverPort) input stage s) : Single s := by
  have weaker {input : IterInput} {stage : Stage} {s : Sys}
      (reach : Reach host (KeepsSide host frames)
        (minputMainSetup serverAddr clientName serverPort) input stage s) :
      Reach host (fetchesFit host) (minputMainSetup serverAddr clientName serverPort) input
        stage s :=
    reach.mono fun _ _ _ side => side.fits
  have steady : Steady host frames stage s := by
    refine StagedLoop.Reach.invariant (by exact ⟨nofun, trivial, .inl rfl⟩) ?_ ?_ reach
    · intro input stage s reach side inv
      have step := stageStep_step host input stage s
      have reached := weaker reach
      have next := weaker (.step reach side)
      have attached := Reach.attached reached
      refine ⟨?_, step.caughtUp wire reached next side inv.caughtUp, ?_⟩
      · exact step.credited monotone attached (Reach.timed reached)
          (Reach.reassembled (fun _ _ _ => id) reached) inv.credited
      · refine step.single attached side.descriptor ?_ inv.single
        intro checks
        cases stage with
        | keepalive retval =>
            exact not_drops_of_lately noWrap wire reached inv.credited side.stream inv.caughtUp
              (side.lately rfl)
        | connect | fetch | process | returned => cases checks
    · exact fun s inv => ⟨inv.credited, trivial, inv.single⟩
  exact steady.single

end Runs

/-! ### A keepalive in time -/

instance (host : Host) (frames : List (List UInt8)) (s : Sys) : Decidable (Lately host frames s) :=
  inferInstanceAs (Decidable (_ ∨ _))

instance (frames : List (List UInt8)) (n : Nat) (s : Sys) : Decidable (Waiting frames n s) :=
  inferInstanceAs (Decidable (∀ conn ∈ s.current, ∀ m < frames.length, _ → _))

instance (host : Host) (frames : List (List UInt8)) (input : IterInput) (stage : Stage) (s : Sys) :
    Decidable (KeepsSide host frames input stage s) :=
  decidable_of_iff
    (fetchesFit host input stage s ∧ input.socket ≠ 0 ∧ (∀ conn ∈ s.current, conn.received <+: frames.flatten) ∧
      (stage = .process 0 → Waiting frames pktProcPerLoop s) ∧
      (stage.checks = true → Lately host frames s))
    ⟨fun ⟨fits, descriptor, stream, waiting, lately⟩ =>
        ⟨fits, descriptor, stream, waiting, lately⟩,
      fun side => ⟨side.fits, side.descriptor, side.stream, side.waiting, side.lately⟩⟩

/-- A machine whose clock is read every one and a half seconds. -/
def pacedHost : Host := { unixHost with clock := fun tick => 1500 * min tick 8 }

/-- A greeting, and a keepalive that comes with the second fetch. -/
def pacedFrames : List (List UInt8) :=
  [lengthPrefixed (ascii "Barrier" ++ [0, 1, 0, 6]), lengthPrefixed (ascii "CALV")]

def greeted : IterInput := receives ⟨pacedFrames.flatten.take 15, by decide, by decide⟩

def keptAlive : IterInput := receives ⟨pacedFrames.flatten.drop 15, by decide, by decide⟩

def afterGreeting : Stage × Sys := (mainLoop pacedHost).steps greeted 4 (.connect, defaultSetup)

def afterKeepalive : Stage × Sys :=
  (mainLoop pacedHost).steps keptAlive 4 (.connect, afterGreeting.2)

theorem reach_afterGreeting : Reach pacedHost (KeepsSide pacedHost pacedFrames) defaultSetup greeted
    (.returned 0) afterGreeting.2 :=
  Reach.after_steps (.first greeted) 4 (by decide +kernel) (by decide +kernel)

theorem reach_afterKeepalive : Reach pacedHost (KeepsSide pacedHost pacedFrames) defaultSetup
    keptAlive (.returned 0) afterKeepalive.2 :=
  Reach.after_steps (.next keptAlive reach_afterGreeting) 4 (by decide +kernel)
    (by decide +kernel)

/-- More than five seconds after the greeting the connection is still there. -/
theorem Reach.never_given_up_paced : 1500 * 7 = pacedHost.clock afterKeepalive.2.ticks ∧
    Single afterKeepalive.2 := by
  have monotone : Monotone pacedHost.clock := by
    intro first second le
    simp only [pacedHost]
    omega
  have noWrap : ∀ tick, pacedHost.clock tick + synprotoTimeoutMs.toNat < 2 ^ 32 := by
    intro tick
    have five : synprotoTimeoutMs.toNat = 5000 := rfl
    simp only [pacedHost, five]
    omega
  have wire : ∀ frame ∈ pacedFrames, WireFrame frame := by
    decide +kernel
  exact ⟨by decide +kernel, Reach.never_given_up monotone noWrap wire reach_afterKeepalive⟩

end MinputHop
