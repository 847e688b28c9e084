import MinputHop.Program.Reading

/-!
# Keepalives behind a backlog

An iteration hands on as many complete packets as there are, up to its budget
of ten, and then checks the deadline.  A keepalive that arrived in time counts
unless ten packets or more were in front of it.
-/

namespace MinputHop

open FlatMemory Framing

/-! ## The packet loop -/

/-- Between `s` and `s'`, `n` packets were taken off the newest connection and
nothing arrived on it. -/
def Handed (s s' : Sys) (n : Nat) : Prop :=
  ∀ conn older, s.connections = conn :: older → ∃ conn' : Conn,
    s'.connections = conn' :: older ∧ conn'.live = conn.live ∧
      conn'.received = conn.received ∧ conn'.appended = conn.appended ∧
      conn'.packets.length = conn.packets.length + n

section Loop

variable {host : Host} {s s' s'' : Sys} {m n : Nat}

theorem Handed.trans (first : Handed s s' m) (second : Handed s' s'' n) :
    Handed s s'' (m + n) := by
  intro conn older current
  obtain ⟨mid, current', live, received, appended, count⟩ := first conn older current
  obtain ⟨last, current'', live', received', appended', count'⟩ := second mid older current'
  exact ⟨last, current'', live'.trans live, received'.trans received, appended'.trans appended,
    by omega⟩

theorem Dispatches.handed (dispatches : Dispatches host s s') : Handed s s' 1 := by
  intro conn older current
  refine ⟨_, dispatches.connections_eq current, rfl, rfl, rfl, ?_⟩
  exact List.length_append

theorem processLoop_succ {budget : Nat} (called : processPacket host s = (0, s')) :
    processLoop host (budget + 1) s =
      if 0 < s'.config.pktBufSz ∧ 0 < budget then processLoop host budget s' else (0, s') := by
  rw [processLoop, called]
  exact if_neg (by decide)

/-- Without a complete packet in front, the loop does nothing. -/
theorem processLoop_idle (host : Host) (budget : Nat) (idle : ¬Claimed s.config) :
    ∃ s', processLoop host budget s = (0, s') ∧ Follows s s' s.config 0 [] := by
  induction budget generalizing s with
  | zero => exact ⟨s, rfl, Follows.refl s⟩
  | succ budget ih =>
      rcases processPacket_cases host s with ⟨_, after, called, follows⟩ | ⟨claimed, _⟩
      · rw [processLoop_succ called]
        split
        · obtain ⟨s', looped, rest⟩ := ih (s := after) (by rw [follows.config_eq]; exact idle)
          refine ⟨s', looped, ?_⟩
          have both := follows.trans rest
          rwa [follows.config_eq] at both
        · exact ⟨after, rfl, follows⟩
      · exact absurd claimed idle

end Loop

/-! ## Where the loop started -/

/-- In an iteration that is past its fetch, control came from the start of the
packet loop. -/
def StartedFrom (host : Host) (Admits : IterInput → Stage → Sys → Prop) (start : Sys)
    (input : IterInput) (stage : Stage) (s : Sys) : Prop :=
  match stage with
  | .process pktProcIter =>
      pktProcIter < pktProcPerLoop ∧ ∃ s₀, Reach host Admits start input (.process 0) s₀ ∧
        processLoop host pktProcPerLoop s₀ = processLoop host (pktProcPerLoop - pktProcIter) s
  | .keepalive retval =>
      ∃ s₀, Reach host Admits start input (.process 0) s₀ ∧
        processLoop host pktProcPerLoop s₀ = (retval, s)
  | _ => True

/-- One pass of the loop is one stage. -/
theorem startedFrom_process {host : Host} {Admits : IterInput → Stage → Sys → Prop} {start s : Sys}
    {input : IterInput} {pktProcIter : Nat}
    (started : StartedFrom host Admits start input (.process pktProcIter) s) :
    StartedFrom host Admits start input (stageStep host input (.process pktProcIter) s).1
      (stageStep host input (.process pktProcIter) s).2 := by
  obtain ⟨below, s₀, reach, same⟩ := started
  rw [show pktProcPerLoop - pktProcIter = (pktProcPerLoop - (pktProcIter + 1)) + 1 by omega]
    at same
  have more : pktProcIter + 1 < pktProcPerLoop ↔ 0 < pktProcPerLoop - (pktProcIter + 1) := by omega
  have passed {after : Sys} (called : processPacket host s = (0, after)) :
      StartedFrom host Admits start input (stageStep host input (.process pktProcIter) s).1
        (stageStep host input (.process pktProcIter) s).2 := by
    rw [stageStep_process called, afterPacket]
    rw [processLoop_succ called] at same
    by_cases again : 0 < after.config.pktBufSz ∧ pktProcIter + 1 < pktProcPerLoop
    · rw [if_pos ⟨again.1, more.mp again.2⟩] at same
      rw [if_pos again]
      exact ⟨again.2, s₀, reach, same⟩
    · rw [if_neg fun both => again ⟨both.1, more.mpr both.2⟩] at same
      rw [if_neg again]
      exact ⟨s₀, reach, same⟩
  rcases processPacket_cases host s with ⟨_, after, called, _⟩ | ⟨_, after, _, called⟩
  · exact passed called
  · cases moved : (shifted s.config).1 with
    | true =>
        rw [moved] at called
        exact passed called
    | false =>
        rw [moved] at called
        rw [stageStep, called]
        trivial

theorem Reach.startedFrom {host : Host} {Admits : IterInput → Stage → Sys → Prop} {start s : Sys}
    {input : IterInput} {stage : Stage} (reach : Reach host Admits start input stage s) :
    StartedFrom host Admits start input stage s := by
  induction reach with
  | first | next => trivial
  | @step input stage s reach admits ih =>
      have next := StagedLoop.Reach.step reach admits
      change StartedFrom _ _ _ _ (stageStep host input stage s).1 (stageStep host input stage s).2
      change Reach _ _ _ _ (stageStep host input stage s).1 (stageStep host input stage s).2 at next
      cases stage with
      | connect =>
          cases ensured : ensureConnected host input s with
          | mk connected after =>
              rw [stageStep, ensured]
              cases connected <;> trivial
      | fetch =>
          cases called : netioFetchPackets host input s with
          | mk retval after =>
              rw [stageStep, called] at next ⊢
              dsimp only at next ⊢
              by_cases failed : retval = minhopErrAlloc
              · rw [if_pos failed]
                trivial
              · rw [if_neg failed] at next ⊢
                exact ⟨by decide, after, next, rfl⟩
      | process pktProcIter => exact startedFrom_process ih
      | keepalive | returned => trivial

/-! ## Keepalives in time -/

/-- When each byte was appended on the newest connection. -/
def trackArrivals (times : List Nat) : Event → List Nat
  | .connect _ _ _ _ ret => if ret = 0 then [] else times
  | .memcpy time _ data _ => times ++ List.replicate data.length time
  | _ => times

def Sys.arrivals (s : Sys) : List Nat := s.calls.foldl trackArrivals []

theorem Sys.arrivals_of_calls {s s' : Sys} {calls : List Event}
    (extended : s'.calls = s.calls ++ calls) :
    s'.arrivals = calls.foldl trackArrivals s.arrivals := by
  rw [Sys.arrivals, extended, List.foldl_append]
  rfl

theorem foldl_trackArrivals_outputs (sockfd : Int) (outputs : List Output) (times : List Nat) :
    (outputs.map (Output.event sockfd)).foldl trackArrivals times = times := by
  induction outputs with
  | nil => rfl
  | cons output outputs ih => cases output <;> exact ih

/-- What was appended on the newest connection. -/
def newestAppended : List Conn → List UInt8
  | [] => []
  | conn :: _ => conn.appended

theorem newestAppended_ended (conns : List Conn) :
    newestAppended (conns.modifyHead Conn.ended) = newestAppended conns := by
  cases conns <;> rfl

/-- Every byte appended on the newest connection has its time. -/
def Timed (s : Sys) : Prop := s.arrivals.length = (newestAppended s.connections).length

theorem Step.timed {host : Host} {input : IterInput} {stage stage' : Stage} {s s' : Sys}
    (step : Step host input stage s stage' s') (attached : Attached stage s) (inv : Timed s) :
    Timed s' := by
  cases step with
  | connected | rested => exact inv
  | failed _ attempt follows =>
      rw [Timed, Sys.arrivals_of_calls follows.calls_eq, follows.connections_failed attempt,
        newestAppended_ended, ← inv]
      cases attempt with
      | noSocket => rfl
      | refused time fd addr port failed =>
          simp only [List.foldl_cons, List.foldl_nil, trackArrivals, if_neg failed]
  | opened _ accepted event_eq follows =>
      rw [Timed, Sys.arrivals_of_calls follows.calls_eq,
        follows.connections_opened accepted event_eq, event_eq]
      simp only [List.foldl_cons, List.foldl_nil, trackArrivals, connectEvent, if_pos accepted]
      rfl
  | starved _ follows | waited _ follows | kept _ follows =>
      rw [Timed, Sys.arrivals_of_calls follows.calls_eq, follows.connections_eq]
      exact inv
  | exhausted _ _ _ follows =>
      obtain ⟨conn, older, _, current⟩ := attached
      rw [Timed, current] at inv
      rw [Timed, Sys.arrivals_of_calls follows.calls_eq, follows.connections_exhausted current]
      exact inv
  | @filled _ _ chunk _ _ _ _ room follows =>
      obtain ⟨conn, older, _, current⟩ := attached
      rw [Timed, current] at inv
      have times : s'.arrivals =
          s.arrivals ++ List.replicate chunk.bytes.length (host.clock s.ticks) := by
        rw [Sys.arrivals_of_calls follows.calls_eq]
        rcases room.calls_eq with rfl | ⟨_, rfl⟩ <;> rfl
      rw [Timed, times, follows.connections_filled room current, List.length_append,
        List.length_replicate, inv]
      exact List.length_append.symm
  | took _ _ dispatches | overran _ _ dispatches =>
      obtain ⟨conn, older, _, current⟩ := attached
      rw [Timed, current] at inv
      rw [Timed, Sys.arrivals_of_calls dispatches.calls_eq, List.foldl_cons,
        foldl_trackArrivals_outputs, dispatches.connections_eq current]
      exact inv
  | dropped _ _ follows =>
      rw [Timed, Sys.arrivals_of_calls follows.calls_eq, follows.connections_eq]
      exact inv.trans (congrArg List.length (newestAppended_ended s.connections).symm)

theorem Reach.timed {host : Host} {Admits : IterInput → Stage → Sys → Prop}
    {serverAddr clientName : Vector UInt8 64} {serverPort : Int} {input : IterInput}
    {stage : Stage} {s : Sys}
    (reach : Reach host Admits (minputMainSetup serverAddr clientName serverPort) input stage s) :
    Timed s := by
  refine Reach.induction (fun _ s => Timed s) ?_
    (fun reach _ step inv => step.timed (Reach.attached reach) inv) id reach
  rfl

/-- The check drops the connection. -/
def Drops (host : Host) (s : Sys) : Prop := TimedOut host s ∧ s.config.socketFd ≠ 0

section Runs

variable {host : Host} {serverAddr clientName : Vector UInt8 64} {serverPort : Int}
  {input : IterInput} {stage : Stage} {s : Sys} {retval : Int}

/-- Where no complete packet is in front, every complete frame was handed on. -/
theorem handed_of_complete
    (reach : Reach host (fetchesFit host) (minputMainSetup serverAddr clientName serverPort) input
      stage s)
    {conn : Conn} (current : s.current = some conn) {frames : List (List UInt8)}
    (wire : ∀ frame ∈ frames, WireFrame frame) (stream : conn.received <+: frames.flatten)
    (idle : ¬Claimed s.config) {m : Nat} (inside : m < frames.length)
    (complete : (frames.take (m + 1)).flatten.length ≤ conn.appended.length) :
    m < conn.packets.length := by
  obtain ⟨live, older, shape⟩ := Sys.connections_of_current current
  have keeps := ((Reach.reassembled (fun _ _ _ => id) reach).ledger.current conn older shape live).1
  by_contra waiting
  have undelivered : conn.dispatched.length ≤ m := by
    rw [Conn.dispatched, List.length_map]
    omega
  obtain ⟨header, whole⟩ := keeps.faithful.complete_front (fun _ => WireFrame.isFrame) wire
    (keeps.arrived.trans stream) inside complete undelivered
  rw [s.length_buffered] at header whole
  exact idle (claimed_of_size header whole)

end Runs

/-! ### Checks behind one packet and behind ten -/

end MinputHop
