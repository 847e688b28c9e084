import MinputHop.Program.Drain
import MinputHop.Program.EndToEnd

/-!
# When everything has arrived

What the server sent is not only done in order: once it has arrived, and as long as the
deadline is kept, enough quiet iterations do all of it.
-/

namespace MinputHop

open Service

section Older

variable {host : Host} {input : IterInput} {stage stage' : Stage} {s s' : Sys} {conn : Conn}
  {older : List Conn}

/-- No stage leads back to the first one. -/
theorem Step.ne_connect (step : Step host input stage s stage' s') : stage' ≠ .connect := by
  have behind (pktProcIter : Nat) : afterPacket pktProcIter s' ≠ .connect := by
    unfold afterPacket
    split
    · exact Stage.noConfusion
    · exact Stage.noConfusion
  cases step with
  | waited | took => exact behind _
  | connected | failed | opened | starved | exhausted | filled | overran | dropped | kept | rested =>
      exact Stage.noConfusion

/-- Where nothing is connected anew, the connections of the past stay as they are. -/
theorem Step.keeps_older (step : Step host input stage s stage' s')
    (shape : s.connections = conn :: older) (up : stage = .connect → s.config.socketFd ≠ 0) :
    ∃ conn', s'.connections = conn' :: older := by
  cases step with
  | connected | rested => exact ⟨conn, shape⟩
  | failed down | opened down => exact absurd down (up rfl)
  | starved _ follows | waited _ follows | kept _ follows =>
      exact ⟨conn, follows.connections_eq.trans shape⟩
  | exhausted _ _ _ follows => exact ⟨_, follows.connections_exhausted shape⟩
  | filled _ room follows => exact ⟨_, follows.connections_filled room shape⟩
  | took _ _ dispatches | overran _ _ dispatches => exact ⟨_, dispatches.connections_eq shape⟩
  | dropped _ _ follows =>
      refine ⟨conn.ended, follows.connections_eq.trans ?_⟩
      rw [shape]
      rfl

/-- So do they in an iteration that finds a connection. -/
theorem Visits.keeps_older (visits : Visits host input s stage s') (shape : s.connections = conn :: older)
    (up : s.config.socketFd ≠ 0) :
    (stage = .connect → s'.config.socketFd ≠ 0) ∧ ∃ conn', s'.connections = conn' :: older := by
  induction visits with
  | enter => exact ⟨fun _ => up, conn, shape⟩
  | @step stage state _ ih =>
      obtain ⟨up, _, shape⟩ := ih
      have step := stageStep_step host input stage state
      exact ⟨fun back => absurd back step.ne_connect, step.keeps_older shape up⟩

end Older

section Streams

variable {platform : Platform} {host : Host} {serverAddr clientName : Vector UInt8 64}
  {serverPort : Int} {input : IterInput} {s : Sys} {conn : Conn} {older : List Conn}
  {frames : List (List UInt8)} {earlier : List (List (List UInt8))} {inputs : List IterInput}

theorem forall₂_concat_iff {α β : Type} {R : α → β → Prop} {first : List α} {second : List β} {a : α}
    {b : β} : List.Forall₂ R (first ++ [a]) (second ++ [b]) ↔ List.Forall₂ R first second ∧ R a b := by
  rw [← List.forall₂_reverse_iff, List.reverse_concat, List.reverse_concat, List.forall₂_cons,
    List.forall₂_reverse_iff, and_comm]

/-- Quiet iterations in time serve the queue, and are a run on the same connection. -/
theorem Reach.serves {queue : Queue (List UInt8)} {tail : List UInt8} {start : Sys}
    (reach : Reach host inRange start input (.returned 0) s) (queued : Queued queue tail s)
    (shape : s.connections = conn :: older) (silent : ∀ input ∈ inputs, input.recv = none)
    (onTime : OnTime host inputs s) :
    ∃ s' last conn', osioLoop host inputs s = (0, s') ∧
      Reach host inRange start last (.returned 0) s' ∧
      Queued ((Queue.serve pktProcPerLoop)^[inputs.length] queue) tail s' ∧
      s'.connections = conn' :: older := by
  induction inputs generalizing input s queue conn with
  | nil => exact ⟨s, input, conn, rfl, reach, queued, shape⟩
  | cons next rest ih =>
      rw [List.forall_mem_cons] at silent
      obtain ⟨s', iterated, served, _⟩ := minputLoopIter_serves queued silent.1 onTime.1
      have visits := minputLoopIter_visits host next s
      have later := onTime.2
      rw [iterated] at visits later
      have within : ∀ stage s', Visits host next s stage s' → inRange next stage s' :=
        fun _ _ _ _ chunk received => absurd (silent.1.symm.trans received) (Option.some_ne_none _).symm
      have reach' := StagedLoop.Reach.visits (.next next reach) within visits
      obtain ⟨_, conn', shape'⟩ := visits.keeps_older shape queued.up
      rw [osioLoop, iterated, List.length_cons, Function.iterate_succ_apply]
      exact ih reach' served shape' silent.2 later

/-- The frames that arrived and were not handed on are what the buffer holds. -/
theorem Reach.queued_of_arrived (wide : 32 ≤ host.sizeTBits)
    (reach : Reach host inRange (minputMainSetup serverAddr clientName serverPort) input
      (.returned 0) s) (up : s.config.socketFd ≠ 0) (live : conn.live = true)
    (shape : s.connections = conn :: older) (wire : ∀ frame ∈ frames, WireFrame frame)
    (arrived : conn.received = frames.flatten) :
    ∃ waiting, frames = conn.dispatched ++ waiting ∧ Queued ⟨conn.dispatched, waiting⟩ [] s := by
  have inv := Reach.reassembled (fetchesFit_of_inRange wide) reach
  obtain ⟨keeps, complete⟩ := inv.ledger.current conn older shape live
  have appended : conn.appended = frames.flatten :=
    (complete (by decide)).trans arrived
  obtain ⟨waiting, rfl⟩ := keeps.faithful frames wire (appended ▸ List.prefix_refl _)
  have held := keeps.split
  rw [appended, List.flatten_append] at held
  have current : s.current = some conn := Sys.current_of_connections shape live
  have incomplete : Incomplete [] :=
    ⟨lengthPrefixed [], ⟨[], by decide, rfl⟩, List.nil_prefix, by decide⟩
  refine ⟨waiting, rfl, ⟨⟨conn, current, rfl⟩, ?_⟩, ?_, incomplete, ?_, up⟩
  · rw [List.append_nil]
    exact (List.append_cancel_left held).symm
  · exact fun frame member => wire frame (List.mem_append_right _ member)
  · exact Reach.capacity (fetchesFit_of_inRange wide) reach

/-- Once all frames of a connection have arrived, and as long as its deadline is kept, a
quiet iteration for each ten of them makes the desktop what all of them say, behind the
frames that came through on the connections before. -/
theorem Reach.everything_delivered (windows : platform ≠ .unix) (wide : 32 ≤ host.sizeTBits)
    (terminated : Terminated clientName)
    (reach : Reach host inRange (minputMainSetup serverAddr clientName serverPort) input
      (.returned 0) s) (up : s.config.socketFd ≠ 0)
    (carried : List.Forall₂ CarriedBy s.connections.reverse (earlier ++ [frames]))
    (arrived : ∀ conn ∈ s.current, conn.received = frames.flatten)
    (silent : ∀ input ∈ inputs, input.recv = none) (onTime : OnTime host inputs s)
    (enough : ∀ conn ∈ s.current,
      (frames.length - conn.dispatched.length) ⌈/⌉ pktProcPerLoop ≤ inputs.length)
    (left : Nat → UInt8) :
    ∃ s' fronts, osioLoop host inputs s = (0, s') ∧ s'.fronts = fronts ++ [frames] ∧
      List.Forall₂ (· <+: ·) fronts earlier ∧
      desktop platform host left s'.inputs =
        .ofFrames platform host left (fronts.flatten ++ frames) ∧
      MessageLoop.Reach platform host undisturbed
        (.start (minputMainSetup serverAddr clientName serverPort) true) (.idle s') := by
  obtain ⟨conn, older, live, shape⟩ := Reach.attached reach up
  have current : s.current = some conn := Sys.current_of_connections shape live
  rw [shape, List.reverse_cons, forall₂_concat_iff] at carried
  obtain ⟨past, own⟩ := carried
  obtain ⟨waiting, all, queued⟩ :=
    Reach.queued_of_arrived wide reach up live shape own.wire (arrived conn current)
  obtain ⟨s', last, conn', looped, reach', served, shape'⟩ :=
    Reach.serves reach queued shape silent onTime
  have short : waiting.length ⌈/⌉ pktProcPerLoop ≤ inputs.length := by
    have rounds := enough conn current
    rwa [all, List.length_append, Nat.add_sub_cancel_left] at rounds
  have drained := (Queue.waiting_iterate_eq_nil (by decide) ⟨conn.dispatched, waiting⟩ _).mpr short
  have whole := Queue.served_append_waiting pktProcPerLoop inputs.length ⟨conn.dispatched, waiting⟩
  rw [drained, List.append_nil, ← all] at whole
  obtain ⟨⟨other, current', dispatched⟩, buffered⟩ := served.holds
  obtain ⟨live', _, same⟩ := Sys.connections_of_current current'
  obtain ⟨rfl, _⟩ := List.cons.inj (same.symm.trans shape')
  rw [drained] at buffered
  rw [whole] at dispatched
  have inv := Reach.reassembled (fetchesFit_of_inRange wide) reach'
  obtain ⟨keeps, complete⟩ := inv.ledger.current other older shape' live'
  have received : other.received = frames.flatten := by
    rw [← complete (by decide), keeps.split, dispatched, buffered]
    exact List.append_nil _
  have carried' : List.Forall₂ CarriedBy s'.connections.reverse (earlier ++ [frames]) := by
    rw [shape', List.reverse_cons, forall₂_concat_iff]
    exact ⟨past, received ▸ List.prefix_refl _, own.wire, own.long⟩
  obtain ⟨fronts, shown⟩ := Reach.fronts_of_streams windows wide terminated reach' carried' left
  have split : s'.fronts = older.reverse.map Conn.dispatched ++ [frames] := by
    rw [Sys.fronts, shape', List.reverse_cons, List.map_append, List.map_singleton, dispatched]
  rw [split, forall₂_concat_iff] at fronts
  refine ⟨s', _, looped, split, fronts.1, ?_, Reach.on_windows reach'⟩
  rw [shown, split, List.flatten_append, List.flatten_singleton]

end Streams

/-! ### A click behind ten keepalives -/

def lateFrames : List (List UInt8) :=
  List.replicate 10 (lengthPrefixed (ascii "CALV")) ++ clickFrames

def lateChunk : IterInput := receives ⟨lateFrames.flatten, by decide, by decide⟩

def afterTen : Stage × Sys := (mainLoop unixHost).steps lateChunk 13 (.connect, defaultSetup)

theorem reach_afterTen : Reach unixHost inRange defaultSetup lateChunk (.returned 0) afterTen.2 :=
  Reach.after_steps (.first lateChunk) 13 (by decide +kernel) (by decide +kernel)

/-- The move and the click wait for the second iteration. -/
theorem Reach.everything_delivered_late : afterTen.2.fronts.flatten.length = 10 ∧
    ∃ s' fronts, osioLoop unixHost [receivesNothing] afterTen.2 = (0, s') ∧
      s'.fronts = fronts ++ [lateFrames] ∧ List.Forall₂ (· <+: ·) fronts [] ∧
      desktop .win32 unixHost (fun _ => 0) s'.inputs =
        .ofFrames .win32 unixHost (fun _ => 0) (fronts.flatten ++ lateFrames) ∧
      MessageLoop.Reach .win32 unixHost undisturbed (.start defaultSetup true) (.idle s') := by
  have facts : afterTen.2.config.socketFd ≠ 0 ∧ afterTen.2.fronts.flatten.length = 10 ∧
      afterTen.2.connections.map Conn.received = [lateFrames.flatten] ∧
      (∀ conn ∈ afterTen.2.current, conn.received = lateFrames.flatten ∧
        conn.dispatched.length = 10) ∧
      ¬(atCheck unixHost receivesNothing afterTen.2).config.calvDeadline <
        UInt32.ofNat (unixHost.clock (atCheck unixHost receivesNothing afterTen.2).ticks) := by
    decide +kernel
  obtain ⟨up, ten, received, current, onTime⟩ := facts
  have well : (∀ frame ∈ lateFrames, WireFrame frame) ∧ ∀ frame ∈ lateFrames, LongEnough frame := by
    decide +kernel
  obtain ⟨conn, only, carried⟩ := List.map_eq_singleton_iff.mp received
  have streams : List.Forall₂ CarriedBy afterTen.2.connections.reverse ([] ++ [lateFrames]) := by
    rw [only]
    exact .cons ⟨carried ▸ List.prefix_refl _, well.1, well.2⟩ .nil
  have inTime : OnTime unixHost [receivesNothing] afterTen.2 := ⟨onTime, trivial⟩
  refine ⟨ten, Reach.everything_delivered (by decide) (by decide) terminated_defaultName reach_afterTen up
    streams
    (fun conn member => (current conn member).1) ?_ inTime ?_ _⟩
  · exact fun _ member => List.mem_singleton.mp member ▸ rfl
  · intro conn member
    rw [(current conn member).2]
    decide

end MinputHop
