import MinputHop.Library.WrappedClock
import MinputHop.Program.Connections

/-!
# The keepalive timeout

While a connection lasts, the deadline is five seconds after the latest event
that re-armed it, as the 32-bit clock counts.  The check compares it with the
clock as plain numbers.
-/

namespace MinputHop

open FlatMemory

/-- When an event re-arms the deadline: at a connect, or at a packet that counts
as a keepalive. -/
def Event.rearmTime? : Event → Option Nat
  | .connect time _ _ _ ret => if ret = 0 then some time else none
  | .dispatch time pktBuf _ => if rearms pktBuf then some time else none
  | _ => none

/-- The real time of the latest event that re-armed the deadline. -/
def Sys.rearmedAt (s : Sys) : Option Nat := (s.calls.filterMap Event.rearmTime?).getLast?

/-- The check drops the connection exactly if it is more than the timeout since
the deadline was re-armed. -/
def KeepaliveLaw (host : Host) (s : Sys) : Prop :=
  (checkKeepalive host s).current = none ↔
    ∃ time, s.rearmedAt = some time ∧ synprotoTimeoutMs.toNat < host.clock s.ticks - time

/-! ## The deadline of a connection -/

/-- The deadline counts from the latest event that re-armed it. -/
def Armed (host : Host) (s : Sys) : Prop :=
  ∃ tick < s.ticks, s.rearmedAt = some (host.clock tick) ∧
    s.config.calvDeadline = UInt32.ofNat (host.clock tick) + synprotoTimeoutMs

/-- The deadline is armed wherever there is a connection. -/
def ArmedAt (host : Host) (stage : Stage) (s : Sys) : Prop :=
  match stage with
  | .connect | .returned _ => s.config.socketFd ≠ 0 → Armed host s
  | _ => Armed host s

section Effects

variable {host : Host} {s s' : Sys} {config : NetioCfg} {elapsed : Nat} {calls : List Event}

theorem Sys.rearmedAt_of_calls (extended : s'.calls = s.calls ++ calls) :
    s'.rearmedAt = (calls.filterMap Event.rearmTime?).getLast?.or s.rearmedAt := by
  rw [Sys.rearmedAt, extended, List.filterMap_append, List.getLast?_append]
  rfl

/-- Nothing re-armed the deadline. -/
theorem Armed.still (armed : Armed host s) (follows : Follows s s' config elapsed calls)
    (quiet : calls.filterMap Event.rearmTime? = [])
    (same : config.calvDeadline = s.config.calvDeadline) : Armed host s' := by
  obtain ⟨tick, before, rearmed, deadline⟩ := armed
  refine ⟨tick, ?_, ?_, ?_⟩
  · rw [follows.ticks_eq]
    omega
  · rw [Sys.rearmedAt_of_calls follows.calls_eq, quiet, rearmed]
    rfl
  · rw [follows.config_eq, same, deadline]

/-- A new connection arms the deadline. -/
theorem armed_opened {input : IterInput} {event : Event} (accepted : input.connect = 0)
    (event_eq : event = connectEvent host input { s with config.pktBufSz := 0 })
    (follows : Follows s s' (attempted host s input.socket) 1
      [.invalidate, .socket input.socket, event]) : Armed host s' := by
  have rearm : event.rearmTime? = some (host.clock s.ticks) := by
    rw [event_eq]
    exact if_pos accepted
  refine ⟨s.ticks, ?_, ?_, ?_⟩
  · rw [follows.ticks_eq]
    exact Nat.lt_succ_self _
  · rw [Sys.rearmedAt_of_calls follows.calls_eq, List.filterMap_cons_none rfl,
      List.filterMap_cons_none rfl, List.filterMap_cons_some rearm]
    rfl
  · rw [follows.config_eq]
    rfl

/-- The outputs of a packet do not re-arm anything. -/
theorem filterMap_rearmTime?_outputs (sockfd : Int) (outputs : List Output) :
    (outputs.map (Output.event sockfd)).filterMap Event.rearmTime? = [] := by
  rw [List.filterMap_map, List.filterMap_eq_nil_iff]
  intro output _
  cases output <;> rfl

/-- A packet re-arms the deadline or leaves it. -/
theorem Armed.dispatched (armed : Armed host s) (dispatches : Dispatches host s s') :
    Armed host s' := by
  have rearmed := Sys.rearmedAt_of_calls dispatches.calls_eq
  have config := dispatches.config_eq
  have ticks := dispatches.ticks_eq
  by_cases rearm : rearms s.config.pktBuf.cells = true
  · rw [if_pos rearm] at config ticks
    refine ⟨s.ticks, by omega, ?_, ?_⟩
    · have stamp : (Event.dispatch (host.clock s.ticks) s.config.pktBuf.cells
          (pktClaimSz s.config)).rearmTime? = some (host.clock s.ticks) := if_pos rearm
      rw [rearmed, List.filterMap_cons_some stamp, filterMap_rearmTime?_outputs]
      rfl
    · rw [config]
      rfl
  · rw [if_neg rearm] at config ticks
    obtain ⟨tick, before, last, deadline⟩ := armed
    refine ⟨tick, by omega, ?_, ?_⟩
    · have stamp : (Event.dispatch (host.clock s.ticks) s.config.pktBuf.cells
          (pktClaimSz s.config)).rearmTime? = none := if_neg rearm
      rw [rearmed, List.filterMap_cons_none stamp, filterMap_rearmTime?_outputs, last]
      rfl
    · rw [config]
      exact deadline

end Effects

theorem armedAt_afterPacket {host : Host} {pktProcIter : Nat} {s : Sys} (armed : Armed host s) :
    ArmedAt host (afterPacket pktProcIter s) s := by
  rw [afterPacket]
  split <;> exact armed

theorem Step.armed {host : Host} {input : IterInput} {stage stage' : Stage} {s s' : Sys}
    (step : Step host input stage s stage' s') (inv : ArmedAt host stage s) :
    ArmedAt host stage' s' := by
  cases step with
  | connected up => exact inv up
  | failed _ _ follows | dropped _ _ follows =>
      intro up
      rw [follows.config_eq] at up
      exact absurd rfl up
  | opened _ accepted event_eq follows => exact armed_opened accepted event_eq follows
  | starved _ follows => exact Armed.still inv follows rfl rfl
  | exhausted _ _ _ follows => exact fun _ => Armed.still inv follows rfl rfl
  | filled _ room follows =>
      refine Armed.still inv follows ?_ rfl
      rcases room.calls_eq with rfl | ⟨_, rfl⟩ <;> rfl
  | waited _ follows => exact armedAt_afterPacket (Armed.still inv follows rfl rfl)
  | took _ _ dispatches => exact armedAt_afterPacket (Armed.dispatched inv dispatches)
  | overran _ _ dispatches => exact fun _ => Armed.dispatched inv dispatches
  | kept _ follows => exact fun _ => Armed.still inv follows rfl rfl
  | rested => exact inv

section Runs

variable {host : Host} {Admits : IterInput → Stage → Sys → Prop}
  {serverAddr clientName : Vector UInt8 64} {serverPort : Int} {input : IterInput}
  {stage : Stage} {s : Sys} {retval : Int}

theorem Reach.armed
    (reach : Reach host Admits (minputMainSetup serverAddr clientName serverPort) input stage s) :
    ArmedAt host stage s :=
  Reach.induction (ArmedAt host) (fun up => absurd rfl up)
    (fun _ _ step inv => step.armed inv) id reach

/-! ## The check -/

/-- The check drops a connection exactly when the code finds it timed out. -/
theorem checkKeepalive_current_eq_none_iff (live : ∃ conn older, conn.live = true ∧
      s.connections = conn :: older) :
    (checkKeepalive host s).current = none ↔ TimedOut host s ∧ s.config.socketFd ≠ 0 := by
  obtain ⟨conn, older, live, current⟩ := live
  rcases checkKeepalive_cases host s with ⟨late, up, follows⟩ | ⟨still, follows⟩
  · refine iff_of_true ?_ ⟨late, up⟩
    rw [Sys.current, follows.connections_eq, current]
    rfl
  · refine iff_of_false ?_ still
    rw [Sys.current, follows.connections_eq, current]
    simp [live]

/-- Whether the comparison with the deadline tells the truth: it is made only on
a descriptor other than 0, and it is right only where deadline and clock are
comparable. -/
def CheckExact (host : Host) (rearmed : Nat) (s : Sys) : Prop :=
  if s.config.socketFd ≠ 0 then
    WrappedClock.Comparable (2 ^ 32) synprotoTimeoutMs.toNat rearmed (host.clock s.ticks)
  else host.clock s.ticks - rearmed ≤ synprotoTimeoutMs.toNat
  deriving Decidable

/-- The comparison in `uint32_t` is the one of the wrapped clock. -/
theorem Armed.timedOut_iff {tick : Nat}
    (deadline : s.config.calvDeadline = UInt32.ofNat (host.clock tick) + synprotoTimeoutMs) :
    TimedOut host s ↔
      WrappedClock.Expired (2 ^ 32) synprotoTimeoutMs.toNat (host.clock tick)
        (host.clock s.ticks) := by
  rw [TimedOut, UInt32.lt_iff_toNat_lt, deadline, UInt32.toNat_add, UInt32.toNat_ofNat',
    UInt32.toNat_ofNat', Nat.mod_add_mod, WrappedClock.Expired]

/-- In every run with a clock that does not go back, each check on a connection
obeys the law exactly if the comparison tells the truth there. -/
theorem keepaliveLaw_run (monotone : Monotone host.clock)
    (reach : Reach host Admits (minputMainSetup serverAddr clientName serverPort) input
      (.keepalive retval) s) :
    ∃ time, s.rearmedAt = some time ∧ time ≤ host.clock s.ticks ∧
      (KeepaliveLaw host s ↔ CheckExact host time s) := by
  obtain ⟨tick, before, rearmed, deadline⟩ := Reach.armed reach
  have past : host.clock tick ≤ host.clock s.ticks := monotone (Nat.le_of_lt before)
  refine ⟨host.clock tick, rearmed, past, ?_⟩
  have law : KeepaliveLaw host s ↔
      (TimedOut host s ∧ s.config.socketFd ≠ 0 ↔
        synprotoTimeoutMs.toNat < host.clock s.ticks - host.clock tick) := by
    rw [KeepaliveLaw, checkKeepalive_current_eq_none_iff (Reach.attached reach), rearmed]
    simp only [Option.some.injEq, exists_eq_left']
  rw [law, CheckExact]
  by_cases up : s.config.socketFd ≠ 0
  · rw [if_pos up, Armed.timedOut_iff deadline, and_iff_left up]
    exact WrappedClock.expired_iff_iff (by decide) past
  · have never : ¬(TimedOut host s ∧ s.config.socketFd ≠ 0) := fun both => up both.2
    rw [if_neg up, iff_false_left never, Nat.not_lt]

end Runs

/-- The first check of a client that receives nothing. -/
def firstCheck (host : Host) : Stage × Sys :=
  (mainLoop host).steps receivesNothing 3 (Stage.connect, defaultSetup)

theorem reach_firstCheck (host : Host) :
    Reach host anyStep defaultSetup receivesNothing (firstCheck host).1 (firstCheck host).2 :=
  StagedLoop.Reach.steps (fun _ _ _ => trivial) (.first receivesNothing) 3

/-- The check of the iteration behind it. -/
def secondCheck (host : Host) : Stage × Sys :=
  (mainLoop host).steps receivesNothing 3
    (Stage.connect, (osioLoop host [receivesNothing] defaultSetup).2)

theorem reach_secondCheck {host : Host} (ok : (osioLoop host [receivesNothing] defaultSetup).1 = 0) :
    Reach host anyStep defaultSetup receivesNothing (secondCheck host).1 (secondCheck host).2 := by
  obtain ⟨last, reach⟩ := osioLoop_run host defaultSetup [receivesNothing] (by decide)
  rw [ok] at reach
  have again : Reach host anyStep defaultSetup receivesNothing
      (Stage.connect, (osioLoop host [receivesNothing] defaultSetup).2).1
      (Stage.connect, (osioLoop host [receivesNothing] defaultSetup).2).2 := .next _ reach
  exact again.steps (fun _ _ _ => trivial) 3

/-- Four seconds after the connection nothing happens at the check, after eight it drops the
connection. -/
theorem keepaliveLaw_run_late :
    (KeepaliveLaw tickingHost (firstCheck tickingHost).2 ∧
      ¬TimedOut tickingHost (firstCheck tickingHost).2) ∧
    KeepaliveLaw tickingHost (secondCheck tickingHost).2 ∧
      (checkKeepalive tickingHost (secondCheck tickingHost).2).current.isNone := by
  have monotone : Monotone tickingHost.clock := fun _ _ => Nat.mul_le_mul_left 2000
  have first := reach_firstCheck tickingHost
  have second : Reach tickingHost anyStep defaultSetup receivesNothing (secondCheck tickingHost).1
      (secondCheck tickingHost).2 := reach_secondCheck (by decide +kernel)
  have facts : (firstCheck tickingHost).1 = .keepalive 0 ∧
      (secondCheck tickingHost).1 = .keepalive 0 ∧
      (firstCheck tickingHost).2.rearmedAt = some 0 ∧
      (secondCheck tickingHost).2.rearmedAt = some 0 ∧
      CheckExact tickingHost 0 (firstCheck tickingHost).2 ∧
      CheckExact tickingHost 0 (secondCheck tickingHost).2 ∧
      ¬TimedOut tickingHost (firstCheck tickingHost).2 ∧
      (checkKeepalive tickingHost (secondCheck tickingHost).2).current.isNone := by
    decide +kernel
  obtain ⟨atFirst, atSecond, armed, armed', exact, exact', kept, dropped⟩ := facts
  rw [atFirst] at first
  rw [atSecond] at second
  obtain ⟨time, same, _, law⟩ := keepaliveLaw_run monotone first
  obtain ⟨time', same', _, law'⟩ := keepaliveLaw_run monotone second
  obtain rfl : 0 = time := Option.some.inj (armed.symm.trans same)
  obtain rfl : 0 = time' := Option.some.inj (armed'.symm.trans same')
  exact ⟨⟨law.mpr exact, kept⟩, law'.mpr exact', dropped⟩

/-- A second before the clock wraps. -/
def wrappingHost : Host := { unixHost with clock := fun _ => 2 ^ 32 - 1000 }

/-- A connection made just before the clock wraps is dropped at once. -/
theorem keepaliveLaw_not_always :
    ¬∀ (host : Host) (serverAddr clientName : Vector UInt8 64) (serverPort : Int)
      (input : IterInput) (retval : Int) (s : Sys), Monotone host.clock →
      (∀ tick, host.clock (tick + 1) < host.clock tick + 2 ^ 31) →
      Reach host anyStep (minputMainSetup serverAddr clientName serverPort) input
        (.keepalive retval) s → KeepaliveLaw host s := by
  intro always
  have reach := reach_firstCheck wrappingHost
  rw [show (firstCheck wrappingHost).1 = .keepalive 0 by decide +kernel] at reach
  have law := always wrappingHost _ _ _ _ _ _ (fun _ _ _ => Nat.le_refl _)
    (fun _ => Nat.lt_add_of_pos_right (by decide)) reach
  have dropped : (checkKeepalive wrappingHost (firstCheck wrappingHost).2).current.isNone := by
    decide +kernel
  have rearmed : (firstCheck wrappingHost).2.rearmedAt = some (2 ^ 32 - 1000) := by
    decide +kernel
  obtain ⟨time, same, passed⟩ := law.mp (Option.isNone_iff_eq_none.mp dropped)
  obtain rfl : 2 ^ 32 - 1000 = time := Option.some.inj (rearmed.symm.trans same)
  exact absurd passed (by decide)

end MinputHop
