import MinputHop.Library.StagedLoop
import MinputHop.Program.Netio

/-!
# `minput_loop_iter`

The loop iteration as one function, and the same iteration cut into the stages
between its calls.  The function returns what the stages return, so every fact
about the stages of a run is a fact about runs of the function.
-/

namespace MinputHop

/-- One call of `netio_process_packets`.  A protocol error isn't a show-stopper. -/
def processPacket (host : Host) (s : Sys) : Int × Sys :=
  let (retval, s) := netioProcessPackets host s
  if retval = minhopErrProtocol then (0, osioPrintf .debug "protocol error!" [] s)
  else (retval, s)

/-- `do { ... } while( 0 < config->pkt_buf_sz && pkt_proc_iter < PKT_PROC_PER_LOOP )`,
with `budget` passes left. -/
def processLoop (host : Host) : Nat → Sys → Int × Sys
  | 0, s => (0, s)
  | budget + 1, s =>
      let (retval, s) := processPacket host s
      if retval = minhopErrOverflow then (retval, s)
      else if 0 < s.config.pktBufSz ∧ 0 < budget then processLoop host budget s
      else (retval, s)

/-- Check how we're doing for keepalives. -/
def checkKeepalive (host : Host) (s : Sys) : Sys :=
  let (timeNow, s) := osioGetTime host s
  if s.config.calvDeadline < timeNow then
    let s := osioPrintf .info "timed out (%lu past %lu), restarting!"
      [.num timeNow.toNat, .num s.config.calvDeadline.toNat] s
    if s.config.socketFd ≠ 0 then netioDisconnect s else s
  else s

/-- `if( 0 == config->socket_fd ) { ... }`; `false` is the jump to `cleanup`. -/
def ensureConnected (host : Host) (input : IterInput) (s : Sys) : Bool × Sys :=
  if s.config.socketFd = 0 then
    let s := { s with config.pktBufSz := 0 }
    let (retval, s) := netioConnect host input (s.emit .invalidate)
    (retval = 0, s)
  else (true, s)

/-- An allocation error is a show-stopper, that no data came is not. -/
def minputLoopIter (host : Host) (input : IterInput) (s : Sys) : Int × Sys :=
  let (connected, s) := ensureConnected host input s
  if connected then
    let (retval, s) := netioFetchPackets host input s
    if retval = minhopErrAlloc then (retval, s)
    else
      let (retval, s) := processLoop host pktProcPerLoop s
      if retval = minhopErrOverflow then (retval, s)
      else (retval, checkKeepalive host s)
  else (0, s)

/-- `osio_loop` on Unix, for as long as there are answers from outside. -/
def osioLoop (host : Host) : List IterInput → Sys → Int × Sys
  | [], s => (0, s)
  | input :: rest, s =>
      let (retval, s) := minputLoopIter host input s
      if retval = 0 then osioLoop host rest s else (retval, s)

/-! ## Stages -/

/-- Where control is in `minput_loop_iter`. -/
inductive Stage where
  | connect
  | fetch
  /-- Before the call of `netio_process_packets` with this `pkt_proc_iter`. -/
  | process (pktProcIter : Nat)
  /-- Before the keepalive check, with the result the packet loop left. -/
  | keepalive (retval : Int)
  | returned (retval : Int)
  deriving DecidableEq

def stageStep (host : Host) (input : IterInput) : Stage → Sys → Stage × Sys
  | .connect, s =>
      let (connected, s) := ensureConnected host input s
      (if connected then .fetch else .returned 0, s)
  | .fetch, s =>
      let (retval, s) := netioFetchPackets host input s
      (if retval = minhopErrAlloc then .returned retval else .process 0, s)
  | .process pktProcIter, s =>
      let (retval, s) := processPacket host s
      if retval = minhopErrOverflow then (.returned retval, s)
      else if 0 < s.config.pktBufSz ∧ pktProcIter + 1 < pktProcPerLoop then
        (.process (pktProcIter + 1), s)
      else (.keepalive retval, s)
  | .keepalive retval, s => (.returned retval, checkKeepalive host s)
  | .returned retval, s => (.returned retval, s)

/-- `osio_loop` on Unix: iterations follow one another while they return 0. -/
def mainLoop (host : Host) : StagedLoop.Loop IterInput Stage Sys where
  step := stageStep host
  entry := .connect
  again := .returned 0

/-- The states met in one iteration. -/
abbrev Visits (host : Host) := StagedLoop.Visits (mainLoop host)

/-- The states met in the runs of `osio_loop` all of whose steps are admitted. -/
abbrev Reach (host : Host) := StagedLoop.Reach (mainLoop host)

/-- A side condition that admits every step. -/
def anyStep (_ : IterInput) (_ : Stage) (_ : Sys) : Prop := True

/-! ## The function runs through the stages -/

theorem Visits.stageStep {host : Host} {input : IterInput} {start s s' : Sys}
    {stage stage' : Stage} (visits : Visits host input start stage s)
    (step : stageStep host input stage s = (stage', s')) :
    Visits host input start stage' s' := by
  have next := StagedLoop.Visits.step visits
  change StagedLoop.Visits _ _ _ (MinputHop.stageStep host input stage s).1
    (MinputHop.stageStep host input stage s).2 at next
  rwa [step] at next

theorem Reach.onward {host : Host} {Admits : IterInput → Stage → Sys → Prop} {start s : Sys}
    {input : IterInput} {stage : Stage} (reach : Reach host Admits start input stage s)
    (admits : Admits input stage s) :
    Reach host Admits start input (stageStep host input stage s).1
      (stageStep host input stage s).2 := .step reach admits

/-- Where control goes when the packet loop is left. -/
def afterLoop (result : Int × Sys) : Stage × Sys :=
  (if result.1 = minhopErrOverflow then .returned result.1 else .keepalive result.1, result.2)

/-- The packet loop runs through the `process` stages that are left. -/
theorem processLoop_visits {host : Host} {input : IterInput} {start s : Sys}
    {budget pktProcIter : Nat} (counted : pktProcIter + budget = pktProcPerLoop)
    (left : 0 < budget) (visits : Visits host input start (.process pktProcIter) s) :
    Visits host input start (afterLoop (processLoop host budget s)).1
      (afterLoop (processLoop host budget s)).2 := by
  induction budget generalizing pktProcIter s with
  | zero => exact absurd left (Nat.lt_irrefl 0)
  | succ budget ih =>
      have more : pktProcIter + 1 < pktProcPerLoop ↔ 0 < budget := by omega
      rw [processLoop]
      cases called : processPacket host s with
      | mk retval after =>
          by_cases overflow : retval = minhopErrOverflow
          · simp only [overflow, if_true]
            exact visits.stageStep (by simp [stageStep, afterLoop, called, overflow])
          · by_cases held : 0 < after.config.pktBufSz ∧ 0 < budget
            · simp only [overflow, held, and_self, if_true, if_false]
              have counted' : pktProcIter + 1 + budget = pktProcPerLoop := by omega
              apply ih counted' held.2
              exact visits.stageStep (by
                simp only [stageStep, called, overflow, more, held, and_self, if_true, if_false])
            · simp only [overflow, held, if_false]
              exact visits.stageStep (by
                simp only [stageStep, afterLoop, called, overflow, more, held, if_false])

section Iteration

variable {host : Host} {input : IterInput} {s connected fetched : Sys} {retval : Int}

theorem minputLoopIter_of_not_connected
    (ensured : ensureConnected host input s = (false, connected)) :
    minputLoopIter host input s = (0, connected) := by
  unfold minputLoopIter
  rw [ensured]
  rfl

theorem minputLoopIter_of_connected
    (ensured : ensureConnected host input s = (true, connected)) :
    minputLoopIter host input s =
      let (retval, s) := netioFetchPackets host input connected
      if retval = minhopErrAlloc then (retval, s)
      else
        let (retval, s) := processLoop host pktProcPerLoop s
        if retval = minhopErrOverflow then (retval, s)
        else (retval, checkKeepalive host s) := by
  unfold minputLoopIter
  rw [ensured]
  rfl

theorem minputLoopIter_of_alloc (ensured : ensureConnected host input s = (true, connected))
    (failed : netioFetchPackets host input connected = (minhopErrAlloc, fetched)) :
    minputLoopIter host input s = (minhopErrAlloc, fetched) := by
  rw [minputLoopIter_of_connected ensured, failed]
  exact if_pos rfl

theorem minputLoopIter_of_loop (ensured : ensureConnected host input s = (true, connected))
    (called : netioFetchPackets host input connected = (retval, fetched))
    (proceeds : retval ≠ minhopErrAlloc) :
    minputLoopIter host input s =
      if (processLoop host pktProcPerLoop fetched).1 = minhopErrOverflow then
        processLoop host pktProcPerLoop fetched
      else ((processLoop host pktProcPerLoop fetched).1,
        checkKeepalive host (processLoop host pktProcPerLoop fetched).2) := by
  rw [minputLoopIter_of_connected ensured, called]
  exact if_neg proceeds

/-- What `minput_loop_iter` returns, the stages return. -/
theorem minputLoopIter_visits (host : Host) (input : IterInput) (s : Sys) :
    Visits host input s (.returned (minputLoopIter host input s).1)
      (minputLoopIter host input s).2 := by
  have atConnect : Visits host input s .connect s := .enter
  cases ensured : ensureConnected host input s with
  | mk isConnected connected =>
      cases isConnected with
      | false =>
          rw [minputLoopIter_of_not_connected ensured]
          exact atConnect.stageStep (by simp [stageStep, ensured])
      | true =>
          have atFetch : Visits host input s .fetch connected :=
            atConnect.stageStep (by simp [stageStep, ensured])
          cases called : netioFetchPackets host input connected with
          | mk retval fetched =>
              by_cases failed : retval = minhopErrAlloc
              · subst failed
                rw [minputLoopIter_of_alloc ensured called]
                exact atFetch.stageStep (by simp [stageStep, called])
              · have atProcess : Visits host input s (.process 0) fetched :=
                  atFetch.stageStep (by simp [stageStep, called, failed])
                have looped := processLoop_visits (Nat.zero_add pktProcPerLoop) (by decide) atProcess
                rw [minputLoopIter_of_loop ensured called failed]
                by_cases overflow : (processLoop host pktProcPerLoop fetched).1 = minhopErrOverflow
                · simpa only [afterLoop, overflow, if_true] using looped
                · simp only [afterLoop, overflow, if_false] at looped
                  simp only [overflow, if_false]
                  exact looped.stageStep rfl

end Iteration

/-- An iteration that starts in a run stays inside it. -/
theorem minputLoopIter_reach {host : Host} {Admits : IterInput → Stage → Sys → Prop} {start s : Sys}
    {input : IterInput} (reach : Reach host Admits start input .connect s)
    (admits : ∀ stage s', Visits host input s stage s' → Admits input stage s') :
    Reach host Admits start input (.returned (minputLoopIter host input s).1)
      (minputLoopIter host input s).2 :=
  StagedLoop.Reach.visits reach admits (minputLoopIter_visits host input s)

/-- The state that `osio_loop` ends in is a state of a run. -/
theorem osioLoop_reach {host : Host} {start s : Sys} {inputs : List IterInput}
    (reach : ∀ input, Reach host anyStep start input .connect s) (some : inputs ≠ []) :
    ∃ last, Reach host anyStep start last (.returned (osioLoop host inputs s).1)
      (osioLoop host inputs s).2 := by
  induction inputs generalizing s with
  | nil => exact absurd rfl some
  | cons input rest ih =>
      have returned := minputLoopIter_reach (reach input) fun _ _ _ => trivial
      rw [osioLoop]
      cases iterated : minputLoopIter host input s with
      | mk retval after =>
          rw [iterated] at returned
          dsimp only at returned ⊢
          by_cases ok : retval = 0
          · subst ok
            rw [if_pos rfl]
            cases rest with
            | nil => exact ⟨input, returned⟩
            | cons next rest =>
                exact ih (fun fresh => .next fresh returned) (List.cons_ne_nil next rest)
          · rw [if_neg ok]
            exact ⟨input, returned⟩

/-- Whether a stage comes to rest, as the last one of an iteration does. -/
def Stage.rests : Stage → Bool
  | .returned _ => true
  | _ => false

/-- Whether a side condition admits every stage of an iteration, of which there are 13 at most
before it returns. -/
def iterAdmits (host : Host) (Admits : IterInput → Stage → Sys → Prop)
    [∀ input stage s, Decidable (Admits input stage s)] (input : IterInput) (s : Sys) : Bool :=
  (mainLoop host).admits Admits input 13 (.connect, s) &&
    ((mainLoop host).steps input 13 (.connect, s)).1.rests

def osioLoopAdmits (host : Host) (Admits : IterInput → Stage → Sys → Prop)
    [∀ input stage s, Decidable (Admits input stage s)] : List IterInput → Sys → Bool
  | [], _ => true
  | input :: rest, s =>
      iterAdmits host Admits input s &&
        osioLoopAdmits host Admits rest (minputLoopIter host input s).2

section Admitted

variable {host : Host} {Admits : IterInput → Stage → Sys → Prop}
  [∀ input stage s, Decidable (Admits input stage s)] {start s : Sys}

theorem Visits.admitted_of_iter {input : IterInput} (admits : iterAdmits host Admits input s = true)
    {stage : Stage} {s' : Sys} (visits : Visits host input s stage s') : Admits input stage s' := by
  obtain ⟨stages, last⟩ := (Bool.and_eq_true _ _).mp admits
  have rests : (mainLoop host).step input ((mainLoop host).steps input 13 (.connect, s)).1
      ((mainLoop host).steps input 13 (.connect, s)).2 =
      (mainLoop host).steps input 13 (.connect, s) := by
    cases reached : (mainLoop host).steps input 13 (.connect, s) with
    | mk stage after =>
        rw [reached] at last
        cases stage with
        | returned retval => rfl
        | _ => cases last
  exact StagedLoop.Visits.admitted visits stages rests

/-- A run goes on for stages that are admitted. -/
theorem Reach.after_steps {input : IterInput} {stage stage' : Stage}
    (reach : Reach host Admits start input stage s) (n : Nat)
    (admits : (mainLoop host).admits Admits input n (stage, s) = true)
    (ends : ((mainLoop host).steps input n (stage, s)).1 = stage') :
    Reach host Admits start input stage' ((mainLoop host).steps input n (stage, s)).2 := by
  have here : Reach host Admits start input (stage, s).1 (stage, s).2 := reach
  exact ends ▸ here.steps_within n fun _ less =>
    StagedLoop.Loop.admits_steps admits (Nat.le_of_lt less)

/-- Behind iterations that are admitted another one may start. -/
theorem osioLoop_next {inputs : List IterInput}
    (reach : ∀ input, Reach host Admits start input .connect s)
    (admits : osioLoopAdmits host Admits inputs s = true) (ok : (osioLoop host inputs s).1 = 0)
    (fresh : IterInput) : Reach host Admits start fresh .connect (osioLoop host inputs s).2 := by
  induction inputs generalizing s with
  | nil => exact reach fresh
  | cons input rest ih =>
      obtain ⟨here, later⟩ := (Bool.and_eq_true _ _).mp admits
      have returned := minputLoopIter_reach (reach input) fun _ _ => Visits.admitted_of_iter here
      rw [osioLoop] at ok ⊢
      cases iterated : minputLoopIter host input s with
      | mk retval after =>
          rw [iterated] at returned later ok
          dsimp only at returned later ok ⊢
          by_cases zero : retval = 0
          · subst zero
            rw [if_pos rfl] at ok ⊢
            exact ih (fun next => .next next returned) later ok
          · rw [if_neg zero] at ok
            exact absurd ok zero

end Admitted

theorem osioLoop_run (host : Host) (start : Sys) (inputs : List IterInput) (some : inputs ≠ []) :
    ∃ last, Reach host anyStep start last (.returned (osioLoop host inputs start).1)
      (osioLoop host inputs start).2 :=
  osioLoop_reach (fun _ => .first _) some

end MinputHop
