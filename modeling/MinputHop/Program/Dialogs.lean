import MinputHop.Program.Session

/-!
# Message boxes

On Windows a line of the log with `MINPUT_STAT_ERROR` opens a message box, and
for as long as it is open it hands the timer and the tray icon to `WndProc`.  So
an iteration may begin, and the user may quit, in the middle of another one.
-/

namespace MinputHop

open FlatMemory

/-! ## One activation -/

/-- A message box, with what its caller needs when it is closed. -/
inductive Dialog where
  /-- "could not reallocate packet buffer!" -/
  | realloc
  /-- "clipboard buffer starts after packet ends!", in front of the removal. -/
  | clipboard (pktProcIter : Nat) (claimSz : UInt32)
  /-- "could not allocate clipboard buffer", in front of a copy through `NULL`. -/
  | globalAlloc (claimSz : UInt32)
  /-- "pkt offset too large!" -/
  | offset

inductive Point where
  | at (stage : Stage)
  | dialog (dialog : Dialog)

/-- The packet is one that the clipboard is set from. -/
def clipboardPacket (pktBuf : Nat → UInt8) : Prop :=
  PktType.ofCode? (pktTypeCode pktBuf) = some .dclp ∧ (synprotoExval8 pktBuf 8).toInt8 = 0 ∧
    (synprotoExval8 pktBuf 13).toInt8 = 2
  deriving Decidable

/-- `minput_loop_iter` behind a call of `netio_process_packets`. -/
def leavePacket (pktProcIter : Nat) (result : Int × Sys) : Point × Sys :=
  let (retval, s) := result
  let (retval, s) :=
    if retval = minhopErrProtocol then (0, osioPrintf .debug "protocol error!" [] s)
    else (retval, s)
  if retval = minhopErrOverflow then (.dialog .offset, s)
  else if 0 < s.config.pktBufSz ∧ pktProcIter + 1 < pktProcPerLoop then
    (.at (.process (pktProcIter + 1)), s)
  else (.at (.keepalive retval), s)

/-- A stage, up to the message box that it opens; `allocated` is the answer of
`GlobalAlloc()`. -/
def stepPoint (host : Host) (allocated : Bool) (input : IterInput) : Stage → Sys → Point × Sys
  | .fetch, s =>
      let (retval, s) := netioFetchPackets host input s
      (if retval = minhopErrAlloc then .dialog .realloc else .at (.process 0), s)
  | .process pktProcIter, s =>
      if s.config.pktBufSz ≠ 0 ∧ pktClaimSz s.config ≤ s.config.pktBufSz then
        let claimSz := pktClaimSz s.config
        let (retval, s') := handOn host s
        if clipboardPacket s.config.pktBuf.cells ∧ claimSz.toNat < dclpBufStart then
          (.dialog (.clipboard pktProcIter claimSz), s')
        else if clipboardPacket s.config.pktBuf.cells ∧ allocated = false then
          (.dialog (.globalAlloc claimSz),
            osioPrintf .error "could not allocate clipboard buffer of %lu bytes!"
              [.num (claimSz.toNat - dclpBufStart + 1)] s')
        else leavePacket pktProcIter (removePacket claimSz retval s')
      else leavePacket pktProcIter (netioProcessPackets host s)
  | stage, s =>
      let (stage, s) := stageStep host input stage s
      (.at stage, s)

/-- What follows when a message box is closed; `none` is undefined behaviour. -/
def closeDialog : Dialog → Sys → Option (Point × Sys)
  | .realloc, s => some (.at (.returned minhopErrAlloc), s)
  | .clipboard pktProcIter claimSz, s =>
      some (leavePacket pktProcIter (removePacket claimSz minhopErrProtocol s))
  | .globalAlloc _, _ => none
  | .offset, s => some (.at (.returned minhopErrOverflow), s)

/-- A message box that is closed at once. -/
def closeAtOnce : Point × Sys → Point × Sys
  | (.dialog dialog, s) => (closeDialog dialog s).getD (.dialog dialog, s)
  | (.at stage, s) => (.at stage, s)

/-! ### It is the iteration that Unix has -/

section Settled

variable {host : Host} {s : Sys}

theorem closeAtOnce_leavePacket (host : Host) (input : IterInput) (pktProcIter : Nat) (s : Sys) :
    closeAtOnce (leavePacket pktProcIter (netioProcessPackets host s)) =
      (.at (stageStep host input (.process pktProcIter) s).1,
        (stageStep host input (.process pktProcIter) s).2) := by
  rw [stageStep, processPacket, leavePacket]
  obtain ⟨retval, s'⟩ := netioProcessPackets host s
  dsimp only
  by_cases protocol : retval = minhopErrProtocol
  · have fine : ¬(0 : Int) = minhopErrOverflow := by decide
    rw [if_pos protocol]
    dsimp only
    rw [if_neg fine, if_neg fine]
    split <;> rfl
  · rw [if_neg protocol]
    dsimp only
    by_cases overflow : retval = minhopErrOverflow
    · rw [if_pos overflow, if_pos overflow, overflow]
      rfl
    · rw [if_neg overflow, if_neg overflow]
      split <;> rfl

/-- The message box about the clipboard is the line of the log. -/
theorem handOn_clipboard (host : Host) (clipboard : clipboardPacket s.config.pktBuf.cells)
    (short : (pktClaimSz s.config).toNat < dclpBufStart) :
    handOn host s = (minhopErrProtocol,
      osioPrintf .error "clipboard buffer starts after packet ends!" []
        (s.emit (.dispatch (host.clock s.ticks) s.config.pktBuf.cells (pktClaimSz s.config)))) := by
  obtain ⟨type, id, mark⟩ := clipboard
  rw [handOn, synprotoParseAndReply, type]
  dsimp only
  rw [if_neg (not_not.mpr id), if_neg (not_not.mpr mark), if_pos short]

/-- With every message box closed at once, of which there may be two, the stages
of the loop are left. -/
theorem closeAtOnce_stepPoint (host : Host) (input : IterInput) (stage : Stage) (s : Sys) :
    closeAtOnce (closeAtOnce (stepPoint host true input stage s)) =
      (.at (stageStep host input stage s).1, (stageStep host input stage s).2) := by
  cases stage with
  | connect | keepalive | returned => rfl
  | fetch =>
      rw [stepPoint, stageStep]
      obtain ⟨retval, s'⟩ := netioFetchPackets host input s
      dsimp only
      by_cases refused : retval = minhopErrAlloc
      · rw [if_pos refused, if_pos refused, refused]
        rfl
      · rw [if_neg refused, if_neg refused]
        rfl
  | process pktProcIter =>
      have settled := closeAtOnce_leavePacket host input pktProcIter s
      rw [stepPoint]
      by_cases claimed : s.config.pktBufSz ≠ 0 ∧ pktClaimSz s.config ≤ s.config.pktBufSz
      · have called := netioProcessPackets_of_claimed host claimed
        rw [if_pos claimed]
        dsimp only
        by_cases short : clipboardPacket s.config.pktBuf.cells ∧
            (pktClaimSz s.config).toNat < dclpBufStart
        · rw [if_pos short]
          rw [called, handOn_clipboard host short.1 short.2] at settled
          rw [handOn_clipboard host short.1 short.2]
          exact settled
        · rw [if_neg short, if_neg (fun both => Bool.noConfusion both.2), ← called, settled]
          rfl
      · rw [if_neg claimed, settled]
        rfl

end Settled

/-! ## All activations of the thread -/

/-- A run of `minput_loop_iter`, and where it is. -/
structure Activation where
  input : IterInput
  point : Point

inductive Phase where
  | running
  /-- `osio_win_quit` was called. -/
  | quitting
  | finished
  deriving DecidableEq

/-- The thread of the window.  The innermost activation stands first; every other
one has a message box open. -/
structure Thread where
  stack : List Activation
  sys : Sys
  phase : Phase

inductive ThreadAct where
  /-- `WM_TIMER` -/
  | timer (input : IterInput)
  /-- Exit, from the menu of the tray icon or of the window. -/
  | exit
  /-- The innermost activation goes on; `allocated` is the answer of `GlobalAlloc()`. -/
  | proceed (allocated : Bool)
  /-- The innermost message box is closed. -/
  | close
  | save (fields : Fields) (input : IterInput)
  /-- The message loop ends. -/
  | leave

/-- Messages are looked at in the message loop, or by the innermost message box. -/
def Thread.listens : Thread → Bool
  | ⟨[], _, phase⟩ => phase = .running
  | ⟨⟨_, .dialog _⟩ :: _, _, _⟩ => true
  | ⟨⟨_, .at _⟩ :: _, _, _⟩ => false

/-- A message box disables the window that the Save button is on. -/
def Thread.act (host : Host) : ThreadAct → Thread → Option Thread
  | .timer input, thread =>
      if thread.listens then
        some { thread with stack := ⟨input, .at .connect⟩ :: thread.stack }
      else none
  | .exit, thread =>
      if thread.listens then
        some { thread with sys := osioWinQuit true thread.sys, phase := .quitting }
      else none
  | .proceed allocated, ⟨⟨input, .at stage⟩ :: rest, s, phase⟩ =>
      match stage with
      | .returned retval =>
          if retval = 0 then some ⟨rest, s, phase⟩
          else some ⟨rest, osioWinQuit false s, .quitting⟩
      | stage =>
          let (point, s) := stepPoint host allocated input stage s
          some ⟨⟨input, point⟩ :: rest, s, phase⟩
  | .close, ⟨⟨input, .dialog dialog⟩ :: rest, s, phase⟩ =>
      (closeDialog dialog s).map fun (point, s) => ⟨⟨input, point⟩ :: rest, s, phase⟩
  | .save fields input, ⟨[], s, .running⟩ =>
      (osioWinSaveFields .win32 host fields input s).map fun s => ⟨[], s, .running⟩
  | .leave, ⟨[], s, phase⟩ =>
      if phase = .finished then none
      else some ⟨[], minputMainCleanup (leaveMessageLoop s), .finished⟩
  | _, _ => none

/-- The states met in the runs of the thread all of whose actions are admitted. -/
abbrev Thread.Reach (host : Host) := ActionSystem.Reach (Thread.act host)

/-! ## What each action can do -/

/-- Every way a stage can go, up to its message box. -/
inductive Proceeds (host : Host) (input : IterInput) : Stage → Sys → Point → Sys → Prop where
  | stepped {stage stage' : Stage} {s s' : Sys} (step : Step host input stage s stage' s') :
      Proceeds host input stage s (.at stage') s'
  | refused {stage : Stage} {s s' : Sys}
      (step : Step host input stage s (.returned minhopErrAlloc) s') :
      Proceeds host input stage s (.dialog .realloc) s'
  | overran {stage : Stage} {s s' : Sys}
      (step : Step host input stage s (.returned minhopErrOverflow) s') :
      Proceeds host input stage s (.dialog .offset) s'
  | short {pktProcIter : Nat} {s s' : Sys} (claimed : Claimed s.config)
      (handsOn : HandsOn host s s') :
      Proceeds host input (.process pktProcIter) s
        (.dialog (.clipboard pktProcIter (pktClaimSz s.config))) s'
  | unallocated {pktProcIter : Nat} {s s' : Sys} (claimed : Claimed s.config)
      (handsOn : HandsOn host s s') :
      Proceeds host input (.process pktProcIter) s
        (.dialog (.globalAlloc (pktClaimSz s.config))) s'

section Proceeds

variable {host : Host} {input : IterInput} {s s' : Sys} {pktProcIter : Nat}

/-- What is no overflow goes on, behind a line of the log at most. -/
theorem leavePacket_cases (pktProcIter : Nat) {retval : Int}
    (harmless : retval = 0 ∨ retval = minhopErrProtocol) (s : Sys) :
    ∃ s', leavePacket pktProcIter (retval, s) = (.at (afterPacket pktProcIter s'), s') ∧
      (s' = s ∨ s' = osioPrintf .debug "protocol error!" [] s) := by
  have fine : ¬(0 : Int) = minhopErrOverflow := by decide
  rcases harmless with rfl | rfl
  · refine ⟨s, ?_, .inl rfl⟩
    rw [leavePacket, afterPacket]
    dsimp only
    rw [if_neg (show ¬(0 : Int) = minhopErrProtocol by decide)]
    dsimp only
    rw [if_neg fine]
    split <;> rfl
  · refine ⟨_, ?_, .inr rfl⟩
    rw [leavePacket, afterPacket]
    dsimp only
    rw [if_pos rfl]
    dsimp only
    rw [if_neg fine]
    split <;> rfl

/-- A packet in hand is removed as it always is. -/
theorem HandsOn.leave (handsOn : HandsOn host s s') (claimed : Claimed s.config) {retval : Int}
    (harmless : retval = 0 ∨ retval = minhopErrProtocol) (input : IterInput)
    (pktProcIter : Nat) {left : Point × Sys}
    (left_eq : left = leavePacket pktProcIter (removePacket (pktClaimSz s.config) retval s')) :
    Proceeds host input (.process pktProcIter) s left.1 left.2 := by
  obtain ⟨dispatches, code⟩ := handsOn.remove retval
  rcases removed : removePacket (pktClaimSz s.config) retval s' with ⟨code', s''⟩
  rw [removed] at dispatches code left_eq
  subst left_eq
  cases moved : (shifted s.config).1 with
  | true =>
      obtain rfl : code' = retval := code.trans (if_pos moved)
      obtain ⟨after, left, logged⟩ := leavePacket_cases pktProcIter harmless s''
      rw [left]
      refine .stepped (.took claimed moved ?_)
      rcases logged with rfl | rfl
      · exact dispatches
      · exact dispatches.log
  | false =>
      have stuck : ¬(shifted s.config).1 = true := ne_true_of_eq_false moved
      obtain rfl : code' = minhopErrOverflow := code.trans (if_neg stuck)
      exact .overran (.overran claimed moved dispatches)

theorem stepPoint_proceeds (host : Host) (allocated : Bool) (input : IterInput) (stage : Stage)
    (s : Sys) : Proceeds host input stage s (stepPoint host allocated input stage s).1
      (stepPoint host allocated input stage s).2 := by
  have step := stageStep_step host input stage s
  cases stage with
  | connect | keepalive | returned => exact .stepped step
  | fetch =>
      rw [stageStep] at step
      rw [stepPoint]
      generalize netioFetchPackets host input s = fetched at step ⊢
      obtain ⟨retval, s'⟩ := fetched
      dsimp only at step ⊢
      by_cases refused : retval = minhopErrAlloc
      · rw [if_pos refused, refused] at step
        rw [if_pos refused]
        exact .refused step
      · rw [if_neg refused] at step
        rw [if_neg refused]
        exact .stepped step
  | process pktProcIter =>
      rw [stepPoint]
      by_cases claimed : s.config.pktBufSz ≠ 0 ∧ pktClaimSz s.config ≤ s.config.pktBufSz
      · have handsOn := handOn_handsOn host s
        rw [if_pos claimed]
        dsimp only
        split
        · exact .short claimed handsOn
        · split
          · exact .unallocated claimed handsOn.log
          · exact handsOn.leave claimed (synprotoParseAndReply_retval _ _ _ _) input pktProcIter rfl
      · rw [if_neg claimed]
        rcases netioProcessPackets_cases host s with ⟨_, s', called, follows⟩ | ⟨claimed', _⟩
        · rw [called]
          obtain ⟨after, left, logged⟩ := leavePacket_cases pktProcIter (.inl rfl) s'
          rw [left]
          refine .stepped (.waited claimed ?_)
          rcases logged with rfl | rfl
          · exact follows
          · exact follows.log
        · exact absurd claimed' claimed

end Proceeds

/-- Every way the thread can go. -/
inductive Thread.Moves (host : Host) : ThreadAct → Thread → Thread → Prop where
  | entered {thread : Thread} (input : IterInput) (listens : thread.listens = true) :
      Moves host (.timer input) thread
        { thread with stack := ⟨input, .at .connect⟩ :: thread.stack }
  | exited {thread : Thread} (listens : thread.listens = true) :
      Moves host .exit thread
        { thread with
          sys := osioWinQuit true thread.sys
          phase := .quitting }
  | proceeded {allocated : Bool} {input : IterInput} {stage : Stage} {point : Point}
      {rest : List Activation} {s s' : Sys} {phase : Phase}
      (running : ∀ retval, stage ≠ .returned retval) (proceeds : Proceeds host input stage s point s') :
      Moves host (.proceed allocated) ⟨⟨input, .at stage⟩ :: rest, s, phase⟩
        ⟨⟨input, point⟩ :: rest, s', phase⟩
  | again {allocated : Bool} {input : IterInput} {rest : List Activation} {s : Sys} {phase : Phase} :
      Moves host (.proceed allocated) ⟨⟨input, .at (.returned 0)⟩ :: rest, s, phase⟩
        ⟨rest, s, phase⟩
  | broke {allocated : Bool} {input : IterInput} {retval : Int} {rest : List Activation} {s : Sys}
      {phase : Phase} (error : retval ≠ 0) :
      Moves host (.proceed allocated) ⟨⟨input, .at (.returned retval)⟩ :: rest, s, phase⟩
        ⟨rest, osioWinQuit false s, .quitting⟩
  | closed {input : IterInput} {dialog : Dialog} {point : Point} {rest : List Activation}
      {s s' : Sys} {phase : Phase} (closed : closeDialog dialog s = some (point, s')) :
      Moves host .close ⟨⟨input, .dialog dialog⟩ :: rest, s, phase⟩
        ⟨⟨input, point⟩ :: rest, s', phase⟩
  | saved {fields : Fields} {input : IterInput} {s s' : Sys}
      (saved : osioWinSaveFields .win32 host fields input s = some s') :
      Moves host (.save fields input) ⟨[], s, .running⟩ ⟨[], s', .running⟩
  | left {s : Sys} {phase : Phase} :
      Moves host .leave ⟨[], s, phase⟩ ⟨[], minputMainCleanup (leaveMessageLoop s), .finished⟩

theorem Thread.act_moves {host : Host} {action : ThreadAct} {thread next : Thread}
    (taken : thread.act host action = some next) : Moves host action thread next := by
  cases action with
  | timer input =>
      rw [act] at taken
      split at taken
      · next listens => exact Option.some.inj taken ▸ .entered input listens
      · cases taken
  | exit =>
      rw [act] at taken
      split at taken
      · next listens => exact Option.some.inj taken ▸ .exited listens
      · cases taken
  | proceed allocated =>
      obtain ⟨_ | ⟨⟨input, stage | dialog⟩, rest⟩, s, phase⟩ := thread
      · cases taken
      · cases stage with
        | connect | fetch | process | keepalive =>
            exact Option.some.inj taken ▸ .proceeded nofun (stepPoint_proceeds host allocated _ _ _)
        | returned retval =>
            by_cases ok : retval = 0
            · subst ok
              exact Option.some.inj taken ▸ .again
            · rw [act, if_neg ok] at taken
              exact Option.some.inj taken ▸ .broke ok
      · cases taken
  | close =>
      obtain ⟨_ | ⟨⟨input, stage | dialog⟩, rest⟩, s, phase⟩ := thread
      · cases taken
      · cases taken
      · obtain ⟨⟨point, s'⟩, closed, rfl⟩ := Option.map_eq_some_iff.mp taken
        exact .closed closed
  | save fields input =>
      obtain ⟨_ | ⟨activation, rest⟩, s, phase⟩ := thread
      · cases phase with
        | running =>
            obtain ⟨s', saved, rfl⟩ := Option.map_eq_some_iff.mp taken
            exact .saved saved
        | quitting | finished => cases taken
      · cases taken
  | leave =>
      obtain ⟨_ | ⟨activation, rest⟩, s, phase⟩ := thread
      · rw [act] at taken
        split at taken
        · cases taken
        · exact Option.some.inj taken ▸ .left
      · cases taken

end MinputHop
