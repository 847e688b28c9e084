import MinputHop.Program.Handling

/-!
# Message boxes on top of one another

The packet that a message box is about is still in front of the buffer while the box is
open.  The next tick of the timer hands it on again, and so opens another box; nothing
in the code limits how many of them there are.
-/

namespace MinputHop

open ActionSystem

/-- The packet in front opens a message box whenever it is handed on. -/
structure Stuck (s : Sys) : Prop where
  up : s.config.socketFd ≠ 0
  claimed : Claimed s.config
  clipboard : clipboardPacket s.config.pktBuf.cells
  short : (pktClaimSz s.config).toNat < dclpBufStart

/-- The packet in front. -/
def Sys.front (s : Sys) : Packet := (s.config.pktBuf.cells, pktClaimSz s.config)

section Tick

variable {host : Host} {input : IterInput} {s s' : Sys} {config : NetioCfg} {elapsed : Nat}
  {calls : List Event}

/-- Only the buffer and the descriptor matter. -/
theorem Stuck.same (stuck : Stuck s) (up : s'.config.socketFd = s.config.socketFd)
    (buffer : s'.config.pktBuf = s.config.pktBuf) (size : s'.config.pktBufSz = s.config.pktBufSz) :
    Stuck s' ∧ s'.front = s.front := by
  have claim : pktClaimSz s'.config = pktClaimSz s.config := by
    rw [pktClaimSz, buffer]
    rfl
  refine ⟨⟨?_, ⟨?_, ?_⟩, ?_, ?_⟩, ?_⟩
  · rw [up]
    exact stuck.up
  · rw [size]
    exact stuck.claimed.1
  · rw [size, claim]
    exact stuck.claimed.2
  · rw [buffer]
    exact stuck.clipboard
  · rw [claim]
    exact stuck.short
  · rw [Sys.front, buffer, claim]
    rfl

theorem stepPoint_connect (allocated : Bool) (stuck : Stuck s) :
    stepPoint host allocated input .connect s = (.at .fetch, s) := by
  rw [stepPoint, stageStep, ensureConnected, if_neg stuck.up]
  · rfl
  · exact Stage.noConfusion
  · exact fun _ => Stage.noConfusion

theorem stepPoint_fetch (host : Host) (allocated : Bool) (s : Sys) (nothing : input.recv = none) :
    ∃ s', stepPoint host allocated input .fetch s = (.at (.process 0), s') ∧
      Follows s s' s.config 1 [.recv (host.clock s.ticks) s.config.socketFd none] := by
  rcases netioFetchPackets_cases host input s with ⟨_, s', called, follows⟩ |
    ⟨chunk, received, _⟩ | ⟨chunk, _, _, _, received, _⟩
  · refine ⟨s', ?_, follows⟩
    rw [stepPoint, called]
    rfl
  · exact absurd (nothing.symm.trans received) (Option.some_ne_none _).symm
  · exact absurd (nothing.symm.trans received) (Option.some_ne_none _).symm

theorem stepPoint_process (host : Host) (allocated : Bool) (input : IterInput) (pktProcIter : Nat)
    (stuck : Stuck s) :
    ∃ s', stepPoint host allocated input (.process pktProcIter) s =
        (.dialog (.clipboard pktProcIter (pktClaimSz s.config)), s') ∧ HandsOn host s s' := by
  refine ⟨(handOn host s).2, ?_, handOn_handsOn host s⟩
  have claimed : s.config.pktBufSz ≠ 0 ∧ pktClaimSz s.config ≤ s.config.pktBufSz := stuck.claimed
  rw [stepPoint, if_pos claimed]
  exact if_pos ⟨stuck.clipboard, stuck.short⟩

end Tick

/-- A message box is open, and the packet in front would open another one. -/
inductive BoxOpen : MessageLoop → Prop where
  | intro {input : IterInput} {dialog : Dialog} {rest : List Activation} {s : Sys}
      {delivery : Delivery} {cause : Option Cause} (stuck : Stuck s) :
      BoxOpen ⟨⟨⟨input, .dialog dialog⟩ :: rest, s, .running⟩, some delivery, cause, none⟩

/-- A tick of the timer, up to the next message box. -/
def tick (input : IterInput) : List LoopAct :=
  ThreadAct.timer input :: List.replicate 3 (ThreadAct.proceed true) |>.map LoopAct.dispatch

section Cascade

variable {platform : Platform} {host : Host} {input : IterInput} {loop : MessageLoop}

/-- Inside of a message, an iteration goes on by a stage. -/
theorem run_proceed {acts : List LoopAct} {point : Point} {rest : List Activation} {s s' : Sys}
    {delivery : Delivery} {cause : Option Cause} {stage : Stage}
    (running : ∀ retval, stage ≠ .returned retval)
    (stepped : stepPoint host true input stage s = (point, s')) :
    MessageLoop.run platform host (.dispatch (.proceed true) :: acts)
        ⟨⟨⟨input, .at stage⟩ :: rest, s, .running⟩, some delivery, cause, none⟩ =
      MessageLoop.run platform host acts
        ⟨⟨⟨input, point⟩ :: rest, s', .running⟩, some delivery, cause, none⟩ := by
  have acted : Thread.act host (.proceed true) ⟨⟨input, .at stage⟩ :: rest, s, .running⟩ =
      some ⟨⟨input, (stepPoint host true input stage s).1⟩ :: rest,
        (stepPoint host true input stage s).2, .running⟩ := Thread.act_proceed running
  have quiet : Thread.cause? (.proceed true) ⟨⟨input, .at stage⟩ :: rest, s, .running⟩ = none := by
    cases stage with
    | connect | fetch | process | keepalive => rfl
    | returned retval => exact absurd rfl (running retval)
  rw [stepped] at acted
  rw [MessageLoop.run, ActionSystem.run, if_pos rfl, MessageLoop.act, if_pos ⟨rfl, .inl rfl⟩,
    Thread.nested_of_running rfl acted, quiet]
  cases cause <;> rfl

/-- A tick that brings nothing opens a message box on top of the one that is open. -/
theorem tick_opens (platform : Platform) (host : Host) (box : BoxOpen loop) (nothing : input.recv = none) :
    ∃ next, MessageLoop.run platform host (tick input) loop = some next ∧ BoxOpen next ∧
      next.thread.stack.length = loop.thread.stack.length + 1 ∧
      next.thread.sys.front = loop.thread.sys.front ∧
      next.thread.sys.packets = loop.thread.sys.packets ++ [loop.thread.sys.front] := by
  cases box with
  | @intro input' dialog rest s delivery cause stuck =>
      obtain ⟨fetched, fetch, follows⟩ := stepPoint_fetch host true s nothing
      obtain ⟨still, front⟩ := stuck.same (congrArg NetioCfg.socketFd follows.config_eq)
        (congrArg NetioCfg.pktBuf follows.config_eq) (congrArg NetioCfg.pktBufSz follows.config_eq)
      obtain ⟨handed, process, handsOn⟩ := stepPoint_process host true input 0 still
      have up : handed.config.socketFd = fetched.config.socketFd := by
        rw [handsOn.config_eq]
      have buffer : handed.config.pktBuf = fetched.config.pktBuf := by
        rw [handsOn.config_eq]
      have size : handed.config.pktBufSz = fetched.config.pktBufSz := by
        rw [handsOn.config_eq]
      obtain ⟨again, front'⟩ := still.same up buffer size
      have entered : MessageLoop.run platform host (tick input)
          ⟨⟨⟨input', .dialog dialog⟩ :: rest, s, .running⟩, some delivery, cause, none⟩ =
          MessageLoop.run platform host (List.replicate 3 (.dispatch (.proceed true)))
            ⟨⟨⟨input, .at .connect⟩ :: ⟨input', .dialog dialog⟩ :: rest, s, .running⟩,
              some delivery, cause, none⟩ := by
        cases cause <;> rfl
      refine ⟨⟨⟨⟨input, .dialog (.clipboard 0 (pktClaimSz fetched.config))⟩ ::
        ⟨input', .dialog dialog⟩ :: rest, handed, .running⟩, some delivery, cause, none⟩,
        ?_, .intro again, rfl, front'.trans front, ?_⟩
      · rw [entered, List.replicate,
          run_proceed (fun _ => Stage.noConfusion) (stepPoint_connect true stuck), List.replicate,
          run_proceed (fun _ => Stage.noConfusion) fetch, List.replicate,
          run_proceed (fun _ => Stage.noConfusion) process]
        rfl
      · have first : Event.packet? (.dispatch (host.clock fetched.ticks)
            fetched.config.pktBuf.cells (pktClaimSz fetched.config)) = some fetched.front := rfl
        have quiet : fetched.packets = s.packets := by
          rw [packets_of_calls follows.calls_eq]
          exact List.append_nil _
        change handed.packets = s.packets ++ [s.front]
        rw [packets_of_calls handsOn.calls_eq, quiet, List.filterMap_cons_some first,
          packet?_outputs, front]

/-- So every tick that brings nothing opens one more, and hands the same packet on again. -/
theorem boxes_pile_up (platform : Platform) (host : Host) (box : BoxOpen loop) (inputs : List IterInput)
    (nothing : ∀ input ∈ inputs, input.recv = none) :
    ∃ next, MessageLoop.run platform host (inputs.flatMap tick) loop = some next ∧
      next.thread.stack.length = loop.thread.stack.length + inputs.length ∧
      next.thread.sys.packets =
        loop.thread.sys.packets ++ List.replicate inputs.length loop.thread.sys.front := by
  induction inputs generalizing loop with
  | nil => exact ⟨loop, rfl, rfl, (List.append_nil _).symm⟩
  | cons input inputs ih =>
      rw [List.forall_mem_cons] at nothing
      obtain ⟨middle, ran, open', deeper, front, packets⟩ := tick_opens platform host box nothing.1
      obtain ⟨next, ran', deep, all⟩ := ih open' nothing.2
      refine ⟨next, ?_, ?_, ?_⟩
      · rw [List.flatMap_cons]
        exact (run_append ran).trans ran'
      · rw [deep, deeper, List.length_cons]
        omega
      · rw [all, packets, front, List.append_assoc]
        rfl

end Cascade

/-! ### Sixteen bytes from the server -/

instance (s : Sys) : Decidable (Stuck s) :=
  decidable_of_iff
    (s.config.socketFd ≠ 0 ∧
      (s.config.pktBufSz ≠ 0 ∧ pktClaimSz s.config ≤ s.config.pktBufSz) ∧
      clipboardPacket s.config.pktBuf.cells ∧ (pktClaimSz s.config).toNat < dclpBufStart)
    ⟨fun ⟨up, claimed, clipboard, short⟩ => ⟨up, claimed, clipboard, short⟩,
      fun stuck => ⟨stuck.up, stuck.claimed, stuck.clipboard, stuck.short⟩⟩

theorem BoxOpen.of_listens {loop : MessageLoop} (inside : loop.thread.stack.isEmpty = false)
    (listens : loop.thread.listens = true) (running : loop.thread.phase = .running)
    (dispatching : loop.msg.isSome = true) (unfinished : loop.returned = none)
    (stuck : Stuck loop.thread.sys) : BoxOpen loop := by
  obtain ⟨⟨_ | ⟨⟨input, stage | dialog⟩, rest⟩, s, phase⟩, _ | delivery, cause, returned⟩ := loop
  · cases inside
  · cases inside
  · cases dispatching
  · cases listens
  · cases dispatching
  · obtain rfl : phase = .running := running
    obtain rfl : returned = none := unfinished
    exact .intro stuck

/-- The iteration that receives the packet, up to its message box. -/
def firstBoxActs : List LoopAct :=
  .getMessage (.timer (receives shortClipboard) 1 Int.one_pos) ::
    List.replicate 3 (.dispatch (.proceed true))

/-- One packet and three ticks lead to four message boxes. -/
theorem boxes_pile_up_four : ∃ loop next, MessageLoop.Reach .win32 win32Host anyLoopAct
      (.start defaultSetup true) loop ∧
    MessageLoop.run .win32 win32Host ((List.replicate 3 receivesNothing).flatMap tick) loop =
      some next ∧
    next.thread.stack.length = 1 + 3 ∧ next.thread.sys.packets.length = 1 + 3 := by
  have facts : (MessageLoop.run .win32 win32Host firstBoxActs (.start defaultSetup true)).map
      (fun loop => decide (loop.thread.stack.isEmpty = false ∧ loop.thread.listens = true ∧
        loop.thread.phase = .running ∧ loop.msg.isSome = true ∧ loop.returned = none ∧
        Stuck loop.thread.sys ∧ loop.thread.stack.length = 1 ∧
        loop.thread.sys.packets.length = 1)) = some true := by
    decide +kernel
  obtain ⟨loop, ran, facts⟩ := Option.map_eq_some_iff.mp facts
  obtain ⟨inside, listens, running, dispatching, unfinished, stuck, one, first⟩ :=
    of_decide_eq_true facts
  have box : BoxOpen loop := .of_listens inside listens running dispatching unfinished stuck
  have nothing : ∀ input ∈ List.replicate 3 receivesNothing, input.recv = none := by
    intro input member
    rw [List.eq_of_mem_replicate member]
    rfl
  obtain ⟨next, ticked, deep, packets⟩ := boxes_pile_up .win32 win32Host box _ nothing
  refine ⟨loop, next, .of_run (fun _ _ _ => trivial) .start ran, ticked, ?_, ?_⟩
  · rw [deep, one]
    rfl
  · rw [packets, List.length_append, first]
    rfl

end MinputHop
