import MinputHop.Program.Dialogs
import MinputHop.Program.Reassembly
import MinputHop.Program.Keepalive

/-!
# Iterations inside iterations

A packet is handed on before it is removed from the buffer.  Two message boxes
can be open in between, and what the timer and the tray icon do behind them is
done to a buffer that still has the packet in front.
-/

namespace MinputHop

open FlatMemory Framing

/-! ## The property and the condition -/

/-- The size of the packet that was handed on and is still in the buffer. -/
def Point.inHand : Point → Option UInt32
  | .dialog (.clipboard _ claimSz) => some claimSz
  | .dialog (.globalAlloc claimSz) => some claimSz
  | _ => none

/-- The iteration ends for want of memory. -/
def Point.Refuses : Point → Prop
  | .dialog .realloc => True
  | .at (.returned retval) => retval = minhopErrAlloc
  | _ => False

/-- Where the innermost activation is; the message loop is behind all of them. -/
def Thread.top (thread : Thread) : Point :=
  match thread.stack with
  | [] => .at (.returned 0)
  | activation :: _ => activation.point

/-- Bytes that arrived have been dropped. -/
def Losing (stack : List Activation) : Prop :=
  ∃ activation ∈ stack, activation.point.Refuses

structure Exact (thread : Thread) : Prop where
  /-- Complete frames are handed on once, in order. -/
  once : ∀ conn ∈ thread.sys.connections, ∀ payloads : List (List UInt8),
    (∀ payload ∈ payloads, payload.length < 2 ^ 31) →
    conn.received <+: (payloads.map lengthPrefixed).flatten →
    conn.dispatched <+: payloads.map lengthPrefixed
  /-- What is gone from the buffer are the packets handed on, but for the one in hand. -/
  removed : ∀ conn, thread.sys.current = some conn →
    conn.appended = conn.dispatched.flatten ++
      thread.sys.buffered.drop (thread.top.inHand.getD 0).toNat
  /-- Nothing else is left out, unless a disconnect is due to follow. -/
  complete : ∀ conn, thread.sys.current = some conn → thread.sys.config.socketFd ≠ 0 →
    conn.appended = conn.received ∨ Losing thread.stack
  discarded : thread.sys.current = none → thread.sys.config.pktBufSz = 0
  /-- `pkt_buf_sz` can be reduced by every packet that is still to be removed. -/
  covered : ∀ activation ∈ thread.stack, ∀ pktProcIter claimSz,
    activation.point = .dialog (.clipboard pktProcIter claimSz) →
    claimSz ≤ thread.sys.config.pktBufSz

/-- Nothing is appended on a connection that data was lost on. -/
def Seamless (input : IterInput) (s : Sys) : Prop :=
  ∀ conn, s.current = some conn → ∀ chunk, input.recv = some chunk →
    (UInt32.ofNat sockbufSz ≤ fetchSum s chunk ∧ input.realloc = none) ∨
      conn.appended = conn.received

/-- What a fetch needs. -/
def Thread.Fetches (host : Host) : ThreadAct → Thread → Prop
  | .proceed _, ⟨⟨input, .at .fetch⟩ :: _, s, _⟩ => FetchFits host input s ∧ Seamless input s
  | _, _ => True

/-- Nothing happens behind a message box that has a packet in hand. -/
def Thread.Undisturbed : ThreadAct → Thread → Prop
  | .timer _, thread => thread.top.inHand = none
  | .exit, ⟨⟨_, .dialog (.clipboard _ _)⟩ :: _, s, _⟩ => s.config.socketFd = 0
  | _, _ => True

instance (input : IterInput) (s : Sys) : Decidable (Seamless input s) :=
  inferInstanceAs (Decidable (∀ conn ∈ s.current, ∀ chunk ∈ input.recv, _ ∧ _ ∨ _))

instance (host : Host) : (action : ThreadAct) → (thread : Thread) →
    Decidable (thread.Fetches host action)
  | .proceed _, ⟨⟨input, .at .fetch⟩ :: _, s, _⟩ =>
      inferInstanceAs (Decidable (FetchFits host input s ∧ Seamless input s))
  | .proceed _, ⟨[], _, _⟩ | .proceed _, ⟨⟨_, .dialog _⟩ :: _, _, _⟩
  | .proceed _, ⟨⟨_, .at .connect⟩ :: _, _, _⟩ | .proceed _, ⟨⟨_, .at (.process _)⟩ :: _, _, _⟩
  | .proceed _, ⟨⟨_, .at (.keepalive _)⟩ :: _, _, _⟩
  | .proceed _, ⟨⟨_, .at (.returned _)⟩ :: _, _, _⟩
  | .timer _, _ | .exit, _ | .close, _ | .save _ _, _ | .leave, _ => .isTrue trivial

instance : (action : ThreadAct) → (thread : Thread) → Decidable (thread.Undisturbed action)
  | .timer _, thread => inferInstanceAs (Decidable (thread.top.inHand = none))
  | .exit, ⟨⟨_, .dialog (.clipboard _ _)⟩ :: _, s, _⟩ =>
      inferInstanceAs (Decidable (s.config.socketFd = 0))
  | .exit, ⟨[], _, _⟩ | .exit, ⟨⟨_, .at _⟩ :: _, _, _⟩ | .exit, ⟨⟨_, .dialog .realloc⟩ :: _, _, _⟩
  | .exit, ⟨⟨_, .dialog (.globalAlloc _)⟩ :: _, _, _⟩ | .exit, ⟨⟨_, .dialog .offset⟩ :: _, _, _⟩
  | .proceed _, _ | .close, _ | .save _ _, _ | .leave, _ => .isTrue trivial

/-! ## The invariant -/

/-- A state without a packet in hand. -/
structure Settled (losing : Prop) (stage : Stage) (s : Sys) : Prop where
  capacity : Capacity s.config
  attached : Attached stage s
  ledger : Ledger (fun conn => ∃ pending, Keeps conn pending) (fun conn => Keeps conn s.buffered) s
  complete : s.config.socketFd ≠ 0 → ∀ conn older, s.connections = conn :: older →
    conn.live = true → conn.appended = conn.received ∨ losing
  idle : s.current = none → s.config.pktBufSz = 0

/-- What every state keeps, `claimSz` bytes of the buffer being in hand. -/
structure Kept (losing : Prop) (claimSz : UInt32) (s : Sys) : Prop where
  ledger : Ledger (fun conn => ∃ pending, Keeps conn pending)
    (fun conn => Keeps conn (s.buffered.drop claimSz.toNat)) s
  complete : s.config.socketFd ≠ 0 → ∀ conn older, s.connections = conn :: older →
    conn.live = true → conn.appended = conn.received ∨ losing
  idle : s.current = none → s.config.pktBufSz = 0

/-- A state with the packet of `before` in hand. -/
structure InHand (host : Host) (losing : Prop) (pktProcIter : Nat) (claimSz : UInt32)
    (before s : Sys) : Prop where
  settled : Settled losing (.process pktProcIter) before
  claimed : Claimed before.config
  claimSz_eq : claimSz = pktClaimSz before.config
  handsOn : HandsOn host before s

/-- What holds where the innermost activation is. -/
def Point.Holds (host : Host) (losing : Prop) : Point → Sys → Prop
  | .at stage, s => Settled losing stage s
  | .dialog .realloc, s => Settled losing (.returned minhopErrAlloc) s
  | .dialog .offset, s => Settled losing (.returned minhopErrOverflow) s
  | .dialog (.clipboard pktProcIter claimSz), s =>
      ∃ before, InHand host losing pktProcIter claimSz before s
  | .dialog (.globalAlloc claimSz), s =>
      (∃ pktProcIter before, InHand host losing pktProcIter claimSz before s) ∨
        Settled losing (.returned 0) s ∧ s.current = none

/-- The message boxes behind which the loop may go on. -/
def Point.Waits (point : Point) : Prop := point = .dialog .realloc ∨ point = .dialog .offset

structure Orderly (host : Host) (thread : Thread) : Prop where
  holds : thread.top.Holds host (Losing thread.stack) thread.sys
  waiting : ∀ activation ∈ thread.stack.tail, activation.point.Waits

theorem current_of_live {s : Sys} {conn : Conn} {older : List Conn}
    (shape : s.connections = conn :: older) (live : conn.live = true) : s.current = some conn := by
  rw [Sys.current, shape, List.head?_cons, Option.filter_some, if_pos live]

theorem current_of_ended {s s' : Sys}
    (ended : s'.connections = s.connections.modifyHead Conn.ended) : s'.current = none := by
  rw [Sys.current, ended]
  cases s.connections <;> rfl

namespace Settled

variable {losing losing' : Prop} {stage stage' : Stage} {s s' : Sys} {conn conn' : Conn}
  {older : List Conn}

theorem mono (settled : Settled losing stage s) (weaker : losing → losing') :
    Settled losing' stage s where
  capacity := settled.capacity
  attached := settled.attached
  ledger := settled.ledger
  complete up conn older shape live :=
    (settled.complete up conn older shape live).imp_right weaker
  idle := settled.idle

/-- In every stage, a descriptor in the record belongs to a connection. -/
theorem linked (settled : Settled losing stage s) : Attached (.returned 0) s := by
  have attached := settled.attached
  cases stage with
  | connect | returned => exact attached
  | fetch | process | keepalive => exact fun _ => attached

/-- An iteration may end in any stage, and the next one begin. -/
theorem moved (settled : Settled losing stage s) (retval : Int) :
    Settled losing (.returned retval) s :=
  ⟨settled.capacity, settled.linked, settled.ledger, settled.complete, settled.idle⟩

theorem entered (settled : Settled losing stage s) : Settled losing .connect s :=
  ⟨settled.capacity, settled.linked, settled.ledger, settled.complete, settled.idle⟩

/-- Nothing happened to the connections and to the buffer. -/
theorem unchanged (settled : Settled losing stage s) (attached : Attached stage' s')
    (connections_eq : s'.connections = s.connections) (config_eq : s'.config = s.config) :
    Settled losing stage' s' where
  capacity := config_eq ▸ settled.capacity
  attached := attached
  ledger := settled.ledger.unchanged connections_eq fun conn keeps => by
    rw [Sys.buffered, config_eq]
    exact keeps
  complete up conn older shape live :=
    settled.complete (config_eq ▸ up) conn older (connections_eq ▸ shape) live
  idle none := by
    rw [Sys.current, connections_eq] at none
    rw [config_eq]
    exact settled.idle none

/-- A line of the log was written. -/
theorem logged (settled : Settled losing stage s) (follows : Follows s s' s.config 0 [])
    (retval : Int) : Settled losing (.returned retval) s' := by
  have attached : Attached (.returned retval) s' := by
    intro up
    rw [follows.config_eq] at up
    obtain ⟨conn, older, live, shape⟩ := settled.linked up
    exact ⟨conn, older, live, follows.connections_eq.trans shape⟩
  exact settled.unchanged attached follows.connections_eq follows.config_eq

/-- The newest connection ended, and the buffer is empty. -/
theorem ended (settled : Settled losing stage s)
    (connections_eq : s'.connections = s.connections.modifyHead Conn.ended)
    (capacity : Capacity s'.config) (down : s'.config.socketFd = 0)
    (empty : s'.config.pktBufSz = 0) (retval : Int) : Settled losing' (.returned retval) s' where
  capacity := capacity
  attached up := absurd down up
  ledger := settled.ledger.ended ended_of_keeps connections_eq
  complete up := absurd down up
  idle _ := empty

/-- A connection opened, with an empty buffer. -/
theorem opened (settled : Settled losing stage s)
    (connections_eq : s'.connections = .opened :: s.connections.modifyHead Conn.ended)
    (capacity : Capacity s'.config) (empty : s'.config.pktBufSz = 0)
    (attached : Attached stage' s') : Settled losing' stage' s' where
  capacity := capacity
  attached := attached
  ledger := by
    refine settled.ledger.opened ended_of_keeps connections_eq ⟨[], Keeps.opened⟩ ?_
    rw [buffered_of_empty empty]
    exact Keeps.opened
  complete _ conn older shape _ := by
    obtain ⟨rfl, _⟩ := List.cons.inj (connections_eq.symm.trans shape)
    exact .inl rfl
  idle _ := empty

/-- The connection in use changed, and the buffer with it. -/
theorem changed (settled : Settled losing stage s) (before : s.connections = conn :: older)
    (after : s'.connections = conn' :: older) (live : conn'.live = true)
    (keeps : Keeps conn' s'.buffered)
    (complete : s'.config.socketFd ≠ 0 → conn'.appended = conn'.received ∨ losing')
    (capacity : Capacity s'.config) (attached : Attached stage' s') :
    Settled losing' stage' s' where
  capacity := capacity
  attached := attached
  ledger := settled.ledger.changed before after ⟨_, keeps⟩ keeps
  complete up conn older shape _ := by
    obtain ⟨rfl, _⟩ := List.cons.inj (after.symm.trans shape)
    exact complete up
  idle none := absurd none (current_ne_none after live)

end Settled

section Stages

variable {host : Host} {input : IterInput} {losing losing' : Prop} {stage stage' : Stage} {s s' : Sys}

theorem Step.settled (step : Step host input stage s stage' s')
    (fits : stage = .fetch → FetchFits host input s ∧ Seamless input s)
    (settled : Settled losing stage s) :
    Settled (losing ∨ stage' = .returned minhopErrAlloc) stage' s' := by
  have attached := step.attached settled.attached
  have capacity := step.capacity (fun fetch => (fits fetch).1) settled.capacity
  cases step with
  | connected | rested => exact (settled.unchanged attached rfl rfl).mono .inl
  | failed _ attempt follows =>
      exact settled.ended (follows.connections_failed attempt) capacity
        (by rw [follows.config_eq]; rfl) (by rw [follows.config_eq]; rfl) _
  | opened _ accepted event_eq follows =>
      exact settled.opened (follows.connections_opened accepted event_eq) capacity
        (by rw [follows.config_eq]; rfl) attached
  | starved _ follows | waited _ follows | kept _ follows =>
      exact (settled.unchanged attached follows.connections_eq follows.config_eq).mono .inl
  | @exhausted _ _ chunk _ _ _ follows =>
      obtain ⟨conn, older, live, current⟩ := settled.attached
      have keeps := settled.ledger.current conn older current live
      refine settled.changed current (follows.connections_exhausted current) live ?_
        (fun _ => .inr (.inr rfl)) capacity attached
      rw [buffered_of_config follows.config_eq rfl rfl]
      exact keeps.arrive chunk.bytes
  | @filled _ _ chunk _ _ _ received room follows =>
      obtain ⟨conn, older, live, current⟩ := settled.attached
      have keeps := settled.ledger.current conn older current live
      obtain ⟨fetchFits, seamless⟩ := fits rfl
      obtain ⟨sum, argument⟩ := fetchFits.of_room received room
      have complete : conn.appended = conn.received := by
        refine (seamless conn (current_of_live current live) chunk received).resolve_left ?_
        rintro ⟨full, refused⟩
        cases room with
        | kept small => exact small full
        | grown _ granted => exact absurd (refused.symm.trans granted) nofun
      refine settled.changed current (follows.connections_filled room current) live ?_
        (fun _ => .inl (congrArg (· ++ chunk.bytes) complete)) capacity attached
      rw [room.buffered_appended settled.capacity sum argument follows.config_eq]
      exact keeps.append complete chunk.bytes
  | took claimed _ dispatches | overran claimed _ dispatches =>
      obtain ⟨conn, older, live, current⟩ := settled.attached
      have keeps := settled.ledger.current conn older current live
      refine settled.changed current (dispatches.connections_eq current) live ?_ (fun up => ?_)
        capacity attached
      · rw [dispatches.buffered_eq claimed settled.capacity]
        exact keeps.take claimed _
      · rw [dispatches.config_eq] at up
        exact (settled.complete up conn older current live).imp_right .inl
  | dropped _ _ follows =>
      exact settled.ended follows.connections_eq capacity (by rw [follows.config_eq])
        (by rw [follows.config_eq]) _

/-- To quit leaves a state from which the loop could go on. -/
theorem Settled.quit (settled : Settled losing stage s) (fromUi : Bool) (retval : Int) :
    Settled losing' (.returned retval) (osioWinQuit fromUi s) := by
  rcases osioWinQuit_cases fromUi s with ⟨_, follows⟩ | ⟨down, follows⟩
  · exact settled.ended follows.connections_eq
      (follows.config_eq ▸ settled.capacity.emptied _ _) (by rw [follows.config_eq])
      (by rw [follows.config_eq]) retval
  · have down' : (osioWinQuit fromUi s).config.socketFd = 0 := follows.config_eq ▸ down
    have same : Settled losing (.returned retval) (osioWinQuit fromUi s) :=
      settled.unchanged (fun up => absurd down' up) follows.connections_eq follows.config_eq
    exact ⟨same.capacity, same.attached, same.ledger, fun up => absurd down' up, same.idle⟩

theorem Settled.cleanup (settled : Settled losing stage s) (retval : Int) :
    Settled losing (.returned retval) (minputMainCleanup s) := by
  rcases minputMainCleanup_cases s with ⟨_, follows⟩ | ⟨_, same⟩
  · exact settled.ended follows.connections_eq
      (follows.config_eq ▸ settled.capacity.emptied _ _) (by rw [follows.config_eq])
      (by rw [follows.config_eq]) retval
  · rw [same]
    exact settled.moved retval

/-- To connect where nothing is connected. -/
theorem Settled.connect (settled : Settled losing stage s) (down : s.config.socketFd = 0)
    (empty : s.config.pktBufSz = 0) (ended : s.connections.modifyHead Conn.ended = s.connections)
    (input : IterInput) (retval : Int) :
    Settled losing (.returned retval) (netioConnect host input s).2 := by
  have capacity := settled.capacity
  by_cases noSocket : input.socket = -1
  · obtain ⟨s', called, follows⟩ := netioConnect_noSocket host down noSocket
    rw [called]
    refine settled.ended (follows.connections_eq.trans ended.symm) ?_ ?_ ?_ retval
    all_goals rw [follows.config_eq]
    · exact ⟨capacity.allocated, capacity.held, capacity.atLeast, capacity.bounded⟩
    · exact down
    · exact empty
  · by_cases accepted : input.connect = 0
    · obtain ⟨s', called, follows⟩ := netioConnect_connected host down noSocket accepted
      have opened : s'.connections = .opened :: s.connections.modifyHead Conn.ended := by
        rw [follows.connections_eq, ended]
        simp only [List.foldl_cons, List.foldl_nil, trackConn, connectEvent, if_pos accepted]
      rw [called]
      refine settled.opened opened ?_ ?_ (fun _ => ⟨.opened, _, rfl, opened⟩)
      all_goals rw [follows.config_eq]
      · exact ⟨capacity.allocated, capacity.held, capacity.atLeast, capacity.bounded⟩
      · exact empty
    · obtain ⟨s', called, follows⟩ := netioConnect_refused host down noSocket accepted
      have failed : s'.connections = s.connections.modifyHead Conn.ended := by
        rw [follows.connections_eq]
        simp only [List.foldl_cons, List.foldl_nil, trackConn, connectEvent, if_neg accepted]
        rfl
      rw [called]
      refine settled.ended failed ?_ ?_ ?_ retval
      all_goals rw [follows.config_eq]
      exact capacity.emptied _ _

theorem Settled.save {platform : Platform} {fields : Fields} (settled : Settled losing stage s)
    (saved : osioWinSaveFields platform host fields input s = some s') (retval : Int) :
    Settled losing (.returned retval) s' := by
  obtain ⟨port, mid, follows, rfl⟩ := osioWinSaveFields_cases saved
  have capacity := settled.capacity
  have down : mid.config.socketFd = 0 := by rw [follows.config_eq]; rfl
  have empty : mid.config.pktBufSz = 0 := by rw [follows.config_eq]; rfl
  have ended : mid.connections = s.connections.modifyHead Conn.ended := follows.connections_eq
  have emptied : Capacity mid.config := by
    rw [follows.config_eq]
    exact ⟨capacity.allocated, Nat.zero_le _, capacity.atLeast, capacity.bounded⟩
  refine (settled.ended ended emptied down empty retval).connect down empty ?_ input retval
  rw [ended, modifyHead_ended_ended]

end Stages

namespace InHand

variable {host : Host} {losing losing' : Prop} {pktProcIter : Nat} {claimSz : UInt32}
  {before s s' : Sys}

theorem mono (inHand : InHand host losing pktProcIter claimSz before s)
    (weaker : losing → losing') : InHand host losing' pktProcIter claimSz before s :=
  ⟨inHand.settled.mono weaker, inHand.claimed, inHand.claimSz_eq, inHand.handsOn⟩

/-- Lines of the log leave it in hand. -/
theorem logged (inHand : InHand host losing pktProcIter claimSz before s)
    (follows : Follows s s' s.config 0 []) :
    InHand host losing pktProcIter claimSz before s' where
  settled := inHand.settled
  claimed := inHand.claimed
  claimSz_eq := inHand.claimSz_eq
  handsOn :=
    { config_eq := follows.config_eq.trans inHand.handsOn.config_eq
      ticks_eq := follows.ticks_eq.trans inHand.handsOn.ticks_eq
      calls_eq := by
        rw [follows.calls_eq, List.append_nil]
        exact inHand.handsOn.calls_eq
      mouse_eq := by
        rw [follows.mouseX_eq, follows.mouseY_eq]
        exact inHand.handsOn.mouse_eq }

theorem capacity (inHand : InHand host losing pktProcIter claimSz before s) :
    Capacity s.config := by
  have capacity := inHand.settled.capacity
  rw [inHand.handsOn.config_eq]
  exact ⟨capacity.allocated, capacity.held, capacity.atLeast, capacity.bounded⟩

theorem covered (inHand : InHand host losing pktProcIter claimSz before s) :
    claimSz ≤ s.config.pktBufSz := by
  rw [inHand.claimSz_eq, inHand.handsOn.config_eq]
  exact inHand.claimed.2

/-- The connection in use has it among the packets handed on already. -/
theorem kept (inHand : InHand host losing pktProcIter claimSz before s) :
    Kept losing claimSz s := by
  obtain ⟨settled, claimed, rfl, handsOn⟩ := inHand
  obtain ⟨conn, older, live, current⟩ := settled.attached
  have keeps := settled.ledger.current conn older current live
  have after := handsOn.connections_eq current
  have buffered_eq : s.buffered = before.buffered := buffered_of_config handsOn.config_eq rfl rfl
  have taken : Keeps (takenConn host before conn)
      (s.buffered.drop (pktClaimSz before.config).toNat) := by
    rw [buffered_eq]
    exact keeps.take claimed _
  refine ⟨settled.ledger.changed current after ⟨_, taken⟩ taken, ?_, fun none => ?_⟩
  · intro up other older' shape _
    obtain ⟨rfl, _⟩ := List.cons.inj (after.symm.trans shape)
    rw [handsOn.config_eq] at up
    exact settled.complete up conn older current live
  · exact absurd none (current_ne_none after live)

/-- A disconnect throws it away with the rest. -/
theorem discarded (inHand : InHand host losing pktProcIter claimSz before s) {elapsed : Nat}
    (follows : Follows s s' { s.config with socketFd := 0, pktBufSz := 0 } elapsed
      [.close s.config.socketFd]) :
    Settled losing' (.returned 0) s' ∧ s'.current = none := by
  have ended : s'.connections = s.connections.modifyHead Conn.ended := follows.connections_eq
  have down : s'.config.socketFd = 0 := by rw [follows.config_eq]
  refine ⟨⟨?_, fun up => absurd down up, inHand.kept.ledger.ended ended_of_keeps ended,
    fun up => absurd down up, fun _ => by rw [follows.config_eq]⟩, current_of_ended ended⟩
  rw [follows.config_eq]
  exact inHand.capacity.emptied _ _

end InHand

/-! ## Every action -/

section Actions

variable {host : Host} {input : IterInput} {losing losing' : Prop} {stage : Stage} {point : Point}
  {thread next : Thread} {action : ThreadAct} {s s' : Sys}

theorem Point.Holds.mono (holds : point.Holds host losing s) (weaker : losing → losing') :
    point.Holds host losing' s := by
  cases point with
  | «at» stage => exact Settled.mono holds weaker
  | dialog dialog =>
      cases dialog with
      | realloc | offset => exact Settled.mono holds weaker
      | clipboard => exact Exists.imp (fun _ inHand => InHand.mono inHand weaker) holds
      | globalAlloc =>
          rcases holds with ⟨pktProcIter, before, inHand⟩ | ⟨settled, none⟩
          · exact .inl ⟨pktProcIter, before, inHand.mono weaker⟩
          · exact .inr ⟨settled.mono weaker, none⟩

/-- A message box that waits needs nothing but a settled state. -/
theorem Point.Waits.holds (waits : point.Waits) (settled : Settled losing stage s) :
    point.Holds host losing s := by
  rcases waits with rfl | rfl
  · exact settled.moved _
  · exact settled.moved _

/-- Going on from a settled state. -/
theorem Proceeds.holds (proceeds : Proceeds host input stage s point s')
    (fits : stage = .fetch → FetchFits host input s ∧ Seamless input s)
    (settled : Settled losing stage s) : point.Holds host (losing ∨ point.Refuses) s' := by
  cases proceeds with
  | stepped step =>
      refine (step.settled fits settled).mono (Or.imp_right ?_)
      rintro rfl
      rfl
  | refused step => exact (step.settled fits settled).mono fun _ => .inr trivial
  | overran step =>
      refine (step.settled fits settled).mono (Or.imp_right fun same => ?_)
      exact absurd same (by decide)
  | short claimed handsOn => exact ⟨s, settled.mono .inl, claimed, rfl, handsOn⟩
  | unallocated claimed handsOn => exact .inl ⟨_, s, settled.mono .inl, claimed, rfl, handsOn⟩

theorem losing_cons (activation : Activation) (rest : List Activation) :
    Losing (activation :: rest) ↔ activation.point.Refuses ∨ Losing rest :=
  List.exists_mem_cons_iff _ _ _

/-- An activation is left in a settled state. -/
theorem Orderly.popped {rest : List Activation} (settled : Settled (Losing rest) stage s)
    (waiting : ∀ activation ∈ rest, activation.point.Waits) (phase : Phase) :
    Orderly host ⟨rest, s, phase⟩ := by
  cases rest with
  | nil => exact ⟨settled.moved 0, waiting⟩
  | cons activation rest =>
      refine ⟨(waiting activation List.mem_cons_self).holds settled, ?_⟩
      exact fun other member => waiting other (List.mem_cons_of_mem _ member)

/-- Where messages are looked at and no packet is in hand, all is settled. -/
theorem Orderly.listening (orderly : Orderly host thread) (listens : thread.listens = true)
    (free : thread.top.inHand = none) :
    Settled (Losing thread.stack) (.returned 0) thread.sys ∧
      ∀ activation ∈ thread.stack, activation.point.Waits := by
  obtain ⟨holds, waiting⟩ := orderly
  obtain ⟨_ | ⟨⟨input, stage | dialog⟩, rest⟩, s, phase⟩ := thread
  · exact ⟨holds, waiting⟩
  · cases listens
  · cases dialog with
    | realloc => exact ⟨Settled.moved holds 0, List.forall_mem_cons.mpr ⟨.inl rfl, waiting⟩⟩
    | offset => exact ⟨Settled.moved holds 0, List.forall_mem_cons.mpr ⟨.inr rfl, waiting⟩⟩
    | clipboard | globalAlloc => cases free

theorem Orderly.exited (orderly : Orderly host thread) (listens : thread.listens = true)
    (undisturbed : thread.Undisturbed .exit) (phase : Phase) :
    Orderly host ⟨thread.stack, osioWinQuit true thread.sys, phase⟩ := by
  cases free : thread.top.inHand with
  | none =>
      obtain ⟨settled, waiting⟩ := orderly.listening listens free
      exact .popped (settled.quit true 0) waiting phase
  | some claimSz =>
      obtain ⟨holds, waiting⟩ := orderly
      obtain ⟨_ | ⟨⟨input, stage | dialog⟩, rest⟩, s, _⟩ := thread
      · cases free
      · cases free
      · refine ⟨?_, waiting⟩
        cases dialog with
        | realloc | offset => cases free
        | clipboard pktProcIter claimSz =>
            have down : s.config.socketFd = 0 := undisturbed
            obtain ⟨before, inHand⟩ := holds
            rcases osioWinQuit_cases true s with ⟨up, _⟩ | ⟨_, follows⟩
            · exact absurd down up
            · exact ⟨before, inHand.logged follows⟩
        | globalAlloc claimSz =>
            rcases osioWinQuit_cases true s with ⟨_, follows⟩ | ⟨down, follows⟩
            · rcases holds with ⟨_, before, inHand⟩ | ⟨settled, _⟩
              · exact .inr (inHand.discarded follows)
              · exact .inr ⟨settled.quit true 0, current_of_ended follows.connections_eq⟩
            · rcases holds with ⟨pktProcIter, before, inHand⟩ | ⟨settled, none⟩
              · exact .inl ⟨pktProcIter, before, inHand.logged follows⟩
              · refine .inr ⟨settled.quit true 0, ?_⟩
                rw [Sys.current, follows.connections_eq]
                exact none

theorem Orderly.closed {dialog : Dialog} {rest : List Activation} {phase : Phase}
    (orderly : Orderly host ⟨⟨input, .dialog dialog⟩ :: rest, s, phase⟩)
    (closed : closeDialog dialog s = some (point, s')) :
    Orderly host ⟨⟨input, point⟩ :: rest, s', phase⟩ := by
  obtain ⟨holds, waiting⟩ := orderly
  refine ⟨?_, waiting⟩
  cases dialog with
  | realloc =>
      cases closed
      refine Point.Holds.mono holds fun losing => ?_
      exact (losing_cons _ _).mpr (((losing_cons _ _).mp losing).imp_left fun _ => rfl)
  | offset =>
      cases closed
      refine Point.Holds.mono holds fun losing => ?_
      exact (losing_cons _ _).mpr (((losing_cons _ _).mp losing).imp_left False.elim)
  | clipboard pktProcIter claimSz =>
      obtain ⟨before, settled, claimed, rfl, handsOn⟩ := holds
      have proceeds := handsOn.leave claimed (.inr rfl) input pktProcIter rfl
      rw [Option.some.inj closed] at proceeds
      refine (proceeds.holds nofun settled).mono fun losing => (losing_cons _ _).mpr ?_
      rcases losing with losing | refuses
      · exact ((losing_cons _ _).mp losing).imp_left False.elim
      · exact .inl refuses
  | globalAlloc claimSz => cases closed

theorem Orderly.moves (orderly : Orderly host thread) (moves : Thread.Moves host action thread next)
    (fits : thread.Fetches host action) (undisturbed : thread.Undisturbed action) :
    Orderly host next := by
  cases moves with
  | entered input listens =>
      obtain ⟨settled, waiting⟩ := orderly.listening listens undisturbed
      refine ⟨settled.entered.mono fun losing => ?_, waiting⟩
      exact (losing_cons _ _).mpr (.inr losing)
  | exited listens => exact orderly.exited listens undisturbed _
  | @proceeded _ _ stage _ _ _ _ _ running proceeds =>
      obtain ⟨holds, waiting⟩ := orderly
      refine ⟨(proceeds.holds ?_ holds).mono fun losing => (losing_cons _ _).mpr ?_, waiting⟩
      · rintro rfl
        exact fits
      · rcases losing with losing | refuses
        · refine ((losing_cons _ _).mp losing).imp_left fun refuses => ?_
          cases stage with
          | returned retval => exact absurd rfl (running retval)
          | connect | fetch | process | keepalive => cases refuses
        · exact .inl refuses
  | again =>
      obtain ⟨holds, waiting⟩ := orderly
      have fine : ¬(0 : Int) = minhopErrAlloc := by decide
      refine .popped (Settled.mono holds fun losing => ?_) waiting _
      exact ((losing_cons _ _).mp losing).resolve_left fine
  | broke => exact .popped (Settled.quit orderly.holds false 0) orderly.waiting _
  | closed closed => exact orderly.closed closed
  | saved saved =>
      exact .popped (Settled.save orderly.holds saved 0) orderly.waiting _
  | left =>
      have said := Settled.logged orderly.holds (follows_leaveMessageLoop _) 0
      exact .popped (said.cleanup 0) orderly.waiting _

end Actions

/-! ## Every run -/

section Runs

variable {host : Host} {thread : Thread} {serverAddr clientName : Vector UInt8 64}
  {serverPort : Int}

/-- The thread where the message loop begins. -/
def Thread.started (serverAddr clientName : Vector UInt8 64) (serverPort : Int) : Thread :=
  ⟨[], minputMainSetup serverAddr clientName serverPort, .running⟩

theorem orderly_started : Orderly host (.started serverAddr clientName serverPort) where
  holds :=
    { capacity := capacity_setup _ _ _
      attached := fun up => absurd rfl up
      ledger := .empty rfl
      complete := fun up => absurd rfl up
      idle := fun _ => rfl }
  waiting _ member := absurd member List.not_mem_nil

theorem Settled.kept {losing : Prop} {stage : Stage} {s : Sys} (settled : Settled losing stage s) :
    Kept losing 0 s :=
  ⟨settled.ledger, settled.complete, settled.idle⟩

theorem Point.Holds.kept {losing : Prop} {point : Point} {s : Sys}
    (holds : point.Holds host losing s) : Kept losing (point.inHand.getD 0) s := by
  cases point with
  | «at» stage => exact Settled.kept holds
  | dialog dialog =>
      cases dialog with
      | realloc | offset => exact Settled.kept holds
      | clipboard =>
          obtain ⟨before, inHand⟩ := holds
          exact inHand.kept
      | globalAlloc =>
          rcases holds with ⟨_, before, inHand⟩ | ⟨settled, none⟩
          · exact inHand.kept
          · -- The user quit behind the message box, and nothing is in use.
            refine ⟨⟨settled.ledger.past, fun conn older shape live => ?_⟩, settled.complete,
              settled.idle⟩
            exact absurd none (current_ne_none shape live)

/-- Only the innermost message box can have a packet to remove. -/
theorem Orderly.covered (orderly : Orderly host thread) {activation : Activation}
    (member : activation ∈ thread.stack) {pktProcIter : Nat} {claimSz : UInt32}
    (boxed : activation.point = .dialog (.clipboard pktProcIter claimSz)) :
    claimSz ≤ thread.sys.config.pktBufSz := by
  obtain ⟨holds, waiting⟩ := orderly
  obtain ⟨_ | ⟨⟨input, point⟩, rest⟩, s, phase⟩ := thread
  · exact absurd member List.not_mem_nil
  · rcases List.mem_cons.mp member with rfl | member
    · obtain rfl : point = .dialog (.clipboard pktProcIter claimSz) := boxed
      obtain ⟨before, inHand⟩ := holds
      exact inHand.covered
    · rcases waiting activation member with same | same
      · cases boxed.symm.trans same
      · cases boxed.symm.trans same

theorem Orderly.exact (orderly : Orderly host thread) : Exact thread := by
  obtain ⟨ledger, complete, idle⟩ := orderly.holds.kept
  refine ⟨?_, ?_, ?_, idle, ?_⟩
  · intro conn member
    obtain ⟨pending, keeps⟩ := ledger.past conn member
    exact keeps.once
  · intro conn current
    obtain ⟨live, older, shape⟩ := Sys.connections_of_current current
    exact (ledger.current conn older shape live).split
  · intro conn current up
    obtain ⟨live, older, shape⟩ := Sys.connections_of_current current
    exact complete up conn older shape live
  · exact fun activation member _ _ boxed => orderly.covered member boxed

/-- As long as nothing happens behind a message box that has a packet in hand,
every run is exact. -/
theorem exact_of_undisturbed
    (reach : Thread.Reach host
      (fun action thread => thread.Fetches host action ∧ thread.Undisturbed action)
      (.started serverAddr clientName serverPort) thread) : Exact thread := by
  have orderly : Orderly host thread :=
    reach.invariant orderly_started fun _ _ _ ⟨fits, undisturbed⟩ taken orderly =>
      orderly.moves (Thread.act_moves taken) fits undisturbed
  exact orderly.exact

end Runs

def win32Host : Host := { unixHost with sizeTBits := 32 }

def defaultStarted : Thread := .started defaultAddr defaultName 24800

/-- `DCLP` with the mark 2, and nothing behind it. -/
def shortClipboard : Chunk :=
  ⟨lengthPrefixed [0x44, 0x43, 0x4c, 0x50, 0, 0, 0, 0, 0, 2], by decide, by decide⟩

/-- An iteration hands it on, and the message box opens. -/
def boxActs : List ThreadAct :=
  [.timer (receives shortClipboard), .proceed true, .proceed true, .proceed true]

/-- The message box is closed, the iteration ends, and the user quits. -/
def closedActs : List ThreadAct :=
  boxActs ++ [.close, .proceed true, .proceed true, .exit, .leave]

theorem exact_of_undisturbed_closed :
    ∃ thread, ActionSystem.run (Thread.act win32Host)
        (fun action thread =>
          decide (thread.Fetches win32Host action ∧ thread.Undisturbed action)) closedActs
        defaultStarted = some thread ∧
      Exact thread := by
  have ran : (ActionSystem.run (Thread.act win32Host)
      (fun action thread =>
        decide (thread.Fetches win32Host action ∧ thread.Undisturbed action)) closedActs
      defaultStarted).isSome = true := by
    decide +kernel
  obtain ⟨thread, ran⟩ := Option.isSome_iff_exists.mp ran
  exact ⟨thread, ran, exact_of_undisturbed
    (.of_run (fun _ _ admitted => of_decide_eq_true admitted) .start ran)⟩

/-- The timer fires behind the message box. -/
def timerActs : List ThreadAct :=
  boxActs ++ [.timer receivesNothing, .proceed true, .proceed true, .proceed true]

/-- The packet is handed on once more. -/
theorem not_always_exact :
    ¬∀ (host : Host) (serverAddr clientName : Vector UInt8 64) (serverPort : Int)
      (thread : Thread),
      Thread.Reach host (fun action thread => thread.Fetches host action)
        (.started serverAddr clientName serverPort) thread → Exact thread := by
  intro always
  have wrong : (ActionSystem.run (Thread.act win32Host)
      (fun action thread => decide (thread.Fetches win32Host action)) timerActs
      defaultStarted).map (fun thread => thread.sys.connections.map fun conn =>
        (conn.received, conn.dispatched)) =
      some [(shortClipboard.bytes, [shortClipboard.bytes, shortClipboard.bytes])] := by
    decide +kernel
  obtain ⟨thread, ran, connections⟩ := Option.map_eq_some_iff.mp wrong
  have reach := ActionSystem.Reach.of_run (fun _ _ admitted => of_decide_eq_true admitted) .start ran
  have member := List.mem_singleton_self (shortClipboard.bytes,
    [shortClipboard.bytes, shortClipboard.bytes])
  rw [← connections] at member
  obtain ⟨conn, member, twice⟩ := List.mem_map.mp member
  obtain ⟨received, dispatched⟩ := Prod.mk.inj twice
  have once := (always _ _ _ _ thread reach).once conn member
    [[0x44, 0x43, 0x4c, 0x50, 0, 0, 0, 0, 0, 2]] (by decide) (received ▸ List.prefix_refl _)
  rw [dispatched] at once
  exact absurd once.length_le (by decide)

/-- To quit behind the message box empties the buffer, and the removal makes the
size wrap. -/
example : (ActionSystem.run (Thread.act win32Host)
    (fun action thread => decide (thread.Fetches win32Host action)) (boxActs ++ [.exit, .close])
    defaultStarted).map (·.sys.config.pktBufSz) = some (0 - 14) := by
  decide +kernel

end MinputHop
