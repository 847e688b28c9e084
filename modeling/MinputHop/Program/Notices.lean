import MinputHop.Program.Display

/-!
# The label and the message boxes

The label of the window tells the truth about the connection, and there is one message
box for each thing that is worth one.  Both hold in every run of the message loop, with
iterations nested in message boxes.
-/

namespace MinputHop

open FlatMemory

/-! ## The connection in use -/

/-- A call that begins or ends a connection. -/
def Event.turns : Event → Bool
  | .connect _ _ _ _ ret => ret = 0
  | .close _ => true
  | .invalidate => true
  | _ => false

theorem turns_event (sockfd : Int) (output : Output) : (output.event sockfd).turns = false := by
  cases output <;> rfl

/-- Whether the newest connection is in use. -/
theorem current_isSome (s : Sys) :
    s.current.isSome = (s.connections.head?.map Conn.live).getD false := by
  unfold Sys.current
  cases s.connections.head? with
  | none => rfl
  | some conn => cases live : conn.live <;> simp [Option.filter, live]

theorem live_trackConn {e : Event} (steady : e.turns = false) (conns : List Conn) :
    (trackConn conns e).head?.map Conn.live = conns.head?.map Conn.live := by
  cases conns with
  | nil =>
      cases e with
      | connect time fd addr port ret => simpa [trackConn, Event.turns] using steady
      | recv time fd result => cases result <;> rfl
      | close | invalidate => cases steady
      | _ => rfl
  | cons conn older =>
      cases e with
      | connect time fd addr port ret =>
          have failed : ret ≠ 0 := by simpa [Event.turns] using steady
          simp [trackConn, failed]
      | recv time fd result => cases result <;> rfl
      | close | invalidate => cases steady
      | _ => rfl

/-- Other calls leave the connection in use. -/
theorem current_of_calls {s s' : Sys} {calls : List Event} (extended : s'.calls = s.calls ++ calls)
    (steady : ∀ e ∈ calls, e.turns = false) : s'.current.isSome = s.current.isSome := by
  have same : ∀ (calls : List Event) (conns : List Conn), (∀ e ∈ calls, e.turns = false) →
      (calls.foldl trackConn conns).head?.map Conn.live = conns.head?.map Conn.live := by
    intro calls
    induction calls with
    | nil => exact fun conns _ => rfl
    | cons e calls ih =>
        intro conns steady
        rw [List.foldl_cons, ih _ fun other member => steady other (List.mem_cons_of_mem e member)]
        exact live_trackConn (steady e List.mem_cons_self) conns
  rw [current_isSome, current_isSome, Sys.connections_of_calls extended, same _ _ steady]

/-! ## The label -/

/-- The label says "connected!" only while a connection is in use. -/
def Honest (s : Sys) : Prop := s.statusLabel = "connected!" → s.current.isSome = true

/-- And always while there is a descriptor. -/
structure Labelled (s : Sys) : Prop where
  honest : s.statusLabel = "connected!" → s.current.isSome = true
  shown : s.config.socketFd ≠ 0 → s.statusLabel = "connected!"

theorem statusLabel_of_shown {s s' : Sys} {lines : List Shown}
    (shown : shownIn s'.trace = shownIn s.trace ++ lines) :
    s'.statusLabel = (Registers.last? Shown.label? lines).getD s.statusLabel := by
  unfold Sys.statusLabel
  rw [shown, Registers.last?_append]
  cases Registers.last? Shown.label? lines <;> rfl

section Labelled

variable {host : Host} {input : IterInput} {s s' : Sys} {lines : List Shown} {calls : List Event}

/-- What neither changes the label nor the connection. -/
theorem Labelled.quiet (labelled : Labelled s)
    (shown : shownIn s'.trace = shownIn s.trace ++ lines)
    (noLabel : Registers.last? Shown.label? lines = none)
    (sameFd : s'.config.socketFd = s.config.socketFd) (extended : s'.calls = s.calls ++ calls)
    (steady : ∀ e ∈ calls, e.turns = false) : Labelled s' := by
  have same : s'.statusLabel = s.statusLabel := by
    rw [statusLabel_of_shown shown, noLabel]
    rfl
  constructor
  · rw [same, current_of_calls extended steady]
    exact labelled.honest
  · rw [same, sameFd]
    exact labelled.shown

/-- Where the last label is another one, nothing is claimed. -/
theorem honest_of_label {label : String} (shown : shownIn s'.trace = shownIn s.trace ++ lines)
    (last : Registers.last? Shown.label? lines = some label) (other : label ≠ "connected!") :
    Honest s' := by
  have now : s'.statusLabel = label := by
    rw [statusLabel_of_shown shown, last]
    rfl
  exact fun connected => absurd (now.symm.trans connected) other

/-- What leaves no descriptor, and says so. -/
theorem labelled_down {label : String} (shown : shownIn s'.trace = shownIn s.trace ++ lines)
    (last : Registers.last? Shown.label? lines = some label) (other : label ≠ "connected!")
    (down : s'.config.socketFd = 0) : Labelled s' :=
  ⟨honest_of_label shown last other, fun up => absurd down up⟩

/-- An attempt to connect is shown with its result. -/
theorem labelled_connect (host : Host) (input : IterInput) (down : s.config.socketFd = 0) :
    Labelled (netioConnect host input s).2 := by
  have shown := shown_netioConnect host input down
  rcases netioConnect_cases host input down with ⟨noSocket, s', called, follows⟩ |
    ⟨socket, refused, s', called, follows⟩ | ⟨socket, accepted, s', called, follows⟩
  · rw [connectLines, if_pos noSocket, called] at shown
    rw [called]
    exact labelled_down shown rfl (by decide) (by rw [follows.config_eq]; exact down)
  · rw [connectLines, if_neg socket, if_pos refused, called] at shown
    rw [called]
    exact labelled_down shown rfl (by decide) (by rw [follows.config_eq])
  · rw [connectLines, if_neg socket, if_neg (not_not.mpr accepted), called] at shown
    rw [called]
    have current : s'.current.isSome = true := by
      rw [current_isSome, follows.connections_eq]
      simp [connectEvent, trackConn, accepted, Conn.opened]
    exact ⟨fun _ => current, fun _ => statusLabel_of_shown shown⟩

theorem Labelled.ensureConnected (labelled : Labelled s) :
    Labelled (MinputHop.ensureConnected host input s).2 := by
  unfold MinputHop.ensureConnected
  split
  · next down => exact labelled_connect host input (by exact down)
  · exact labelled

theorem Labelled.fetch (labelled : Labelled s) : Labelled (netioFetchPackets host input s).2 := by
  have shown := shown_netioFetchPackets host input s
  have noLabel : ∀ retval, Registers.last? Shown.label? (fetchLines retval) = none := by
    intro retval
    unfold fetchLines
    split <;> rfl
  rcases netioFetchPackets_cases host input s with ⟨_, s', called, follows⟩ |
    ⟨chunk, _, _, _, s', called, follows⟩ | ⟨chunk, block, szMax, calls, _, room, s', called, follows⟩
  · rw [called] at shown ⊢
    exact labelled.quiet shown (noLabel _) (by rw [follows.config_eq]) follows.calls_eq (by simp [Event.turns])
  · rw [called] at shown ⊢
    exact labelled.quiet shown (noLabel _) (by rw [follows.config_eq]; rfl) follows.calls_eq
      (by simp [Event.turns])
  · rw [called] at shown ⊢
    refine labelled.quiet shown (noLabel _) (by rw [follows.config_eq]; rfl) follows.calls_eq ?_
    cases room <;> simp [Event.turns]

theorem Labelled.handOn (labelled : Labelled s) : Labelled (MinputHop.handOn host s).2 := by
  have handsOn := handOn_handsOn host s
  refine labelled.quiet (shown_handOn host s) ?_ (by rw [handsOn.config_eq]) handsOn.calls_eq ?_
  · unfold clipLines
    split <;> rfl
  · intro e member
    rcases List.mem_cons.mp member with rfl | member
    · rfl
    · obtain ⟨output, _, rfl⟩ := List.mem_map.mp member
      exact turns_event _ output

theorem Labelled.remove (labelled : Labelled s) (claimSz : UInt32) (retval : Int) :
    Labelled (removePacket claimSz retval s).2 := by
  have shown := shown_removePacket claimSz retval s
  have noLabel : Registers.last? Shown.label? (offsetLines s.config claimSz) = none := by
    unfold offsetLines
    split <;> rfl
  obtain ⟨config, follows⟩ := follows_removePacket claimSz retval s
  exact labelled.quiet shown noLabel (socketFd_removePacket claimSz retval s) follows.calls_eq (by simp)

theorem Labelled.leave (labelled : Labelled s) (pktProcIter : Nat) (retval : Int) :
    Labelled (leavePacket pktProcIter (retval, s)).2 := by
  have follows := follows_leavePacket pktProcIter (retval, s)
  exact labelled.quiet ((shown_leavePacket _ _).trans (List.append_nil _).symm) rfl
    (by rw [follows.config_eq]) follows.calls_eq (by simp)

/-- A log line without a label, and no call. -/
theorem Labelled.log (labelled : Labelled s) {stat : Stat} (noInfo : stat ≠ .info) (fmt : String)
    (args : List PrintfArg) : Labelled (osioPrintf stat fmt args s) := by
  have follows := follows_osioPrintf stat fmt args s
  refine labelled.quiet (by rw [trace_osioPrintf, shownIn_append]) ?_ rfl follows.calls_eq (by simp)
  cases stat with
  | info => exact absurd rfl noInfo
  | debug | error => rfl

theorem Labelled.keepalive (labelled : Labelled s) : Labelled (checkKeepalive host s) := by
  have shown := shown_checkKeepalive host s
  unfold keepaliveLines at shown
  rcases checkKeepalive_cases host s with ⟨late, up, follows⟩ | ⟨still, follows⟩
  · rw [if_pos late, if_pos up] at shown
    exact labelled_down shown rfl (by decide) (by rw [follows.config_eq])
  · by_cases late : TimedOut host s
    · have down : s.config.socketFd = 0 := not_not.mp fun up => still ⟨late, up⟩
      rw [if_pos late, if_neg (not_not.mpr down)] at shown
      exact labelled_down shown rfl (by decide) (by rw [follows.config_eq]; exact down)
    · rw [if_neg late] at shown
      exact labelled.quiet shown rfl (by rw [follows.config_eq]) follows.calls_eq (by simp)

theorem Labelled.quit (labelled : Labelled s) (fromUi : Bool) : Labelled (osioWinQuit fromUi s) := by
  have shown := shown_osioWinQuit fromUi s
  rcases osioWinQuit_cases fromUi s with ⟨up, follows⟩ | ⟨down, follows⟩
  · rw [if_pos up] at shown
    exact labelled_down shown rfl (by decide) (by rw [follows.config_eq])
  · rw [if_neg (not_not.mpr down)] at shown
    exact labelled.quiet shown rfl (by rw [follows.config_eq]) follows.calls_eq (by simp)

theorem Labelled.cleanup (labelled : Labelled s) : Labelled (minputMainCleanup s) := by
  have shown := shown_minputMainCleanup s
  rcases minputMainCleanup_cases s with ⟨up, follows⟩ | ⟨_, same⟩
  · rw [if_pos up] at shown
    exact labelled_down shown rfl (by decide) (by rw [follows.config_eq])
  · rw [same]
    exact labelled

theorem pieces_labelled (host : Host) : Pieces host Labelled where
  connects _ _ labelled := labelled.ensureConnected
  fetches _ _ labelled := labelled.fetch
  handsOn _ labelled := labelled.handOn
  removes claimSz retval _ labelled := labelled.remove claimSz retval
  waits s idle labelled := by
    rcases netioProcessPackets_cases host s with ⟨_, s', called, follows⟩ | ⟨claimed, _⟩
    · have shown := shown_netioProcessPackets host idle
      rw [called] at shown ⊢
      exact labelled.quiet (shown.trans (List.append_nil _).symm) rfl
        (by rw [follows.config_eq]) follows.calls_eq (by simp)
    · exact absurd claimed idle
  leaves pktProcIter result labelled := labelled.leave pktProcIter result.1
  refused _ _ labelled := labelled.log (by decide) _ _
  checks _ labelled := labelled.keepalive

/-- Every piece of the program keeps the label true. -/
theorem upkeep_labelled (platform : Platform) (host : Host) : Upkeep platform host Labelled where
  staged allocated input stage _ labelled :=
    (pieces_labelled host).stepPoint allocated input stage labelled
  closed _ _ _ _ closes labelled := (pieces_labelled host).closeDialog closes labelled
  saved fields input s s' saved labelled := by
    obtain ⟨port, mid, follows, rfl⟩ := osioWinSaveFields_cases saved
    exact labelled_connect host input (by rw [follows.config_eq]; rfl)
  quitted fromUi s labelled := labelled.quit fromUi
  cleaned s labelled := labelled.cleanup
  unasked s labelled := labelled.log (by decide) _ _

/-- The line about leaving the loop takes the label, and leaves the connection. -/
theorem honest_leaveMessageLoop (s : Sys) : Honest (leaveMessageLoop s) := by
  have shown : shownIn (leaveMessageLoop s).trace =
      shownIn s.trace ++ [.label "leaving message loop..."] := by
    rw [leaveMessageLoop, trace_osioPrintf, shownIn_append]
    rfl
  exact honest_of_label shown rfl (by decide)

theorem Honest.cleanup (honest : Honest s) : Honest (minputMainCleanup s) := by
  have shown := shown_minputMainCleanup s
  rcases minputMainCleanup_cases s with ⟨up, _⟩ | ⟨_, same⟩
  · rw [if_pos up] at shown
    exact honest_of_label shown rfl (by decide)
  · rw [same]
    exact honest

/-- Until the loop is left the label is true, whatever fails, times out, is saved or is
quit; from there on it still does not say "connected!" without a connection. -/
theorem label_tells_truth (platform : Platform) (host : Host)
    (serverAddr clientName : Vector UInt8 64) (serverPort : Int) :
    (∀ gRunning loop, MessageLoop.Reach platform host anyLoopAct
        (.start (minputMainSetup serverAddr clientName serverPort) gRunning) loop →
      Honest loop.thread.sys ∧ (loop.returned = none → Labelled loop.thread.sys)) ∧
    ∀ name session, Session.Reach platform host anyAct
        ⟨.idle, minputMainSetup serverAddr clientName serverPort, name⟩ session →
      Upkeep.Until Labelled Honest session := by
  have upkeep := upkeep_labelled platform host
  have text : (minputMainSetup serverAddr clientName serverPort).statusLabel =
      "setting up network..." := rfl
  have other : "setting up network..." ≠ "connected!" := by decide
  have fresh : Labelled (minputMainSetup serverAddr clientName serverPort) :=
    ⟨fun connected => absurd (text.symm.trans connected) other, fun up => absurd rfl up⟩
  constructor
  · intro gRunning loop reach
    have kept := upkeep.loop (by exact fresh) reach
    unfold Upkeep.Throughout at kept
    cases returned : loop.returned with
    | none =>
        rw [returned] at kept
        exact ⟨kept.honest, fun _ => kept⟩
    | some retval =>
        rw [returned] at kept
        obtain ⟨before, _, last⟩ := kept
        exact ⟨last ▸ honest_leaveMessageLoop before, fun running => absurd running (Option.some_ne_none _)⟩
  · intro name session reach
    exact upkeep.session (fun _ => Labelled.honest) (fun s _ => honest_leaveMessageLoop s)
      (fun _ => Honest.cleanup) (by exact fresh) reach

/-- Behind two message boxes the client is still connected. -/
theorem label_tells_truth_desk : ∃ loop, MessageLoop.Reach .win32 win32Host anyLoopAct
      (.start defaultSetup true) loop ∧
    loop.thread.sys.statusLabel = "connected!" ∧ loop.thread.sys.current.isSome = true := by
  have facts : (MessageLoop.run .win32 win32Host deskActs (.start defaultSetup true)).map
      (fun loop => decide (loop.returned = none ∧
        loop.thread.sys.statusLabel = "connected!")) = some true := by
    decide +kernel
  obtain ⟨loop, ran, facts⟩ := Option.map_eq_some_iff.mp facts
  obtain ⟨running, text⟩ := of_decide_eq_true facts
  have reach : MessageLoop.Reach .win32 win32Host anyLoopAct (.start defaultSetup true) loop :=
    .of_run (fun _ _ _ => trivial) .start ran
  have labelled := (label_tells_truth .win32 win32Host _ _ _).1 true loop reach
  exact ⟨loop, reach, text, labelled.1 text⟩

end Labelled

/-! ## The message boxes -/

/-- What a call opens a message box for. -/
def Event.box? : Event → Option String
  | .realloc _ false => some "could not reallocate packet buffer! (%lu bytes)"
  | .dispatch _ pktBuf pktBufSz =>
      if clipboardPacket pktBuf ∧ pktBufSz.toNat < dclpBufStart then
        some "clipboard buffer starts after packet ends!"
      else none
  | _ => none

theorem box_event (sockfd : Int) (output : Output) : (output.event sockfd).box? = none := by
  cases output <;> rfl

/-- Not about `GlobalAlloc()`, and not about a rest of the buffer that cannot be moved. -/
def ordinaryBox (text : String) : Bool :=
  text ≠ "pkt offset too large!" && text ≠ "could not allocate clipboard buffer of %lu bytes!"

/-- There is a message box for each call that is worth one, in the same order. -/
def Boxed (s : Sys) : Prop := s.messageBoxes.filter ordinaryBox = s.calls.filterMap Event.box?

section Boxed

variable {host : Host} {input : IterInput} {s s' : Sys} {lines : List Shown} {calls : List Event}

theorem Boxed.extend (boxed : Boxed s) (shown : shownIn s'.trace = shownIn s.trace ++ lines)
    (extended : s'.calls = s.calls ++ calls)
    (agree : (lines.filterMap Shown.box?).filter ordinaryBox = calls.filterMap Event.box?) :
    Boxed s' := by
  unfold Boxed Sys.messageBoxes at *
  rw [shown, extended, List.filterMap_append, List.filterMap_append, List.filter_append, boxed, agree]

theorem Boxed.connect (boxed : Boxed s) (host : Host) (input : IterInput)
    (down : s.config.socketFd = 0) : Boxed (netioConnect host input s).2 := by
  have shown := shown_netioConnect host input down
  have noBox : ((connectLines input).filterMap Shown.box?).filter ordinaryBox = [] := by
    unfold connectLines
    split
    · rfl
    · split <;> rfl
  rcases netioConnect_cases host input down with ⟨_, s', called, follows⟩ |
    ⟨_, _, s', called, follows⟩ | ⟨_, _, s', called, follows⟩
  · rw [called] at shown ⊢
    exact boxed.extend shown follows.calls_eq noBox
  · rw [called] at shown ⊢
    exact boxed.extend shown follows.calls_eq noBox
  · rw [called] at shown ⊢
    exact boxed.extend shown follows.calls_eq noBox

theorem Boxed.ensureConnected (boxed : Boxed s) :
    Boxed (MinputHop.ensureConnected host input s).2 := by
  unfold MinputHop.ensureConnected
  split
  · next down =>
      have shown : shownIn (Sys.emit { s with config.pktBufSz := 0 } .invalidate).trace =
          shownIn s.trace ++ [] := by simp
      have dropped := boxed.extend shown (follows_emit rfl _).calls_eq rfl
      exact dropped.connect host input (by exact down)
  · exact boxed

/-- A `realloc()` that fails opens its box. -/
theorem Boxed.fetch (boxed : Boxed s) : Boxed (netioFetchPackets host input s).2 := by
  have shown := shown_netioFetchPackets host input s
  rcases netioFetchPackets_cases host input s with ⟨_, s', called, follows⟩ |
    ⟨chunk, _, _, _, s', called, follows⟩ | ⟨chunk, block, szMax, calls, _, room, s', called, follows⟩
  · rw [called] at shown ⊢
    exact boxed.extend shown follows.calls_eq rfl
  · rw [called] at shown ⊢
    exact boxed.extend shown follows.calls_eq rfl
  · rw [called] at shown ⊢
    refine boxed.extend shown follows.calls_eq ?_
    cases room <;> rfl

/-- A clipboard packet that is too short opens its box. -/
theorem Boxed.handOn (boxed : Boxed s) : Boxed (MinputHop.handOn host s).2 := by
  refine boxed.extend (shown_handOn host s) (handOn_handsOn host s).calls_eq ?_
  have others : ∀ outputs : List Output,
      (outputs.map (Output.event s.config.socketFd)).filterMap Event.box? = [] := by
    intro outputs
    rw [List.filterMap_map, List.filterMap_eq_nil_iff]
    exact fun output _ => box_event _ output
  unfold clipLines
  split
  · next short => simp [others, Event.box?, short, Shown.box?, ordinaryBox]
  · next long => simp [others, Event.box?, long]

theorem Boxed.remove (boxed : Boxed s) (claimSz : UInt32) (retval : Int) :
    Boxed (removePacket claimSz retval s).2 := by
  obtain ⟨config, follows⟩ := follows_removePacket claimSz retval s
  refine boxed.extend (shown_removePacket claimSz retval s) follows.calls_eq ?_
  unfold offsetLines
  split <;> rfl

theorem Boxed.leave (boxed : Boxed s) (pktProcIter : Nat) (retval : Int) :
    Boxed (leavePacket pktProcIter (retval, s)).2 :=
  boxed.extend ((shown_leavePacket _ _).trans (List.append_nil _).symm)
    (follows_leavePacket pktProcIter (retval, s)).calls_eq rfl

/-- A line of the log that is no error, or whose box is no ordinary one. -/
theorem Boxed.log (boxed : Boxed s) {stat : Stat} {fmt : String}
    (noBox : stat = .error → ordinaryBox fmt = false) (args : List PrintfArg) :
    Boxed (osioPrintf stat fmt args s) := by
  have shown : shownIn (osioPrintf stat fmt args s).trace =
      shownIn s.trace ++ (Event.printf true stat fmt args).shown?.toList := by simp
  refine boxed.extend shown (follows_osioPrintf stat fmt args s).calls_eq ?_
  cases stat with
  | error => simp [Shown.box?, noBox rfl]
  | debug | info => rfl

theorem Boxed.keepalive (boxed : Boxed s) : Boxed (checkKeepalive host s) := by
  have shown := shown_checkKeepalive host s
  have noBox : ((keepaliveLines (TimedOut host s) s.config.socketFd).filterMap
      Shown.box?).filter ordinaryBox = [] := by
    unfold keepaliveLines
    split
    · split <;> rfl
    · rfl
  rcases checkKeepalive_cases host s with ⟨_, _, follows⟩ | ⟨_, follows⟩ <;>
    exact boxed.extend shown follows.calls_eq noBox

theorem pieces_boxed (host : Host) : Pieces host Boxed where
  connects _ _ boxed := boxed.ensureConnected
  fetches _ _ boxed := boxed.fetch
  handsOn _ boxed := boxed.handOn
  removes claimSz retval _ boxed := boxed.remove claimSz retval
  waits s idle boxed := by
    rcases netioProcessPackets_cases host s with ⟨_, s', called, follows⟩ | ⟨claimed, _⟩
    · have shown := shown_netioProcessPackets host idle
      rw [called] at shown ⊢
      exact boxed.extend (shown.trans (List.append_nil _).symm) follows.calls_eq rfl
    · exact absurd claimed idle
  leaves pktProcIter result boxed := boxed.leave pktProcIter result.1
  refused _ _ boxed := boxed.log (fun _ => rfl) _
  checks _ boxed := boxed.keepalive

/-- Every piece of the program opens its boxes. -/
theorem upkeep_boxed (platform : Platform) (host : Host) : Upkeep platform host Boxed where
  staged allocated input stage _ boxed :=
    (pieces_boxed host).stepPoint allocated input stage boxed
  closed _ _ _ _ closes boxed := (pieces_boxed host).closeDialog closes boxed
  saved fields input s s' saved boxed := by
    obtain ⟨port, _, rfl⟩ := Option.map_eq_some_iff.mp saved
    refine Boxed.connect ?_ host input (by rfl)
    have closed : Boxed (netioDisconnect s) :=
      boxed.extend (shown_netioDisconnect s) (Follows.refl s).disconnect.calls_eq rfl
    have logged (fmt : String) (args : List PrintfArg) {s : Sys} (boxed : Boxed s) :
        Boxed (osioPrintf .debug fmt args s) := boxed.log (fun error => Stat.noConfusion error) args
    exact logged _ _ (logged _ _ (logged _ _ closed))
  quitted fromUi s boxed := by
    have shown := shown_osioWinQuit fromUi s
    rcases osioWinQuit_cases fromUi s with ⟨up, follows⟩ | ⟨down, follows⟩ <;>
      refine boxed.extend shown follows.calls_eq ?_
    · rw [if_pos up]
      rfl
    · rw [if_neg (not_not.mpr down)]
      rfl
  cleaned s boxed := by
    have shown := shown_minputMainCleanup s
    rcases minputMainCleanup_cases s with ⟨up, follows⟩ | ⟨_, same⟩
    · rw [if_pos up] at shown
      exact boxed.extend shown follows.calls_eq rfl
    · rw [same]
      exact boxed
  unasked s boxed := boxed.log (fun error => Stat.noConfusion error) _

/-- In every run there is one message box for each failed `realloc()` and for each
clipboard packet that is too short, in the order in which they occur, and no box for
anything else: what fails about the connection is never worth one. -/
theorem boxes_of_calls {platform : Platform} {host : Host}
    {serverAddr clientName : Vector UInt8 64} {serverPort : Int} {s : Sys}
    (met : Met platform host (minputMainSetup serverAddr clientName serverPort) s) :
    s.messageBoxes.filter ordinaryBox = s.calls.filterMap Event.box? :=
  (upkeep_boxed platform host).met
    (fun _ boxed => boxed.log (fun error => Stat.noConfusion error) _) (by exact rfl) met

/-- The packet in front is handed on twice. -/
theorem boxes_of_calls_desk : ∃ s, Met .win32 win32Host defaultSetup s ∧
    s.messageBoxes.filter ordinaryBox =
      List.replicate 2 "clipboard buffer starts after packet ends!" := by
  have ran : (ActionSystem.run (MessageLoop.act .win32 win32Host)
      (fun action _ => action.allocates) deskActs (.start defaultSetup true)).map
        (·.thread.sys.calls.filterMap Event.box?) =
      some (List.replicate 2 "clipboard buffer starts after packet ends!") := by
    decide +kernel
  obtain ⟨loop, ran, calls⟩ := Option.map_eq_some_iff.mp ran
  have met : Met .win32 win32Host defaultSetup loop.thread.sys :=
    .loop (.of_run (fun _ _ _ => trivial) .start ran)
  exact ⟨_, met, (boxes_of_calls met).trans calls⟩

end Boxed

end MinputHop
