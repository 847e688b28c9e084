import MinputHop.Program.Session

/-!
# Who owns the socket

The calls of a run, read as a ledger of the descriptors that `socket()` gave
out.  The record says 0 where there is none, so the ledger goes wrong where 0 is
taken for a descriptor, or a descriptor is 0.
-/

namespace MinputHop

/-! ## The ledger -/

/-- The descriptor that `socket()` returned and nobody has closed, and whether
it is connected. -/
abbrev Holding := Option (Int × Bool)

/-- The ledger after one more call.  `none` is a call that does not go with it: a
second descriptor, a call on another descriptor than the one held, or data on
one that is not connected. -/
def own (held : Holding) : Event → Option Holding
  | .socket ret =>
      if ret = -1 then some held else if held = none then some (some (ret, false)) else none
  | .connect _ fd _ _ ret =>
      if held = some (fd, false) then some (some (fd, decide (ret = 0))) else none
  | .close fd => if held = some (fd, true) ∨ held = some (fd, false) then some none else none
  | .recv _ fd _ => if held = some (fd, true) then some held else none
  | .send fd _ => if held = some (fd, true) then some held else none
  | _ => some held

def Sys.holding (s : Sys) : Option Holding := s.calls.foldlM own none

theorem holding_of_calls {s s' : Sys} {calls : List Event} {held : Holding}
    (extended : s'.calls = s.calls ++ calls) (legal : s.holding = some held) :
    s'.holding = calls.foldlM own held := by
  rw [Sys.holding, extended, List.foldlM_append, ← Sys.holding, legal]
  rfl

/-- What went wrong stays wrong. -/
theorem holding_none_of_start {s s' : Sys} (start : s.calls <+: s'.calls)
    (wrong : s.holding = none) : s'.holding = none := by
  obtain ⟨calls, extended⟩ := start
  rw [Sys.holding, ← extended, List.foldlM_append, ← Sys.holding, wrong]
  rfl

/-! ## The property -/

/-- What is held is the connected descriptor in `config.socket_fd`, or nothing if
that is 0. -/
def Recorded (held : Holding) (config : NetioCfg) : Prop :=
  held = some (config.socketFd, true) ∨ held = none ∧ config.socketFd = 0

theorem Recorded.congr {held : Holding} {config config' : NetioCfg}
    (recorded : Recorded held config) (same : config'.socketFd = config.socketFd) :
    Recorded held config' := by
  rw [Recorded, same]
  exact recorded

/-- The record is right; there is a connection where the code takes one for
granted, and nothing is held when `minput_main` has returned. -/
def Agrees (held : Holding) (config : NetioCfg) : Place → Prop
  | .finished => held = none
  | .inside _ .fetch | .inside _ (.process _) => held = some (config.socketFd, true)
  | _ => Recorded held config

/-- This is held, by every call so far and by the record. -/
structure Tracks (held : Holding) (session : Session) : Prop where
  legal : session.sys.holding = some held
  range : ∀ fd connected, held = some (fd, connected) → 0 ≤ fd
  agrees : Agrees held session.sys.config session.place

def Owned (session : Session) : Prop := ∃ held, Tracks held session

/-- Descriptor 0 is held. -/
def HoldsZero (s : Sys) : Prop := ∃ connected, s.holding = some (some (0, connected))
  deriving Decidable

/-- What `socket()` can return: -1, or a descriptor that is not open. -/
def Answers (s : Sys) (ret : Int) : Prop :=
  ret = -1 ∨ 0 ≤ ret ∧ ∀ connected, s.holding ≠ some (some (ret, connected))
  deriving Decidable

/-- Where `socket()` is called, it answers as it can. -/
def Possible : Act → Session → Prop
  | .proceed, ⟨.inside input .connect, s, _⟩ => s.config.socketFd = 0 → Answers s input.socket
  | .save _ input, ⟨_, s, _⟩ => Answers (netioDisconnect s) input.socket
  | _, _ => True

/-- Descriptor 0 is neither taken for a missing connection nor, where it is not
held, closed. -/
def Careful : Act → Session → Prop
  | .proceed, ⟨.inside input .connect, s, _⟩ =>
      s.config.socketFd = 0 → HoldsZero s → input.socket = -1
  | .save _ _, ⟨_, s, _⟩ => s.config.socketFd = 0 → HoldsZero s
  | .cleanup, ⟨_, s, _⟩ => ¬HoldsZero s
  | _, _ => True

instance : (action : Act) → (session : Session) → Decidable (Possible action session)
  | .proceed, ⟨.inside input .connect, s, _⟩ =>
      inferInstanceAs (Decidable (s.config.socketFd = 0 → Answers s input.socket))
  | .save _ input, ⟨_, s, _⟩ => inferInstanceAs (Decidable (Answers (netioDisconnect s) input.socket))
  | .proceed, ⟨.inside _ .fetch, _, _⟩ | .proceed, ⟨.inside _ (.process _), _, _⟩
  | .proceed, ⟨.inside _ (.keepalive _), _, _⟩ | .proceed, ⟨.inside _ (.returned _), _, _⟩
  | .proceed, ⟨.idle, _, _⟩ | .proceed, ⟨.leaving, _, _⟩ | .proceed, ⟨.finished, _, _⟩
  | .iterate _, _ | .quit, _ | .stop, _ | .cleanup, _ => .isTrue trivial

instance : (action : Act) → (session : Session) → Decidable (Careful action session)
  | .proceed, ⟨.inside input .connect, s, _⟩ =>
      inferInstanceAs (Decidable (s.config.socketFd = 0 → HoldsZero s → input.socket = -1))
  | .save _ _, ⟨_, s, _⟩ => inferInstanceAs (Decidable (s.config.socketFd = 0 → HoldsZero s))
  | .cleanup, ⟨_, s, _⟩ => inferInstanceAs (Decidable ¬HoldsZero s)
  | .proceed, ⟨.inside _ .fetch, _, _⟩ | .proceed, ⟨.inside _ (.process _), _, _⟩
  | .proceed, ⟨.inside _ (.keepalive _), _, _⟩ | .proceed, ⟨.inside _ (.returned _), _, _⟩
  | .proceed, ⟨.idle, _, _⟩ | .proceed, ⟨.leaving, _, _⟩ | .proceed, ⟨.finished, _, _⟩
  | .iterate _, _ | .quit, _ | .stop, _ => .isTrue trivial

/-! ## Every step -/

section Connect

variable {host : Host} {input : IterInput} {s : Sys} {held : Holding}

theorem netioConnect_calls_start (host : Host) (input : IterInput)
    (down : s.config.socketFd = 0) : s.calls <+: (netioConnect host input s).2.calls := by
  by_cases noSocket : input.socket = -1
  · obtain ⟨s', called, follows⟩ := netioConnect_noSocket host down noSocket
    exact called ▸ follows.calls_eq ▸ List.prefix_append _ _
  · by_cases accepted : input.connect = 0
    · obtain ⟨s', called, follows⟩ := netioConnect_connected host down noSocket accepted
      exact called ▸ follows.calls_eq ▸ List.prefix_append _ _
    · obtain ⟨s', called, follows⟩ := netioConnect_refused host down noSocket accepted
      exact called ▸ follows.calls_eq ▸ List.prefix_append _ _

/-- With nothing held, an attempt to connect leaves either nothing held or the
connected descriptor in the record. -/
theorem netioConnect_holding (host : Host) (down : s.config.socketFd = 0)
    (legal : s.holding = some held) (single : held = none ∨ input.socket = -1) :
    ∃ retval s', netioConnect host input s = (retval, s') ∧
      ((retval ≠ 0 ∧ s'.config.socketFd = 0 ∧ s'.holding = some held) ∨
        (retval = 0 ∧ input.socket ≠ -1 ∧ s'.config.socketFd = input.socket ∧
          s'.holding = some (some (input.socket, true)))) := by
  by_cases noSocket : input.socket = -1
  · obtain ⟨s', called, follows⟩ := netioConnect_noSocket host down noSocket
    refine ⟨_, s', called, .inl ⟨by decide, ?_, ?_⟩⟩
    · rw [follows.config_eq]
      exact down
    · exact holding_of_calls follows.calls_eq legal
  · obtain rfl := single.resolve_right noSocket
    by_cases accepted : input.connect = 0
    · obtain ⟨s', called, follows⟩ := netioConnect_connected host down noSocket accepted
      refine ⟨_, s', called, .inr ⟨rfl, noSocket, ?_, ?_⟩⟩
      · rw [follows.config_eq]
      · rw [holding_of_calls follows.calls_eq legal]
        simp [own, connectEvent, noSocket, accepted]
    · obtain ⟨s', called, follows⟩ := netioConnect_refused host down noSocket accepted
      refine ⟨_, s', called, .inl ⟨by decide, ?_, ?_⟩⟩
      · rw [follows.config_eq]
      · rw [holding_of_calls follows.calls_eq legal]
        simp [own, connectEvent, noSocket, accepted]

/-- A second descriptor is one too many. -/
theorem netioConnect_second {fd : Int} {connected : Bool} (down : s.config.socketFd = 0)
    (legal : s.holding = some (some (fd, connected))) (socket : input.socket ≠ -1) :
    (netioConnect host input s).2.holding = none := by
  by_cases accepted : input.connect = 0
  · obtain ⟨s', called, follows⟩ := netioConnect_connected host down socket accepted
    rw [called, holding_of_calls follows.calls_eq legal]
    simp [own, socket]
  · obtain ⟨s', called, follows⟩ := netioConnect_refused host down socket accepted
    rw [called, holding_of_calls follows.calls_eq legal]
    simp [own, socket]

end Connect

section Stages

variable {host : Host} {input : IterInput} {stage stage' : Stage} {s s' : Sys} {name : Text}
  {held : Holding}

theorem foldlM_own_outputs (fd : Int) (outputs : List Output) :
    (outputs.map (Output.event fd)).foldlM own (some (fd, true)) = some (some (fd, true)) := by
  induction outputs with
  | nil => rfl
  | cons output outputs ih =>
      have first : own (some (fd, true)) (output.event fd) = some (some (fd, true)) := by
        cases output <;> simp [own, Output.event]
      rw [List.map_cons, List.foldlM_cons, first]
      exact ih

theorem agrees_afterPacket {config : NetioCfg} (input : IterInput) (pktProcIter : Nat) (s : Sys)
    (held_eq : held = some (config.socketFd, true)) :
    Agrees held config (.inside input (afterPacket pktProcIter s)) := by
  rw [afterPacket]
  split
  · exact held_eq
  · exact .inl held_eq

theorem Dispatches.holding_eq (dispatches : Dispatches host s s')
    (legal : s.holding = some (some (s.config.socketFd, true))) : s'.holding = s.holding := by
  rw [holding_of_calls dispatches.calls_eq legal, legal]
  exact foldlM_own_outputs _ _

/-- Outside of connecting, the descriptor held is used and nothing else. -/
theorem Step.owned (step : Step host input stage s stage' s') (behind : stage ≠ .connect)
    (tracks : Tracks held ⟨.inside input stage, s, name⟩) :
    Owned ⟨.inside input stage', s', name⟩ := by
  obtain ⟨legal, range, agrees⟩ := tracks
  cases step with
  | connected | failed | opened => exact absurd rfl behind
  | starved _ follows =>
      obtain rfl : held = some (s.config.socketFd, true) := agrees
      refine ⟨_, ?_, range, ?_⟩
      · rw [holding_of_calls follows.calls_eq legal]
        simp [own]
      · rw [follows.config_eq]
        rfl
  | exhausted _ _ _ follows =>
      obtain rfl : held = some (s.config.socketFd, true) := agrees
      refine ⟨_, ?_, range, ?_⟩
      · rw [holding_of_calls follows.calls_eq legal]
        simp [own]
      · rw [follows.config_eq]
        exact .inl rfl
  | filled _ room follows =>
      obtain rfl : held = some (s.config.socketFd, true) := agrees
      refine ⟨_, ?_, range, ?_⟩
      · rw [holding_of_calls follows.calls_eq legal]
        rcases room.calls_eq with rfl | ⟨_, rfl⟩
        · simp [own]
        · simp [own]
      · rw [follows.config_eq]
        rfl
  | @waited _ _ pktProcIter _ follows =>
      refine ⟨held, holding_of_calls follows.calls_eq legal, range, ?_⟩
      rw [follows.config_eq]
      exact agrees_afterPacket input pktProcIter _ agrees
  | @took _ _ pktProcIter _ _ dispatches =>
      obtain rfl : held = some (s.config.socketFd, true) := agrees
      refine ⟨_, (dispatches.holding_eq legal).trans legal, range, ?_⟩
      rw [dispatches.config_eq]
      exact agrees_afterPacket input pktProcIter _ rfl
  | overran _ _ dispatches =>
      obtain rfl : held = some (s.config.socketFd, true) := agrees
      refine ⟨_, (dispatches.holding_eq legal).trans legal, range, ?_⟩
      rw [dispatches.config_eq]
      exact .inl rfl
  | dropped _ up follows =>
      obtain rfl : held = some (s.config.socketFd, true) := agrees.resolve_right fun none => up none.2
      refine ⟨none, ?_, nofun, ?_⟩
      · rw [holding_of_calls follows.calls_eq legal]
        simp [own]
      · rw [follows.config_eq]
        exact .inr ⟨rfl, rfl⟩
  | kept _ follows =>
      refine ⟨held, holding_of_calls follows.calls_eq legal, range, ?_⟩
      rw [follows.config_eq]
      exact agrees
  | rested => exact ⟨held, legal, range, agrees⟩

end Stages

section Actions

variable {platform : Platform} {host : Host} {input : IterInput} {s s' : Sys} {name : Text}

theorem not_owned_of_none {place : Place} (wrong : s.holding = none) :
    ¬Owned ⟨place, s, name⟩ := by
  rintro ⟨held, legal, _⟩
  exact absurd (wrong.symm.trans legal) nofun

/-- A connection that came about is held, a failed one leaves things as they were. -/
theorem stageStep_connect (host : Host) (input : IterInput) (down : s.config.socketFd = 0) :
    ∃ base, Follows s base { s.config with pktBufSz := 0 } 0 [.invalidate] ∧
      stageStep host input .connect s =
        (if (netioConnect host input base).1 = 0 then .fetch else .returned 0,
          (netioConnect host input base).2) := by
  refine ⟨_, (Follows.refl s).set.call rfl, ?_⟩
  rw [stageStep, ensureConnected, if_pos down]
  dsimp only
  simp only [decide_eq_true_eq]

/-- At the head of an iteration, a descriptor 0 that is held must not be joined
by another one. -/
theorem connect_owned_iff (owned : Owned ⟨.inside input .connect, s, name⟩)
    (possible : Possible .proceed ⟨.inside input .connect, s, name⟩) :
    Owned ⟨.inside input (stageStep host input .connect s).1, (stageStep host input .connect s).2,
      name⟩ ↔ Careful .proceed ⟨.inside input .connect, s, name⟩ := by
  obtain ⟨held, legal, range, agrees⟩ := owned
  by_cases down : s.config.socketFd = 0
  · obtain ⟨base, follows, stepped⟩ := stageStep_connect host input down
    have down' : base.config.socketFd = 0 := by rwa [follows.config_eq]
    have legal' : base.holding = some held := holding_of_calls follows.calls_eq legal
    rw [stepped]
    by_cases single : held = none ∨ input.socket = -1
    · refine iff_of_true ?_ ?_
      · obtain ⟨retval, s', called, outcome⟩ := netioConnect_holding host down' legal' single
        rw [called]
        rcases outcome with ⟨failed, down'', holding⟩ | ⟨rfl, socket, up, holding⟩
        · refine ⟨held, holding, range, ?_⟩
          rw [if_neg failed]
          have before : Recorded held s.config := agrees
          exact before.congr (down''.trans down.symm)
        · refine ⟨_, holding, ?_, congrArg (fun fd => some (fd, true)) up.symm⟩
          rintro fd connected same
          obtain ⟨rfl, _⟩ := Prod.mk.inj (Option.some.inj same)
          exact ((possible down).resolve_left socket).1
      · rintro _ ⟨connected, zero⟩
        rw [zero] at legal
        obtain rfl := Option.some.inj legal
        exact single.resolve_left nofun
    · obtain ⟨some', socket⟩ := not_or.mp single
      obtain rfl : held = some (s.config.socketFd, true) :=
        agrees.resolve_right fun none => some' none.1
      refine iff_of_false (not_owned_of_none (netioConnect_second down' legal' socket)) ?_
      intro careful
      rw [down] at legal
      exact socket (careful down ⟨true, legal⟩)
  · have up : stageStep host input .connect s = (.fetch, s) := by
      rw [stageStep, ensureConnected, if_neg down]
      rfl
    rw [up]
    refine iff_of_true ⟨held, legal, range, ?_⟩ fun zero => absurd zero down
    exact agrees.resolve_right fun none => down none.2

theorem save_owned_iff {fields : Fields} {name' : Text} (owned : Owned ⟨.idle, s, name⟩)
    (possible : Possible (.save fields input) ⟨.idle, s, name⟩)
    (saved : osioWinSaveFields platform host fields input s = some s') :
    Owned ⟨.idle, s', name'⟩ ↔ Careful (.save fields input) ⟨.idle, s, name⟩ := by
  obtain ⟨held, legal, range, agrees⟩ := owned
  obtain ⟨port, mid, follows, rfl⟩ := osioWinSaveFields_cases saved
  have down : mid.config.socketFd = 0 := by rw [follows.config_eq]; rfl
  rcases agrees with rfl | ⟨rfl, zero⟩
  · have legal' : mid.holding = some none := by
      rw [holding_of_calls follows.calls_eq legal]
      simp [own]
    refine iff_of_true ?_ fun zero => ⟨true, by rw [legal, zero]⟩
    obtain ⟨retval, s', called, outcome⟩ := netioConnect_holding host down legal' (.inl rfl)
    rw [called]
    rcases outcome with ⟨_, down', holding⟩ | ⟨_, socket, up, holding⟩
    · exact ⟨none, holding, nofun, .inr ⟨rfl, down'⟩⟩
    · refine ⟨_, holding, ?_, .inl (congrArg (fun fd => some (fd, true)) up.symm)⟩
      rintro fd connected same
      obtain ⟨rfl, _⟩ := Prod.mk.inj (Option.some.inj same)
      exact (possible.resolve_left socket).1
  · have wrong : mid.holding = none := by
      rw [holding_of_calls follows.calls_eq legal]
      simp [own]
    refine iff_of_false (not_owned_of_none
      (holding_none_of_start (netioConnect_calls_start host input down) wrong)) ?_
    intro careful
    obtain ⟨connected, holds⟩ := careful zero
    exact absurd (legal.symm.trans holds) nofun

/-- Outside of the loop iteration nothing more is asked for than the record. -/
theorem Owned.moved {place place' : Place} (owned : Owned ⟨place, s, name⟩)
    (before : ∀ held config, Agrees held config place = Recorded held config)
    (after : ∀ held config, Agrees held config place' = Recorded held config) :
    Owned ⟨place', s, name⟩ := by
  obtain ⟨held, legal, range, agrees⟩ := owned
  exact ⟨held, legal, range, after held s.config ▸ before held s.config ▸ agrees⟩

theorem quit_owned (owned : Owned ⟨.leaving, s, name⟩) (fromUi : Bool) :
    Owned ⟨.leaving, osioWinQuit fromUi s, name⟩ := by
  obtain ⟨held, legal, range, agrees⟩ := owned
  have before : Recorded held s.config := agrees
  rcases osioWinQuit_cases fromUi s with ⟨up, follows⟩ | ⟨zero, follows⟩
  · obtain rfl := before.resolve_right fun none => up none.2
    refine ⟨none, ?_, nofun, .inr ⟨rfl, ?_⟩⟩
    · rw [holding_of_calls follows.calls_eq legal]
      simp [own]
    · rw [follows.config_eq]
  · refine ⟨held, holding_of_calls follows.calls_eq legal, range, ?_⟩
    rw [follows.config_eq]
    exact before

/-- A line of the log changes nothing about it. -/
theorem Owned.logged {s' : Sys} {place : Place} (owned : Owned ⟨place, s, name⟩)
    (follows : Follows s s' s.config 0 []) : Owned ⟨place, s', name⟩ := by
  obtain ⟨held, legal, range, agrees⟩ := owned
  refine ⟨held, holding_of_calls follows.calls_eq legal, range, ?_⟩
  rw [follows.config_eq]
  exact agrees

/-- The clean-up closes every descriptor but 0. -/
theorem cleanup_owned_iff (owned : Owned ⟨.leaving, s, name⟩) :
    Owned ⟨.finished, minputMainCleanup s, name⟩ ↔ Careful .cleanup ⟨.leaving, s, name⟩ := by
  obtain ⟨held, legal, range, agrees⟩ := owned
  rcases minputMainCleanup_cases s with ⟨up, follows⟩ | ⟨down, same⟩
  · obtain rfl : held = some (s.config.socketFd, true) :=
      agrees.resolve_right fun none => Int.ne_of_gt up none.2
    refine iff_of_true ⟨none, ?_, nofun, rfl⟩ ?_
    · rw [holding_of_calls follows.calls_eq legal]
      simp [own]
    · rintro ⟨connected, zero⟩
      obtain ⟨zero', _⟩ := Prod.mk.inj (Option.some.inj (Option.some.inj (legal.symm.trans zero)))
      exact Int.ne_of_gt up zero'
  · rw [same]
    rcases agrees with rfl | ⟨rfl, _⟩
    · have positive : 0 ≤ s.config.socketFd := range _ _ rfl
      have zero : s.config.socketFd = 0 := by omega
      refine iff_of_false ?_ fun careful => careful ⟨true, by rw [legal, zero]⟩
      rintro ⟨held, legal', _, returned⟩
      obtain rfl : held = none := returned
      exact absurd (legal.symm.trans legal') nofun
    · refine iff_of_true ⟨none, legal, nofun, rfl⟩ ?_
      rintro ⟨connected, zero⟩
      exact absurd (legal.symm.trans zero) nofun

end Actions

/-! ## Runs -/

section Runs

variable {platform : Platform} {host : Host} {action : Act} {session next : Session}

/-- An action keeps the ledger right exactly when it is careful. -/
theorem Session.Moves.owned_iff (moves : Moves platform host action session next)
    (owned : Owned session) (possible : Possible action session) :
    Owned next ↔ Careful action session := by
  have recorded : ∀ place, (∀ held config, Agrees held config place = Recorded held config) →
      ∀ {s name}, Owned ⟨place, s, name⟩ → Owned ⟨.leaving, s, name⟩ :=
    fun _ before _ _ owned => owned.moved before fun _ _ => rfl
  cases moves with
  | iterated =>
      exact iff_of_true (owned.moved (fun _ _ => rfl) fun _ _ => rfl) trivial
  | @staged input stage s name running =>
      cases stage with
      | connect => exact connect_owned_iff owned possible
      | fetch | process | keepalive =>
          obtain ⟨held, tracks⟩ := owned
          exact iff_of_true ((stageStep_step host input _ s).owned nofun tracks) trivial
      | returned retval => exact absurd rfl (running retval)
  | again => exact iff_of_true (owned.moved (fun _ _ => rfl) fun _ _ => rfl) trivial
  | broke _ left =>
      subst left
      refine iff_of_true ?_ trivial
      have leaving := recorded _ (fun _ _ => rfl) owned
      split
      · exact leaving
      · exact (quit_owned leaving false).logged (follows_leaveMessageLoop _)
  | saved _ saved => exact save_owned_iff owned possible saved
  | quitted =>
      have leaving := quit_owned (recorded _ (fun _ _ => rfl) owned) true
      exact iff_of_true (leaving.logged (follows_leaveMessageLoop _)) trivial
  | stopped =>
      have leaving := recorded _ (fun _ _ => rfl) owned
      exact iff_of_true (leaving.logged (follows_unaskedQuit _)) trivial
  | cleaned => exact cleanup_owned_iff owned

theorem owned_launch (input : StartInput) {config : NetioCfg} (fresh : config.socketFd = 0)
    (name : Text) : Owned (Session.launch input config name) := by
  obtain ⟨place, config', launched, there, _, same⟩ := Session.launch_cases input config name
  rw [launched]
  refine ⟨none, rfl, nofun, ?_⟩
  have recorded : Recorded none config' := .inr ⟨rfl, same.trans fresh⟩
  rcases there with rfl | rfl
  · exact recorded
  · exact recorded

/-- In every run of careful actions, one descriptor at most is open, it is the
one in the record, and it is closed in the end. -/
theorem owned_of_careful {config : NetioCfg} (fresh : config.socketFd = 0) {input : StartInput}
    {name : Text}
    (reach : Session.Reach platform host
      (fun action session => Possible action session ∧ Careful action session)
      (Session.launch input config name) session) : Owned session :=
  reach.invariant (owned_launch input fresh name)
    fun _ _ _ ⟨possible, careful⟩ taken owned =>
      ((Session.act_moves taken).owned_iff owned possible).mpr careful

end Runs

/-- The record of `minhop pc 10.0.0.1`, before the loop. -/
def plainConfig : NetioCfg := parsedConfig pcText addressText 24800

/-- The first iteration connects with descriptor 3, and then the user quits. -/
def plainActs : List Act :=
  [.iterate ⟨3, 0, none, none⟩, .proceed, .proceed, .proceed, .proceed, .proceed, .quit, .cleanup]

theorem owned_of_careful_plain :
    ∃ session, ActionSystem.run (Session.act .win32 unixHost)
        (fun action session => decide (Possible action session ∧ Careful action session)) plainActs
        (Session.launch started plainConfig pcText) = some session ∧
      Owned session := by
  have ran : (ActionSystem.run (Session.act .win32 unixHost)
      (fun action session => decide (Possible action session ∧ Careful action session)) plainActs
      (Session.launch started plainConfig pcText)).isSome = true := by
    decide +kernel
  obtain ⟨session, ran⟩ := Option.isSome_iff_exists.mp ran
  exact ⟨session, ran, owned_of_careful rfl
    (.of_run (fun _ _ admitted => of_decide_eq_true admitted) .start ran)⟩

/-- The user presses Save while there is no connection, and the server cannot be
reached. -/
def saveActs : List Act := [.save ⟨pcText, addressText, portText⟩ ⟨-1, 0, none, none⟩]

/-- Saving while there is no connection closes descriptor 0. -/
theorem not_always_owned :
    ¬∀ (platform : Platform) (host : Host) (config : NetioCfg) (input : StartInput) (name : Text)
      (session : Session), config.socketFd = 0 →
      Session.Reach platform host Possible (Session.launch input config name) session →
      Owned session := by
  intro always
  have wrong : (ActionSystem.run (Session.act .win32 unixHost)
      (fun action session => decide (Possible action session)) saveActs
      (Session.launch started plainConfig pcText)).map (·.sys.holding) =
        some none := by
    decide +kernel
  obtain ⟨session, ran, holding⟩ := Option.map_eq_some_iff.mp wrong
  have reach := ActionSystem.Reach.of_run (fun _ _ admitted => of_decide_eq_true admitted) .start ran
  obtain ⟨held, tracks⟩ := always _ _ _ _ _ session rfl reach
  exact absurd (holding.symm.trans tracks.legal) nofun

end MinputHop
