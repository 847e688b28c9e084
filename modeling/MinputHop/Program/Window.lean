import Mathlib.Data.List.TakeWhile
import MinputHop.Library.Registers
import MinputHop.Program.Names
import MinputHop.Program.Oldc
import MinputHop.Program.Handling

/-!
# The window

`osio_ui_setup` and the handler of `WM_CREATE` fill the edit fields from the
configuration, and the Save button fills the configuration from them.  In every run
the server, the port and the name are those of the last Save.
-/

namespace MinputHop

open FlatMemory

/-! ## `WM_CREATE` -/

def minhopErrOs : Int := 16

/-- `_ultoa( g_config.server_port, num_buffer, 10 )`, with `unsigned long` of 32 bits. -/
def serverPortText (serverPort : Int) : Text where
  bytes := Oldc.ultoa (serverPort % 2 ^ 32).toNat 10
  noNul := Oldc.ultoa_noNul _ _

theorem cString_noNul (mem : List UInt8) : (0 : UInt8) ∉ cString mem := by
  intro member
  simpa using List.mem_takeWhile_imp member

/-- What `SetWindowText` puts into the three fields. -/
def NetioCfg.fields (config : NetioCfg) : Fields where
  clientName := ⟨cString config.clientNameMem, cString_noNul _⟩
  serverAddr := ⟨cString config.serverAddrMem, cString_noNul _⟩
  serverPort := serverPortText config.serverPort

/-- Which of the edit fields `CreateWindow()` makes. -/
structure Controls where
  clientName : Bool
  serverAddr : Bool
  serverPort : Bool

/-- A failing `osio_assert_control( ctl_h )`, with the call of `osio_win_quit` in it. -/
def controlFailed (ctl : String) : List Event :=
  [.printf true .error ("could not allocate: " ++ ctl) [],
    .printf true .debug "quit command received%s" [.str []]]

/-- `WM_CREATE`: what is logged, and the fields.  Without them `g_running` is 0. -/
def wmCreate (controls : Controls) (config : NetioCfg) : List Event × Option Fields :=
  if controls.clientName then
    if controls.serverAddr then
      if controls.serverPort then ([], some config.fields)
      else (controlFailed "server_port_h", none)
    else (controlFailed "server_addr_h", none)
  else (controlFailed "client_name_h", none)

/-- How `CreateWindow()` goes for the main window, which sends `WM_CREATE` to it. -/
inductive Creation where
  | refused
  | failed (controls : Controls)
  | created (controls : Controls)

/-- The answers that `osio_ui_setup` gets. -/
structure UiInput where
  /-- Whether `RegisterClass()` succeeds. -/
  registerClass : Bool
  creation : Creation
  /-- Whether `SetTimer()` succeeds. -/
  setTimer : Bool

/-- `osio_ui_setup`: its result, what is logged, and the fields. -/
def osioUiSetup (input : UiInput) (config : NetioCfg) : Int × List Event × Option Fields :=
  if input.registerClass then
    match input.creation with
    | .refused => (minhopErrOs, [.printf true .error "could not create window!" []], none)
    | .failed controls =>
        let (log, fields) := wmCreate controls config
        (minhopErrOs, log ++ [.printf true .error "could not create window!" []], fields)
    | .created controls =>
        let (log, fields) := wmCreate controls config
        if input.setTimer then (0, log, fields)
        else (minhopErrOs, log ++ [.printf true .error "could not set timer!" []], fields)
  else (minhopErrOs, [.printf true .error "could not register window class!" []], none)

theorem toNat_chr_digit {c : Char} (digit : c.isDigit = true) :
    (chr c).toNat = c.toNat ∧ 48 ≤ c.toNat ∧ c.toNat ≤ 57 := by
  unfold Char.isDigit at digit
  simp only [Bool.and_eq_true, decide_eq_true_eq, ge_iff_le, UInt32.le_iff_toNat_le] at digit
  obtain ⟨low, high⟩ := digit
  have small : c.toNat < 256 := Nat.lt_of_le_of_lt high (by decide)
  exact ⟨by simpa [chr] using small, low, high⟩

theorem ultoa_ten_digits (n : Nat) : ∀ c ∈ Oldc.ultoa n 10, isDigit c = true := by
  intro c member
  obtain ⟨digit, written, rfl⟩ := List.mem_map.mp member
  obtain ⟨value, low, high⟩ :=
    toNat_chr_digit (Nat.isDigit_of_mem_toDigits (by decide) (by decide) written)
  simp only [isDigit, Bool.and_eq_true, decide_eq_true_eq, UInt8.le_iff_toNat_le, value]
  exact ⟨low, high⟩

/-- What `_ultoa()` wrote is read back. -/
theorem decimalValue_ultoa (n : Nat) : decimalValue (Oldc.ultoa n 10) = n := by
  have read : ∀ digits : List Char, (∀ c ∈ digits, c.isDigit = true) → ∀ acc,
      (digits.map chr).foldl (fun value c => 10 * value + (c - chr '0').toNat) acc =
        Nat.ofDigitChars 10 digits acc := by
    intro digits
    induction digits with
    | nil => exact fun _ acc => Nat.ofDigitChars_nil.symm
    | cons c digits ih =>
        intro all acc
        obtain ⟨value, low, _⟩ := toNat_chr_digit (all c List.mem_cons_self)
        have digit : (chr c - chr '0').toNat = c.toNat - '0'.toNat := by
          have above : chr '0' ≤ chr c := by
            rw [UInt8.le_iff_toNat_le, value]
            exact low
          rw [UInt8.toNat_sub_of_le _ _ above, value]
          rfl
        rw [List.map_cons, List.foldl_cons, Nat.ofDigitChars_cons, digit]
        exact ih (fun other member => all other (List.mem_cons_of_mem c member)) _
  unfold decimalValue Oldc.ultoa
  rw [read _ fun c member => Nat.isDigit_of_mem_toDigits (by decide) (by decide) member]
  exact Nat.ofDigitChars_ten_toDigits

/-- A text that fits is taken from its field as it is. -/
theorem getWindowText_of_short {size : Nat} {text : Text} (short : text.bytes.length < size) :
    getWindowText size text = text := by
  obtain ⟨bytes, noNul⟩ := text
  simp only [getWindowText, Text.mk.injEq]
  exact List.take_of_length_le (by exact Nat.le_sub_one_of_lt short)

/-- The port is read back from its field, unless it is negative. -/
theorem atoi_serverPortText {platform : Platform} {port : Int} (notNegative : 0 ≤ port)
    (fits : port < 2 ^ (platform.intBits - 1)) :
    atoi? platform (getWindowText 64 (serverPortText port)) = some port := by
  obtain ⟨n, rfl⟩ := Int.eq_ofNat_of_zero_le notNegative
  have inLong : n < 2 ^ 32 := by
    have widest : (2 : Int) ^ (platform.intBits - 1) ≤ 2 ^ 31 := by cases platform <;> decide
    omega
  have value : ((n : Int) % 2 ^ 32).toNat = n := by omega
  have short : (serverPortText n).bytes.length < 64 := by
    have digits : (Nat.toDigits 10 n).length ≤ 10 :=
      (Nat.length_toDigits_le_iff (by decide) (by decide)).mpr (by omega)
    simp only [serverPortText, value, Oldc.ultoa, List.length_map]
    omega
  have numeral : Numeral (serverPortText n) := by
    constructor
    · simp [serverPortText, Oldc.ultoa]
    · exact ultoa_ten_digits _
  have read : atoi (serverPortText n).bytes = n := by
    rw [atoi_numeral numeral]
    simp only [serverPortText, value, decimalValue_ultoa]
  have notTooLow : -2 ^ (platform.intBits - 1) ≤ (n : Int) := by
    have lowest : -2 ^ (platform.intBits - 1) ≤ (0 : Int) := by cases platform <;> decide
    exact lowest.trans notNegative
  rw [getWindowText_of_short short, atoi?, read, if_pos ⟨notTooLow, fits⟩]

/-! ## Who connects where -/

/-- What `netio_connect` dials, and the name that the client gives itself. -/
structure Target where
  serverAddr : Vector UInt8 64
  clientName : Vector UInt8 64
  serverPort : Int
  deriving DecidableEq

def NetioCfg.target (config : NetioCfg) : Target :=
  ⟨config.serverAddr, config.clientName, config.serverPort⟩

/-- What `osio_win_save_fields` makes of the fields. -/
def Fields.target? (platform : Platform) (fields : Fields) : Option Target :=
  (atoi? platform (getWindowText 64 fields.serverPort)).map fun port =>
    ⟨strncpy 64 (getWindowText 64 fields.serverAddr), strncpy 64 (getWindowText 64 fields.clientName),
      port⟩

/-- The address and the port of a call of `connect()` for it. -/
def Target.destination (host : Host) (target : Target) : UInt32 × UInt16 :=
  (host.inetAddr (cString target.serverAddr.toList), UInt16.ofInt target.serverPort)

def Event.destination? : Event → Option (UInt32 × UInt16)
  | .connect _ _ addr port _ => some (addr, port)
  | _ => none

theorem destination_event (sockfd : Int) (output : Output) :
    (output.event sockfd).destination? = none := by
  cases output <;> rfl

theorem SameTarget.target_eq {config config' : NetioCfg} (same : SameTarget config config') :
    config'.target = config.target := by
  obtain ⟨server, name, port⟩ := same
  rw [NetioCfg.target, server, name, port, NetioCfg.target]

/-- Behind these calls nothing else was dialled than this target, which is still the one
of the configuration. -/
structure Aimed (host : Host) (target : Target) (past : List Event) (s : Sys) : Prop where
  target_eq : s.config.target = target
  dialled : ∃ calls, s.calls = past ++ calls ∧
    ∀ there ∈ calls.filterMap Event.destination?, there = target.destination host

section Aimed

variable {host : Host} {input : IterInput} {target : Target} {past : List Event} {s s' : Sys}
  {config : NetioCfg} {elapsed : Nat} {calls : List Event}

/-- More calls that dial nothing else. -/
theorem Aimed.extend (aimed : Aimed host target past s)
    (same : s'.config.target = s.config.target) (extended : s'.calls = s.calls ++ calls)
    (right : ∀ there ∈ calls.filterMap Event.destination?, there = target.destination host) :
    Aimed host target past s' := by
  obtain ⟨target_eq, before, split, still⟩ := aimed
  refine ⟨same.trans target_eq, before ++ calls, by rw [extended, split, List.append_assoc], ?_⟩
  intro there member
  rw [List.filterMap_append] at member
  exact (List.mem_append.mp member).elim (still there) (right there)

/-- More calls that do not dial at all. -/
theorem Aimed.quiet (aimed : Aimed host target past s) (follows : Follows s s' config elapsed calls)
    (same : config.target = s.config.target)
    (silent : calls.filterMap Event.destination? = []) : Aimed host target past s' := by
  refine aimed.extend (by rw [follows.config_eq, same]) follows.calls_eq ?_
  rw [silent]
  exact fun there member => absurd member List.not_mem_nil

theorem destination_connectEvent (ends : Terminated s.config.serverAddr) :
    (connectEvent host input s).destination? = some (s.config.target.destination host) := by
  have read := (cString_append ends s.config.clientNameMem).1
  rw [connectEvent, Event.destination?, NetioCfg.serverAddrMem, read]
  rfl

theorem Aimed.connect (aimed : Aimed host target past s) (ends : Terminated target.serverAddr)
    (input : IterInput) (down : s.config.socketFd = 0) :
    Aimed host target past (netioConnect host input s).2 := by
  have same := (netioConnect_sameTarget host input down).target_eq
  have right : ∀ rest, rest.filterMap Event.destination? = [] →
      ∀ there ∈ (.socket input.socket :: connectEvent host input s :: rest).filterMap
        Event.destination?, there = target.destination host := by
    intro rest silent there member
    obtain rfl := aimed.target_eq
    rw [List.filterMap_cons_none rfl,
      List.filterMap_cons_some (destination_connectEvent ends), silent] at member
    exact List.mem_singleton.mp member
  rcases netioConnect_cases host input down with ⟨_, s', called, follows⟩ |
    ⟨_, _, s', called, follows⟩ | ⟨_, _, s', called, follows⟩
  · rw [called] at same ⊢
    exact aimed.extend same follows.calls_eq fun there member => absurd member List.not_mem_nil
  · rw [called] at same ⊢
    exact aimed.extend same follows.calls_eq (right _ rfl)
  · rw [called] at same ⊢
    exact aimed.extend same follows.calls_eq (right [] rfl)

theorem Aimed.ensureConnected (aimed : Aimed host target past s)
    (ends : Terminated target.serverAddr) :
    Aimed host target past (MinputHop.ensureConnected host input s).2 := by
  unfold MinputHop.ensureConnected
  split
  · next down =>
      have dropped : Aimed host target past (Sys.emit { s with config.pktBufSz := 0 } .invalidate) :=
        aimed.quiet ((Follows.refl s).set.call rfl) rfl rfl
      exact dropped.connect ends input (by exact down)
  · exact aimed

theorem Aimed.fetch (aimed : Aimed host target past s) :
    Aimed host target past (netioFetchPackets host input s).2 := by
  rcases netioFetchPackets_cases host input s with ⟨_, s', called, follows⟩ |
    ⟨chunk, _, _, _, s', called, follows⟩ | ⟨chunk, block, szMax, calls, _, room, s', called, follows⟩
  · rw [called]
    exact aimed.quiet follows rfl rfl
  · rw [called]
    exact aimed.quiet follows rfl rfl
  · rw [called]
    refine aimed.quiet follows rfl ?_
    cases room <;> rfl

theorem Aimed.handOn (aimed : Aimed host target past s) :
    Aimed host target past (MinputHop.handOn host s).2 := by
  have handsOn := handOn_handsOn host s
  refine aimed.extend (by rw [handsOn.config_eq]; rfl) handsOn.calls_eq ?_
  intro there member
  obtain ⟨e, made, dials⟩ := List.mem_filterMap.mp member
  rcases List.mem_cons.mp made with rfl | made
  · cases dials
  · obtain ⟨output, _, rfl⟩ := List.mem_map.mp made
    rw [destination_event] at dials
    cases dials

theorem Aimed.remove (aimed : Aimed host target past s) (claimSz : UInt32) (retval : Int) :
    Aimed host target past (removePacket claimSz retval s).2 := by
  obtain ⟨config, follows⟩ := follows_removePacket claimSz retval s
  refine aimed.extend ?_ follows.calls_eq (by simp)
  unfold removePacket
  dsimp only
  split <;> rfl

theorem Aimed.leave (aimed : Aimed host target past s) (pktProcIter : Nat) (retval : Int) :
    Aimed host target past (leavePacket pktProcIter (retval, s)).2 :=
  aimed.quiet (follows_leavePacket pktProcIter (retval, s)) rfl rfl

theorem pieces_aimed (host : Host) (past : List Event) (ends : Terminated target.serverAddr) :
    Pieces host (Aimed host target past) where
  connects _ _ aimed := aimed.ensureConnected ends
  fetches _ _ aimed := aimed.fetch
  handsOn _ aimed := aimed.handOn
  removes claimSz retval _ aimed := aimed.remove claimSz retval
  waits s idle aimed := by
    rcases netioProcessPackets_cases host s with ⟨_, s', called, follows⟩ | ⟨claimed, _⟩
    · rw [called]
      exact aimed.quiet follows rfl rfl
    · exact absurd claimed idle
  leaves pktProcIter result aimed := aimed.leave pktProcIter result.1
  refused _ _ aimed := aimed.quiet (follows_osioPrintf _ _ _ _) rfl rfl
  checks s aimed := by
    rcases checkKeepalive_cases host s with ⟨_, _, follows⟩ | ⟨_, follows⟩
    · exact aimed.quiet follows rfl rfl
    · exact aimed.quiet follows rfl rfl

/-- Every piece of the program but the Save button keeps the target. -/
theorem routine_aimed (host : Host) (past : List Event) (ends : Terminated target.serverAddr) :
    Routine host (Aimed host target past) where
  staged allocated input stage _ aimed :=
    (pieces_aimed host past ends).stepPoint allocated input stage aimed
  closed _ _ _ _ closes aimed := (pieces_aimed host past ends).closeDialog closes aimed
  quitted fromUi s aimed := by
    rcases osioWinQuit_cases fromUi s with ⟨_, follows⟩ | ⟨_, follows⟩
    · exact aimed.quiet follows rfl rfl
    · exact aimed.quiet follows rfl rfl
  cleaned s aimed := by
    rcases minputMainCleanup_cases s with ⟨_, follows⟩ | ⟨_, same⟩
    · exact aimed.quiet follows rfl rfl
    · rw [same]
      exact aimed
  unasked s aimed := aimed.quiet (follows_osioPrintf _ _ _ _) rfl rfl

/-- A Save dials what it has just saved. -/
theorem aimed_saved {platform : Platform} {fields : Fields}
    (saved : osioWinSaveFields platform host fields input s = some s') :
    ∃ target, fields.target? platform = some target ∧ Terminated target.serverAddr ∧
      Aimed host target s.calls s' := by
  have closed : ∃ port mid, atoi? platform (getWindowText 64 fields.serverPort) = some port ∧
      Follows s mid (savedConfig s.config fields port) 0 [.close s.config.socketFd] ∧
      s' = (netioConnect host input mid).2 := by
    obtain ⟨port, read, rfl⟩ := Option.map_eq_some_iff.mp saved
    exact ⟨port, _, read, (Follows.refl s).disconnect.set.log.set.log.set.log, rfl⟩
  obtain ⟨port, mid, read, follows, rfl⟩ := closed
  have ends : Terminated (strncpy 64 (getWindowText 64 fields.serverAddr)) :=
    (strncpy_terminated_iff _).mpr (length_getWindowText _)
  have down : mid.config.socketFd = 0 := by
    rw [follows.config_eq]
    rfl
  have set : Aimed host (savedConfig s.config fields port).target s.calls mid :=
    ⟨by rw [follows.config_eq], _, follows.calls_eq, fun there member => absurd member List.not_mem_nil⟩
  refine ⟨_, ?_, ends, set.connect ends input down⟩
  rw [Fields.target?, read]
  rfl

theorem Aimed.trans (before : Aimed host target past s) (behind : Aimed host target s.calls s') :
    Aimed host target past s' := by
  obtain ⟨_, first, split, right⟩ := before
  obtain ⟨target_eq, second, split', right'⟩ := behind
  refine ⟨target_eq, first ++ second, by rw [split', split, List.append_assoc], ?_⟩
  intro there member
  rw [List.filterMap_append] at member
  exact (List.mem_append.mp member).elim (right there) (right' there)

theorem Aimed.left (aimed : Aimed host target past s) :
    Aimed host target past (osioPrintf .info "leaving message loop..." [] s) :=
  aimed.quiet (follows_osioPrintf _ _ _ _) rfl rfl

end Aimed

/-! ## What was saved last -/

/-- What an action of the loop makes the target. -/
def LoopAct.target? (platform : Platform) (action : LoopAct) : Option Target :=
  action.saved?.bind (Fields.target? platform)

namespace MessageLoop

variable {platform : Platform} {host : Host} {action : LoopAct} {loop next : MessageLoop}

theorem saved_of_act {fields : Fields} (saves : action.saved? = some fields)
    (taken : loop.act platform host action = some next) :
    ∃ input, osioWinSaveFields platform host fields input loop.thread.sys = some next.thread.sys := by
  cases act_moves taken with
  | @got delivery thread next cause quit handled =>
      obtain ⟨message, result, contract⟩ := delivery
      cases message with
      | save fields' input =>
          obtain rfl : fields' = fields := Option.some.inj saves
          obtain ⟨s, saved, same⟩ := Option.map_eq_some_iff.mp handled
          cases same
          exact ⟨input, saved⟩
      | timer | exit | modal | quit | other => cases saves
  | dispatched | again | left => cases saves

/-- An action dials the target that it leaves, and nothing else. -/
theorem aimed_of_act (ends : Terminated loop.thread.sys.config.serverAddr)
    (taken : loop.act platform host action = some next) :
    Terminated next.thread.sys.config.serverAddr ∧
      Aimed host ((action.target? platform).getD loop.thread.sys.config.target)
        loop.thread.sys.calls next.thread.sys := by
  cases saves : action.saved? with
  | none =>
      rw [LoopAct.target?, saves]
      have unmoved : Aimed host loop.thread.sys.config.target loop.thread.sys.calls
          loop.thread.sys :=
        ⟨rfl, [], (List.append_nil _).symm, fun there member => absurd member List.not_mem_nil⟩
      have aimed := (routine_aimed host loop.thread.sys.calls ends).moves (fun _ => Aimed.left) saves
        (act_moves taken) unmoved
      have same : next.thread.sys.config.serverAddr = loop.thread.sys.config.serverAddr :=
        congrArg Target.serverAddr aimed.target_eq
      exact ⟨same ▸ ends, aimed⟩
  | some fields =>
      obtain ⟨input, saved⟩ := saved_of_act saves taken
      obtain ⟨target, made, ends, aimed⟩ := aimed_saved saved
      have same : next.thread.sys.config.serverAddr = target.serverAddr :=
        congrArg Target.serverAddr aimed.target_eq
      rw [LoopAct.target?, saves, Option.bind_some, made]
      exact ⟨same ▸ ends, aimed⟩

/-- In every run the target is that of the last Save, or of the command line before the
first one, and `connect()` is called for no other one, whatever else happened: a
time-out, a failed connect, an iteration in the middle of another one, a quit. -/
theorem dials_last_save {s : Sys} {gRunning : Bool} {actions : List LoopAct}
    (ends : Terminated s.config.serverAddr)
    (ran : ActionSystem.run (act platform host) (fun _ _ => true) actions (.start s gRunning) =
      some loop) (taken : loop.act platform host action = some next) :
    Aimed host
      ((Registers.last? (LoopAct.target? platform) (actions ++ [action])).getD s.config.target)
      loop.thread.sys.calls next.thread.sys := by
  obtain ⟨ends, held⟩ := Registers.last?_run (fun loop => loop.thread.sys.config.target)
    (fun ends taken => ⟨(aimed_of_act ends taken).1, (aimed_of_act ends taken).2.target_eq⟩) ends ran
  have aimed := (aimed_of_act ends taken).2
  rw [held] at aimed
  rw [Registers.last?_concat, Option.getD_or]
  exact aimed

/-- Another address is saved first, and then "10.0.0.1", which does not answer; the timer fires. -/
def savesAndTick : List LoopAct :=
  [.getMessage ⟨.save ⟨pcText, textOf "10.0.0.2" (by decide), portText⟩ receivesNothing, 1, Int.one_pos⟩,
    .test,
    .getMessage ⟨.save ⟨pcText, addressText, portText⟩ { receivesNothing with connect := -1 }, 1,
      Int.one_pos⟩,
    .test, .getMessage (.timer receivesNothing 1 Int.one_pos)]

/-- The iteration behind both Saves connects to the second address. -/
theorem dials_last_save_twice : ∃ loop next,
    ActionSystem.run (act .win32 win32Host) (fun _ _ => true) savesAndTick (start defaultSetup true) =
      some loop ∧
    loop.act .win32 win32Host (.dispatch (.proceed true)) = some next ∧
    next.thread.sys.calls.length = loop.thread.sys.calls.length + 3 ∧
    Aimed win32Host ⟨strncpy 64 addressText, strncpy 64 pcText, 24801⟩ loop.thread.sys.calls
      next.thread.sys := by
  have possible : ∃ loop ∈ ActionSystem.run (act .win32 win32Host) (fun _ _ => true) savesAndTick
      (start defaultSetup true), ∃ next ∈ loop.act .win32 win32Host (.dispatch (.proceed true)),
        next.thread.sys.calls.length = loop.thread.sys.calls.length + 3 := by
    decide +kernel
  obtain ⟨loop, ran, next, taken, dialled⟩ := possible
  have ends : Terminated defaultSetup.config.serverAddr := by
    unfold Terminated
    decide +kernel
  have aimed := dials_last_save ends ran taken
  have target : (Registers.last? (LoopAct.target? .win32)
      (savesAndTick ++ [.dispatch (.proceed true)])).getD defaultSetup.config.target =
      ⟨strncpy 64 addressText, strncpy 64 pcText, 24801⟩ := by
    decide +kernel
  rw [target] at aimed
  exact ⟨loop, next, ran, taken, dialled, aimed⟩

/-- Every Save finds these texts in the fields. -/
def unedited (fields : Fields) (action : LoopAct) (_ : MessageLoop) : Prop :=
  ∀ saved, action.saved? = some saved → saved = fields

/-- What the fields show is what was given on the command line. -/
theorem fields_minputMainSetup {name server : Text} (named : name.bytes.length < 64)
    (served : server.bytes.length < 64) (port : Int) :
    (minputMainSetup (strncpy 64 server) (strncpy 64 name) port).config.fields =
      ⟨name, server, serverPortText port⟩ := by
  obtain ⟨name, noNul⟩ := name
  obtain ⟨server, noNul'⟩ := server
  have nameRead := cString_strncpy named
  have serverRead := cString_strncpy served
  simp only [NetioCfg.fields, minputMainSetup, NetioCfg.clientNameMem, NetioCfg.serverAddrMem,
    List.append_assoc, nameRead, serverRead]

/-- A Save of the fields as `WM_CREATE` filled them makes the target what it was. -/
theorem target_fields {name server : Text} {port : Int} (named : name.bytes.length < 64)
    (served : server.bytes.length < 64) (notNegative : 0 ≤ port)
    (fits : port < 2 ^ (platform.intBits - 1)) :
    Fields.target? platform ⟨name, server, serverPortText port⟩ =
      some ⟨strncpy 64 server, strncpy 64 name, port⟩ := by
  rw [Fields.target?, atoi_serverPortText notNegative fits, Option.map_some,
    getWindowText_of_short named, getWindowText_of_short served]

/-- As long as nobody edits the fields, every `connect()` of the run goes to the server and
the port of the command line, and the name is the one given there, however often the
button is pressed. -/
theorem unedited_saves {name server : Text} {port : Int} (named : name.bytes.length < 64)
    (served : server.bytes.length < 64) (notNegative : 0 ≤ port)
    (fits : port < 2 ^ (platform.intBits - 1)) {start : Sys} {gRunning : Bool}
    (started : start = minputMainSetup (strncpy 64 server) (strncpy 64 name) port)
    (reach : Reach platform host (unedited start.config.fields) (.start start gRunning) loop) :
    loop.thread.sys.config.target = start.config.target ∧
      ∀ there ∈ loop.thread.sys.calls.filterMap Event.destination?,
        there = (host.inetAddr server.bytes, UInt16.ofInt port) := by
  subst started
  have ends : Terminated (strncpy 64 server) := (strncpy_terminated_iff server).mpr served
  have shows := fields_minputMainSetup named served port
  have aimed : Aimed host ⟨strncpy 64 server, strncpy 64 name, port⟩ [] loop.thread.sys := by
    induction reach with
    | start => exact ⟨rfl, [], rfl, fun there member => absurd member List.not_mem_nil⟩
    | step action _ same taken aimed =>
        cases saves : action.saved? with
        | none =>
            exact (routine_aimed host [] ends).moves (fun _ => Aimed.left) saves (act_moves taken) aimed
        | some fields =>
            obtain ⟨input, saved⟩ := saved_of_act saves taken
            obtain ⟨target, made, _, behind⟩ := aimed_saved saved
            rw [same fields saves, shows, target_fields named served notNegative fits] at made
            exact aimed.trans (Option.some.inj made ▸ behind)
  obtain ⟨target_eq, calls, split, right⟩ := aimed
  refine ⟨target_eq, ?_⟩
  have read : cString (strncpy 64 server).toList = server.bytes := by
    have whole := cString_strncpy served []
    rwa [List.append_nil] at whole
  rw [split, List.nil_append, ← read]
  exact right

/-- "10.0.0.1" and port 24801 are saved. -/
def saveAddress : LoopAct :=
  .getMessage ⟨.save ⟨pcText, addressText, portText⟩ receivesNothing, 1, Int.one_pos⟩

theorem unedited_saves_desk : ∃ loop,
    Reach .win32 win32Host (unedited ⟨pcText, addressText, portText⟩)
        (.start (minputMainSetup (strncpy 64 addressText) (strncpy 64 pcText) 24801) true) loop ∧
      loop.thread.sys.config.target = ⟨strncpy 64 addressText, strncpy 64 pcText, 24801⟩ ∧
      ∀ there ∈ loop.thread.sys.calls.filterMap Event.destination?, there = (0x0100000a, 24801) := by
  have possible : ((start (minputMainSetup (strncpy 64 addressText) (strncpy 64 pcText) 24801)
      true).act .win32 win32Host saveAddress).isSome = true := by
    decide +kernel
  obtain ⟨loop, taken⟩ := Option.isSome_iff_exists.mp possible
  have short : pcText.bytes.length < 64 ∧ addressText.bytes.length < 64 := by decide
  have port : serverPortText 24801 = portText := by
    have digits : (serverPortText 24801).bytes = portText.bytes := by decide +kernel
    cases written : serverPortText 24801
    rw [written] at digits
    cases digits
    rfl
  have shown := fields_minputMainSetup short.1 short.2 24801
  rw [port] at shown
  have reach : Reach .win32 win32Host (unedited ⟨pcText, addressText, portText⟩)
      (.start (minputMainSetup (strncpy 64 addressText) (strncpy 64 pcText) 24801) true) loop :=
    .step saveAddress .start (fun _ same => (Option.some.inj same).symm) taken
  rw [← shown] at reach
  have kept := unedited_saves short.1 short.2 (by decide) (by decide) rfl reach
  rw [shown] at reach
  exact ⟨loop, reach, kept⟩

end MessageLoop

/-! ## A field that is missing -/

/-- The message that an action of the loop gets. -/
def LoopAct.delivery? : LoopAct → Option Delivery
  | .getMessage delivery => some delivery
  | .dispatch _ | .test => none

namespace MessageLoop

variable {platform : Platform} {host : Host} {loop next : MessageLoop} {delivery : Delivery}

/-- The loop has its message, and `g_running` is 0. -/
structure Spent (delivery : Delivery) (loop : MessageLoop) : Prop where
  msg_eq : loop.msg = some delivery
  stopped : loop.thread.phase ≠ .running

theorem Spent.step {action : LoopAct} (spent : Spent delivery loop)
    (taken : loop.act platform host action = some next) :
    action.delivery? = none ∧ Spent delivery next := by
  obtain ⟨msg_eq, stopped⟩ := spent
  cases act_moves taken with
  | got => cases msg_eq
  | dispatched nests _ stepped =>
      refine ⟨rfl, msg_eq, ?_⟩
      rcases Thread.phase_of_nested nests stepped with ⟨_, same⟩ | ⟨_, ended⟩
      · exact fun running => stopped (same.symm.trans running)
      · exact fun running => Phase.noConfusion (ended.symm.trans running)
  | again behind _ =>
      obtain ⟨_, phase⟩ := afterDispatch_eq behind
      split at phase
      · cases phase
      · exact absurd phase.symm stopped
  | left behind _ =>
      obtain ⟨_, phase⟩ := afterDispatch_eq behind
      refine ⟨rfl, msg_eq, ?_⟩
      split at phase
      · exact fun running => Phase.noConfusion (phase.symm.trans running)
      · exact fun running => stopped (phase.symm.trans running)

theorem Spent.run {actions : List LoopAct} (spent : Spent delivery loop)
    (ran : ActionSystem.run (MessageLoop.act platform host) (fun _ _ => true) actions loop = some next) :
    actions.filterMap LoopAct.delivery? = [] ∧ Spent delivery next := by
  induction actions generalizing loop with
  | nil => exact ⟨rfl, Option.some.inj ran ▸ spent⟩
  | cons action actions ih =>
      rw [ActionSystem.run, if_pos rfl] at ran
      obtain ⟨mid, taken, ran⟩ := Option.bind_eq_some_iff.mp ran
      obtain ⟨none, spent⟩ := spent.step taken
      rw [List.filterMap_cons_none none]
      exact ih spent ran

/-- With `g_running` at 0 the loop handles one message, and leaves. -/
theorem one_message {s : Sys} {actions : List LoopAct}
    (ran : ActionSystem.run (act platform host) (fun _ _ => true) actions (.start s false) =
      some loop) :
    actions = [] ∧ loop = .start s false ∨
      ∃ delivery, actions.filterMap LoopAct.delivery? = [delivery] ∧ Spent delivery loop := by
  cases actions with
  | nil => exact .inl ⟨rfl, (Option.some.inj ran).symm⟩
  | cons action actions =>
      rw [ActionSystem.run, if_pos rfl] at ran
      obtain ⟨mid, taken, ran⟩ := Option.bind_eq_some_iff.mp ran
      cases action with
      | dispatch | test => cases taken
      | getMessage delivery =>
          obtain ⟨⟨quit, thread⟩, handled, rfl⟩ := Option.map_eq_some_iff.mp taken
          have stopped : thread.phase ≠ .running := by
            rcases phase_of_wndProc handled with ⟨_, same⟩ | ⟨_, ended⟩
            · exact fun running => Phase.noConfusion (same.symm.trans running)
            · exact fun running => Phase.noConfusion (ended.symm.trans running)
          have spent : Spent delivery ⟨thread, some delivery, (some Cause.create).or quit, none⟩ :=
            ⟨rfl, stopped⟩
          obtain ⟨none, spent⟩ := spent.run ran
          have head : LoopAct.delivery? (.getMessage delivery) = some delivery := rfl
          exact .inr ⟨delivery, by rw [List.filterMap_cons_some head, none], spent⟩

theorem winMainReport_eq_nil_iff (retval : Int) : winMainReport retval = [] ↔ retval = 0 := by
  unfold winMainReport
  simp

theorem value_eq_zero_iff (delivery : Delivery) :
    delivery.value = 0 ↔ delivery.message = .quit 0 := by
  obtain ⟨message, result, contract⟩ := delivery
  cases message with
  | quit wParam => simp [Delivery.value]
  | timer | exit | save | modal | other =>
      have positive : 0 < result := contract
      simp [Delivery.value, positive.ne']

/-- A field that cannot be made does not stop the start: `osio_ui_setup` returns 0 all the
same.  The main loop then handles exactly one message, whatever it is, and the process ends
with what `GetMessage()` returned for it, or the `wParam` of `WM_QUIT`; it is reported unless
this was `WM_QUIT` with 0. -/
theorem missing_field {ui : UiInput} {config : NetioCfg} {s : Sys} {actions : List LoopAct}
    {retval : Int} (missing : (osioUiSetup ui config).2.2 = none)
    (ran : ActionSystem.run (act platform host) (fun _ _ => true) actions
      (.start s (osioUiSetup ui config).2.2.isSome) = some loop)
    (returned : loop.returned = some retval) :
    ((osioUiSetup ui config).1 = 0 ↔ ui.registerClass = true ∧ ui.setTimer = true ∧
      ∃ controls, ui.creation = .created controls) ∧
    ∃ delivery, actions.filterMap LoopAct.delivery? = [delivery] ∧ retval = delivery.value ∧
      (winMainReport retval = [] ↔ delivery.message = .quit 0) := by
  constructor
  · obtain ⟨registered, creation, timer⟩ := ui
    have error : minhopErrOs ≠ 0 := by decide
    unfold osioUiSetup
    cases registered <;> cases creation <;> cases timer <;> simp [error]
  · rw [missing] at ran
    rcases one_message ran with ⟨_, rfl⟩ | ⟨delivery, got, spent⟩
    · cases returned
    · have reach : Reach platform host anyLoopAct (.start s false) loop :=
        .of_run (fun _ _ _ => trivial) .start ran
      obtain ⟨last, msg, value, _⟩ := (Reach.consistent reach).left retval returned
      obtain rfl : delivery = last := Option.some.inj (spent.msg_eq.symm.trans msg)
      refine ⟨delivery, got, value, ?_⟩
      rw [winMainReport_eq_nil_iff, value, value_eq_zero_iff]

/-- The second field is missing, and another message comes first. -/
def missingAddress : UiInput := ⟨true, .created ⟨true, false, true⟩, true⟩

theorem missing_field_other :
    ((osioUiSetup missingAddress zeroedConfig).1 = 0 ↔ missingAddress.registerClass = true ∧
      missingAddress.setTimer = true ∧ ∃ controls, missingAddress.creation = .created controls) ∧
    ∃ delivery, [LoopAct.getMessage ⟨.other, 1, Int.one_pos⟩, .test].filterMap
        LoopAct.delivery? = [delivery] ∧ (1 : Int) = delivery.value ∧
      (winMainReport 1 = [] ↔ delivery.message = .quit 0) :=
  missing_field rfl
    (show ActionSystem.run (act .win32 win32Host) (fun _ _ => true)
      [.getMessage ⟨.other, 1, Int.one_pos⟩, .test] (.start defaultSetup false) = some _ from rfl) rfl

end MessageLoop

end MinputHop
