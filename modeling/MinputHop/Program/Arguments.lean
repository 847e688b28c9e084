import MinputHop.Program.Connections

/-!
# Command line and start

From `argv` to the configuration, through the check at the head of
`minput_main`, to the address that `netio_connect` dials.
-/

namespace MinputHop

open FlatMemory

/-! ## Strings -/

/-- A string that someone passes in, without its NUL. -/
structure Text where
  bytes : List UInt8
  noNul : (0 : UInt8) ∉ bytes

/-- `strncpy( dst, src, size )`: a string that fills the array gets no NUL. -/
def strncpy (size : Nat) (src : Text) : Vector UInt8 size :=
  ⟨(src.bytes.take size ++ List.replicate (size - src.bytes.length) 0).toArray, by simp; omega⟩

theorem toList_strncpy (size : Nat) (src : Text) :
    (strncpy size src).toList = src.bytes.take size ++ List.replicate (size - src.bytes.length) 0 :=
  rfl

/-- A string ends at its NUL, whatever lies behind it. -/
theorem cString_append_nul {text : List UInt8} (noNul : (0 : UInt8) ∉ text) (rest : List UInt8) :
    cString (text ++ 0 :: rest) = text := by
  have before : ∀ byte ∈ text, decide (byte ≠ 0) = true :=
    fun byte member => decide_eq_true (ne_of_mem_of_not_mem member noNul)
  rw [cString, List.takeWhile_append_of_pos before, List.takeWhile_cons_of_neg (by simp),
    List.append_nil]

/-- A copied string that is shorter than the array is read back whole. -/
theorem cString_strncpy {size : Nat} {src : Text} (short : src.bytes.length < size)
    (rest : List UInt8) : cString ((strncpy size src).toList ++ rest) = src.bytes := by
  obtain ⟨pad, padded⟩ : ∃ pad, size - src.bytes.length = pad + 1 :=
    ⟨size - src.bytes.length - 1, by omega⟩
  rw [toList_strncpy, padded, List.take_of_length_le (Nat.le_of_lt short), List.replicate_succ,
    List.append_assoc, List.cons_append]
  exact cString_append_nul src.noNul _

/-- The first character of a copied string is NUL only for the empty string. -/
theorem strncpy_zero_iff {size : Nat} (src : Text) :
    (strncpy (size + 1) src)[0] = 0 ↔ src.bytes = [] := by
  obtain ⟨bytes, noNul⟩ := src
  cases bytes with
  | nil => exact iff_of_true rfl rfl
  | cons byte rest =>
      refine iff_of_false (fun zero => noNul ?_) (List.cons_ne_nil _ _)
      exact List.mem_cons.mpr (.inl zero.symm)

/-! ## `osio_parse_args` and `minput_main` -/

/-- The builds of the program. -/
inductive Platform where
  | unix
  | win16
  | win32
  deriving DecidableEq

/-- Width of `int` in bits. -/
def Platform.intBits : Platform → Nat
  | .win16 => 16
  | .unix | .win32 => 32

/-- `atoi()`; `none` is undefined behaviour, a number that does not fit in `int`. -/
def atoi? (platform : Platform) (text : Text) : Option Int :=
  if -2 ^ (platform.intBits - 1) ≤ atoi text.bytes ∧ atoi text.bytes < 2 ^ (platform.intBits - 1)
  then some (atoi text.bytes) else none

/-- The record after `memset( &config, '\0', sizeof( struct NETIO_CFG ) )`. -/
def zeroedConfig : NetioCfg where
  serverAddr := Vector.replicate 64 0
  clientName := Vector.replicate 64 0
  serverPort := 0
  socketFd := 0
  calvDeadline := 0
  pktBuf := ⟨0, fun _ => 0⟩
  pktBufSz := 0
  pktBufSzMax := 0

/-- Very simple arg parser, the same text in `osio_unix.c` and `osio_win.c`.  With a fourth
argument the port is read from the third. -/
def osioParseArgs (platform : Platform) (argv : List Text) (config : NetioCfg) : Option NetioCfg :=
  let config := { config with serverPort := 24800 }
  match argv with
  | _ :: name :: server :: rest =>
      let port? := if rest = [] then some config.serverPort else atoi? platform server
      port?.map fun port =>
        { config with
          serverPort := port
          serverAddr := strncpy 64 server
          clientName := strncpy 64 name }
  | _ => some config

/-- `MINHOP_ERR_ARGS` and the error of `calloc()`. -/
def minhopErrArgs : Int := 32

/-- What `minput_main` meets before the main loop. -/
structure StartInput where
  /-- `calloc()` does not return NULL. -/
  calloc : Bool
  uiSetup : Int
  netioSetup : Int

/-- `minput_main` up to `osio_loop`: what is logged, and the error it ends with
or the state in which the loop starts. -/
def minputMain (input : StartInput) (config : NetioCfg) : List Event × Except Int Sys :=
  if config.clientName[0] = 0 ∨ config.serverAddr[0] = 0 ∨ config.serverPort = 0 then
    ([.printf true .error "usage: minhop <name> <server> [port]" []], .error minhopErrArgs)
  else
    let config := { config with pktBufSzMax := UInt32.ofNat sockbufSz, pktBufSz := 0 }
    let log := [.printf true .debug "setting up packet buffer with initial size of %lu..."
      [.num config.pktBufSzMax.toNat]]
    if input.calloc then
      let config := { config with pktBuf := ⟨sockbufSz, fun _ => 0⟩ }
      let log := log ++ [.printf true .debug "starting up UI..." []]
      if input.uiSetup ≠ 0 then (log, .error input.uiSetup)
      else
        let log := log ++ [.printf true .debug "starting up network..." [],
          .printf true .info "setting up network..." []]
        if input.netioSetup ≠ 0 then (log, .error input.netioSetup)
        else
          (log ++ [.printf true .debug "starting main loop..." []],
            .ok { config := config, mouseX := 0, mouseY := 0, ticks := 0, trace := [] })
    else (log ++ [.printf true .error "could not allocate packet buffer!" []], .error minhopErrAlloc)

/-- An argument is missing, as `minput_main` checks them. -/
def NetioCfg.Incomplete (config : NetioCfg) : Prop :=
  config.clientName[0] = 0 ∨ config.serverAddr[0] = 0 ∨ config.serverPort = 0

instance (config : NetioCfg) : Decidable config.Incomplete :=
  inferInstanceAs (Decidable (_ ∨ _ ∨ _))

/-- Everything that `minput_main` asks for before the main loop is there. -/
def started : StartInput := ⟨true, 0, 0⟩

theorem minputMain_reject {config : NetioCfg} (input : StartInput)
    (missing : config.clientName[0] = 0 ∨ config.serverAddr[0] = 0 ∨ config.serverPort = 0) :
    (minputMain input config).2 = .error minhopErrArgs := by
  rw [minputMain, if_pos missing]

/-- A complete configuration fresh from `main` starts the main loop. -/
theorem minputMain_accept {config : NetioCfg} (name : config.clientName[0] ≠ 0)
    (server : config.serverAddr[0] ≠ 0) (port : config.serverPort ≠ 0)
    (fresh : config.socketFd = 0 ∧ config.calvDeadline = 0) :
    (minputMain started config).2 =
      .ok (minputMainSetup config.serverAddr config.clientName config.serverPort) := by
  have complete : ¬(config.clientName[0] = 0 ∨ config.serverAddr[0] = 0 ∨ config.serverPort = 0) :=
    fun missing => missing.elim name fun other => other.elim server port
  rw [minputMain, if_neg complete]
  obtain ⟨serverAddr, clientName, serverPort, socketFd, calvDeadline, _, _, _⟩ := config
  obtain ⟨rfl, rfl⟩ := fresh
  rfl

/-! ## Numerals, and what a run dials -/

/-- A port as it is given on the command line. -/
def Numeral (text : Text) : Prop := text.bytes ≠ [] ∧ ∀ c ∈ text.bytes, isDigit c = true

def decimalValue (digits : List UInt8) : Nat :=
  digits.foldl (fun value c => 10 * value + (c - chr '0').toNat) 0

theorem leadingDigits_digits {digits : List UInt8} (all : ∀ c ∈ digits, isDigit c = true)
    (acc : Nat) : leadingDigits acc digits =
      digits.foldl (fun value c => 10 * value + (c - chr '0').toNat) acc := by
  induction digits generalizing acc with
  | nil => rfl
  | cons c rest ih =>
      rw [leadingDigits, if_pos (all c List.mem_cons_self), List.foldl_cons]
      exact ih (fun other member => all other (List.mem_cons_of_mem _ member)) _

/-- A digit is no blank and no sign. -/
theorem isDigit_apart {c : UInt8} (digit : isDigit c = true) :
    isSpace c = false ∧ c ≠ chr '-' ∧ c ≠ chr '+' := by
  rw [isDigit, Bool.and_eq_true, decide_eq_true_iff, UInt8.le_iff_toNat_le] at digit
  have low : 48 ≤ c.toNat := digit.1
  have apart {other : UInt8} (below : other.toNat < 48) : c ≠ other := by
    rintro rfl
    omega
  have noControl : ¬c ≤ 13 := by
    rw [UInt8.le_iff_toNat_le]
    exact Nat.not_le_of_lt (Nat.lt_of_lt_of_le (by decide) low)
  refine ⟨?_, apart (by decide), apart (by decide)⟩
  rw [isSpace, decide_eq_false (apart (by decide)), decide_eq_false noControl, Bool.and_false,
    Bool.or_false]

/-- `atoi()` reads a numeral. -/
theorem atoi_numeral {text : Text} (numeral : Numeral text) :
    atoi text.bytes = decimalValue text.bytes := by
  obtain ⟨some, all⟩ := numeral
  obtain ⟨bytes, _⟩ := text
  cases bytes with
  | nil => exact absurd rfl some
  | cons c rest =>
      obtain ⟨noSpace, noMinus, noPlus⟩ := isDigit_apart (all c List.mem_cons_self)
      have read : (c :: rest).dropWhile isSpace = c :: rest :=
        List.dropWhile_cons_of_neg (by rw [noSpace]; exact Bool.false_ne_true)
      rw [atoi, read]
      dsimp only
      rw [if_neg noMinus, if_neg noPlus, leadingDigits_digits all, decimalValue]

/-- The fields that say who connects where. -/
def SameTarget (config config' : NetioCfg) : Prop :=
  config'.serverAddr = config.serverAddr ∧ config'.clientName = config.clientName ∧
    config'.serverPort = config.serverPort

theorem Step.sameTarget {host : Host} {input : IterInput} {stage stage' : Stage} {s s' : Sys}
    (step : Step host input stage s stage' s') : SameTarget s.config s'.config := by
  cases step with
  | connected | rested => exact ⟨rfl, rfl, rfl⟩
  | failed _ _ follows | opened _ _ _ follows | starved _ follows | exhausted _ _ _ follows
  | filled _ _ follows | waited _ follows | dropped _ _ follows | kept _ follows =>
      rw [follows.config_eq]
      exact ⟨rfl, rfl, rfl⟩
  | took _ _ dispatches | overran _ _ dispatches =>
      rw [dispatches.config_eq]
      exact ⟨rfl, rfl, rfl⟩

theorem Reach.sameTarget {host : Host} {Admits : IterInput → Stage → Sys → Prop} {start s : Sys}
    {input : IterInput} {stage : Stage} (reach : Reach host Admits start input stage s) :
    SameTarget start.config s.config := by
  refine Reach.induction (fun _ s => SameTarget start.config s.config) ⟨rfl, rfl, rfl⟩ ?_ id reach
  intro _ _ s _ s' _ _ step ⟨server, name, port⟩
  obtain ⟨server', name', port'⟩ := step.sameTarget
  exact ⟨server'.trans server, name'.trans name, port'.trans port⟩

/-- `netio_connect` opens one socket and dials the server at the port with it. -/
def Dials (host : Host) (server : Text) (port : Nat) (s : Sys) : Prop :=
  ∀ input : IterInput, s.config.socketFd = 0 → input.socket ≠ -1 → ∃ rest,
    (netioConnect host input s).2.calls = s.calls ++ .socket input.socket ::
      .connect (host.clock s.ticks) input.socket (host.inetAddr server.bytes) (UInt16.ofNat port)
        input.connect :: rest ∧
    (rest = [] ∨ rest = [.close input.socket])

theorem ofInt_port (port : Nat) : UInt16.ofInt (port : Int) = UInt16.ofNat port := by
  have reduced : ((port : Int) % 2 ^ 16).toNat = port % 2 ^ 16 := by norm_cast
  rw [UInt16.ofInt, reduced]
  apply UInt16.toNat_inj.mp
  rw [UInt16.toNat_ofNat', UInt16.toNat_ofNat', Nat.mod_mod]

theorem dials_of_config {host : Host} {server : Text} {port : Nat} {s : Sys}
    (address : cString s.config.serverAddrMem = server.bytes) (same : s.config.serverPort = port) :
    Dials host server port s := by
  intro input down socket
  have event : connectEvent host input s = .connect (host.clock s.ticks) input.socket
      (host.inetAddr server.bytes) (UInt16.ofNat port) input.connect := by
    rw [connectEvent, address, same, ofInt_port]
  by_cases accepted : input.connect = 0
  · obtain ⟨s', called, follows⟩ := netioConnect_connected host down socket accepted
    rw [called, follows.calls_eq, event]
    exact ⟨[], rfl, .inl rfl⟩
  · obtain ⟨s', called, follows⟩ := netioConnect_refused host down socket accepted
    rw [called, follows.calls_eq, event]
    exact ⟨_, rfl, .inr rfl⟩

/-! ## The documented command line -/

/-- `minhop <name> <server> [port]`; the server may be any text that fits. -/
structure Documented (argv : List Text) (name server : Text) (port : Nat) : Prop where
  shape : ∃ self, argv = [self, name, server] ∧ port = 24800 ∨
    ∃ text, argv = [self, name, server, text] ∧ Numeral text ∧ decimalValue text.bytes = port
  named : name.bytes ≠ [] ∧ name.bytes.length < 64
  served : server.bytes ≠ [] ∧ server.bytes.length < 64
  inRange : 1 ≤ port ∧ port < 65536

/-- Something is missing or empty, or the given port is 0. -/
inductive Incorrect : List Text → Prop where
  | missing {argv : List Text} (few : argv.length < 3) : Incorrect argv
  | empty {self name server : Text} {rest : List Text}
      (blank : name.bytes = [] ∨ server.bytes = []) : Incorrect (self :: name :: server :: rest)
  | zeroPort {self name server text : Text} {rest : List Text} (numeral : Numeral text)
      (zero : decimalValue text.bytes = 0) : Incorrect (self :: name :: server :: text :: rest)

/-- The configuration holds what was given, `minput_main` accepts it, and that
is what every `netio_connect` of the run dials. -/
structure Accepted (config : NetioCfg) (name server : Text) (port : Nat) : Prop where
  name_eq : cString config.clientNameMem = name.bytes
  server_eq : cString config.serverAddrMem = server.bytes
  port_eq : config.serverPort = port
  starts : ∃ start, (minputMain started config).2 = .ok start ∧
    ∀ host input stage s, Reach host anyStep start input stage s → Dials host server port s

/-- What is expected of a command line. -/
def Obeys (platform : Platform) (argv : List Text) : Prop :=
  (∀ name server port, Documented argv name server port → ∃ config,
    osioParseArgs platform argv zeroedConfig = some config ∧ Accepted config name server port) ∧
  (Incorrect argv → ∃ config, osioParseArgs platform argv zeroedConfig = some config ∧
    ∀ input, (minputMain input config).2 = .error minhopErrArgs)

/-- The number that the server starts with is the given port, or does not matter. -/
def PortAgrees (platform : Platform) : List Text → Prop
  | _ :: name :: server :: text :: _ => ∃ n, atoi? platform server = some n ∧
      (name.bytes = [] ∨ server.bytes = [] ∨ n = decimalValue text.bytes)
  | _ => True

def parsedConfig (name server : Text) (port : Int) : NetioCfg :=
  { zeroedConfig with
    serverPort := port
    serverAddr := strncpy 64 server
    clientName := strncpy 64 name }

theorem osioParseArgs_default (platform : Platform) (self name server : Text) :
    osioParseArgs platform [self, name, server] zeroedConfig =
      some (parsedConfig name server 24800) := rfl

theorem osioParseArgs_port (platform : Platform) (self name server text : Text)
    (rest : List Text) :
    osioParseArgs platform (self :: name :: server :: text :: rest) zeroedConfig =
      (atoi? platform server).map (parsedConfig name server) := by
  rw [osioParseArgs]
  dsimp only
  rw [if_neg (List.cons_ne_nil _ _)]
  rfl

section Parsed

variable {name server : Text} {n : Int} {port : Nat}

theorem parsed_rejected (missing : name.bytes = [] ∨ server.bytes = [] ∨ n = 0)
    (input : StartInput) : (minputMain input (parsedConfig name server n)).2 = .error minhopErrArgs :=
  minputMain_reject input
    (missing.imp (strncpy_zero_iff name).mpr (Or.imp_left (strncpy_zero_iff server).mpr))

theorem parsed_starts (named : name.bytes ≠ []) (served : server.bytes ≠ []) (some : n ≠ 0) :
    (minputMain started (parsedConfig name server n)).2 =
      .ok (minputMainSetup (strncpy 64 server) (strncpy 64 name) n) :=
  minputMain_accept (fun zero => named ((strncpy_zero_iff name).mp zero))
    (fun zero => served ((strncpy_zero_iff server).mp zero)) some ⟨rfl, rfl⟩

theorem parsed_accepted (named : name.bytes ≠ [] ∧ name.bytes.length < 64)
    (served : server.bytes ≠ [] ∧ server.bytes.length < 64) (positive : 1 ≤ port) :
    Accepted (parsedConfig name server port) name server port where
  name_eq := by
    rw [NetioCfg.clientNameMem, List.append_assoc, List.append_assoc]
    exact cString_strncpy named.2 _
  server_eq := cString_strncpy served.2 _
  port_eq := rfl
  starts := by
    refine ⟨_, parsed_starts named.1 served.1 (by omega), fun host input stage s reach => ?_⟩
    obtain ⟨server_eq, _, port_eq⟩ := Reach.sameTarget reach
    refine dials_of_config ?_ port_eq
    rw [NetioCfg.serverAddrMem, server_eq]
    exact cString_strncpy served.2 _

end Parsed

/-- The command line is obeyed exactly when no port is given, or the number at
the start of the server happens to be the given port, or something is missing. -/
theorem obeys_iff (platform : Platform) {argv : List Text}
    (covered : Incorrect argv ∨ ∃ name server port, Documented argv name server port) :
    Obeys platform argv ↔ PortAgrees platform argv := by
  match argv with
  | [] | [_] | [_, _] =>
      refine iff_of_true ⟨fun name server port documented => ?_, fun _ => ?_⟩ trivial
      · obtain ⟨self, ⟨shape, _⟩ | ⟨text, shape, _⟩⟩ := documented.shape <;> cases shape
      · exact ⟨_, rfl, fun input => minputMain_reject input (.inl rfl)⟩
  | [self, name, server] =>
      refine iff_of_true ⟨fun name' server' port documented => ?_, fun incorrect => ?_⟩ trivial
      · obtain ⟨_, ⟨shape, rfl⟩ | ⟨text, shape, _⟩⟩ := documented.shape
        · obtain ⟨rfl, rfl, rfl, _⟩ := by simpa using shape
          exact ⟨_, osioParseArgs_default _ _ _ _,
            parsed_accepted documented.named documented.served documented.inRange.1⟩
        · cases shape
      · refine ⟨_, osioParseArgs_default _ _ _ _, parsed_rejected ?_⟩
        cases incorrect with
        | missing few => exact absurd few (Nat.lt_irrefl 3)
        | empty blank => exact blank.imp id .inl
  | self :: name :: server :: text :: rest =>
      rw [Obeys, osioParseArgs_port]
      constructor
      · rintro ⟨accepts, rejects⟩
        rcases covered with incorrect | ⟨name', server', port, documented⟩
        · obtain ⟨config, parsed, rejected⟩ := rejects incorrect
          obtain ⟨n, read, rfl⟩ := Option.map_eq_some_iff.mp parsed
          refine ⟨n, read, ?_⟩
          by_contra! agree
          obtain ⟨named, served, differs⟩ := agree
          have zero : n = 0 := by
            by_contra some
            have both := (rejected started).symm.trans (parsed_starts named served some)
            cases both
          cases incorrect with
          | missing few => exact absurd few (by simp)
          | empty blank => exact blank.elim named served
          | zeroPort _ none => exact differs (by rw [zero, none]; rfl)
        · obtain ⟨config, parsed, accepted⟩ := accepts name' server' port documented
          obtain ⟨n, read, rfl⟩ := Option.map_eq_some_iff.mp parsed
          obtain ⟨_, ⟨shape, _⟩ | ⟨text', shape, _, value⟩⟩ := documented.shape
          · cases shape
          · obtain ⟨_, _, _, rfl, _⟩ := by simpa using shape
            refine ⟨n, read, .inr (.inr ?_)⟩
            rw [value]
            exact accepted.port_eq
      · rintro ⟨n, read, agree⟩
        rw [read, Option.map_some]
        refine ⟨fun name' server' port documented => ⟨_, rfl, ?_⟩, fun incorrect =>
          ⟨_, rfl, parsed_rejected ?_⟩⟩
        · obtain ⟨_, ⟨shape, _⟩ | ⟨text', shape, _, value⟩⟩ := documented.shape
          · cases shape
          · obtain ⟨_, rfl, rfl, rfl, _⟩ := by simpa using shape
            rcases agree with blank | blank | rfl
            · exact absurd blank documented.named.1
            · exact absurd blank documented.served.1
            · rw [value]
              exact parsed_accepted documented.named documented.served documented.inRange.1
        · cases incorrect with
          | missing few => exact absurd few (by simp)
          | empty blank => exact blank.imp id .inl
          | zeroPort _ none => exact agree.imp id (Or.imp id fun same => same.trans (by rw [none]; rfl))

/-- A text without NUL. -/
def textOf (s : String) (noNul : (0 : UInt8) ∉ ascii s) : Text := ⟨ascii s, noNul⟩

def pcText : Text := textOf "pc" (by decide)
def addressText : Text := textOf "10.0.0.1" (by decide)
def portText : Text := textOf "24801" (by decide)

/-- `minhop pc 10.0.0.1` -/
def plainArgs : List Text := [textOf "minhop" (by decide), pcText, addressText]

/-- `minhop pc 10.0.0.1 24801` -/
def portArgs : List Text := plainArgs ++ [portText]

theorem obeys_iff_plain : Obeys .unix plainArgs ↔ PortAgrees .unix plainArgs :=
  obeys_iff .unix (.inr ⟨pcText, addressText, 24800, ⟨_, .inl ⟨rfl, rfl⟩⟩, by decide, by decide,
    by decide⟩)

/-- The port 10 is taken, from the address. -/
theorem obeys_not_always :
    ¬∀ (platform : Platform) (argv : List Text),
      (Incorrect argv ∨ ∃ name server port, Documented argv name server port) →
      Obeys platform argv := by
  intro always
  have documented : Documented portArgs pcText addressText 24801 :=
    ⟨⟨_, .inr ⟨portText, rfl, ⟨by decide, List.all_eq_true.mp (by decide)⟩, by decide⟩⟩,
      by decide, by decide, by decide⟩
  obtain ⟨config, parsed, accepted⟩ :=
    (always .unix portArgs (.inr ⟨_, _, _, documented⟩)).1 _ _ _ documented
  have port : (osioParseArgs .unix portArgs zeroedConfig).map NetioCfg.serverPort = some 10 := by
    decide
  rw [parsed, Option.map_some, accepted.port_eq] at port
  exact absurd port (by decide)

end MinputHop
