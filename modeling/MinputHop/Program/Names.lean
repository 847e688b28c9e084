import MinputHop.Program.Session
import MinputHop.Program.Replies

/-!
# The strings of the configuration

Three writers fill the two arrays with `strncpy`, which leaves no NUL when the
source is as long as the array.  The Save button copies from a field that was
cut to fit; the argument parsers copy what they are given.
-/

namespace MinputHop

open FlatMemory

/-! ## Copied strings -/

theorem strncpy_terminated_iff (src : Text) :
    Terminated (strncpy 64 src) ↔ src.bytes.length < 64 := by
  rw [Terminated, toList_strncpy, List.mem_append, List.mem_replicate]
  constructor
  · rintro (member | ⟨pad, _⟩)
    · exact absurd (List.mem_of_mem_take member) src.noNul
    · omega
  · intro short
    exact .inr ⟨by omega, rfl⟩

theorem clientNameOf_strncpy {src : Text} (short : src.bytes.length < 64) :
    clientNameOf (strncpy 64 src) = src.bytes := by
  have read := cString_strncpy short []
  rwa [List.append_nil] at read

theorem length_getWindowText (field : Text) : (getWindowText 64 field).bytes.length < 64 := by
  rw [getWindowText, List.length_take]
  omega

/-! ## Reading them -/

/-- Both strings end inside their arrays, so that is where every read of them
stops, whatever lies behind. -/
structure Ends (config : NetioCfg) : Prop where
  name : Terminated config.clientName
  server : Terminated config.serverAddr
  nameRead : ∀ behind, (cString (config.clientName.toList ++ behind)).length < 64
  serverRead : ∀ behind, (cString (config.serverAddr.toList ++ behind)).length < 64

theorem ends_iff (config : NetioCfg) :
    Ends config ↔ Terminated config.clientName ∧ Terminated config.serverAddr := by
  have read : ∀ array : Vector UInt8 64, Terminated array → ∀ behind,
      (cString (array.toList ++ behind)).length < 64 := by
    intro array terminated behind
    rw [(cString_append terminated behind).1]
    exact length_clientNameOf_lt terminated
  exact ⟨fun ends => ⟨ends.name, ends.server⟩,
    fun ⟨name, server⟩ => ⟨name, server, read _ name, read _ server⟩⟩

/-- The answer to a `Barr` packet carries a prefix of this name. -/
def Greets (host : Host) (name : Text) (s : Sys) : Prop :=
  ∀ (pktBuf : Nat → UInt8) (pktBufSz : UInt32),
    PktType.ofCode? (pktTypeCode pktBuf) = some .barr → ∃ sent, sent <+: name.bytes ∧
      (synprotoParseAndReply host pktBuf pktBufSz s).2.calls = s.calls ++
        [.send s.config.socketFd (lengthPrefixed (helloPayload
          (synprotoExval16 makefileBuild pktBuf 11) (synprotoExval16 makefileBuild pktBuf 13)
          sent))]

theorem greets_of_prefix (host : Host) {name : Text} {s : Sys}
    (terminated : Terminated s.config.clientName)
    (start : clientNameOf s.config.clientName <+: name.bytes) : Greets host name s := by
  intro pktBuf pktBufSz barr
  refine ⟨_, start, ?_⟩
  have reacts := (synprotoParseAndReply_reacts host pktBuf pktBufSz s).calls_eq
  rw [packetOutputs, barr, cString_clientNameMem terminated] at reacts
  exact reacts

/-! ## The writers -/

/-- An attempt to connect leaves the strings alone. -/
theorem netioConnect_sameTarget (host : Host) (input : IterInput) {s : Sys}
    (down : s.config.socketFd = 0) : SameTarget s.config (netioConnect host input s).2.config := by
  by_cases noSocket : input.socket = -1
  · obtain ⟨s', called, follows⟩ := netioConnect_noSocket host down noSocket
    rw [called, follows.config_eq]
    exact ⟨rfl, rfl, rfl⟩
  · by_cases accepted : input.connect = 0
    · obtain ⟨s', called, follows⟩ := netioConnect_connected host down noSocket accepted
      rw [called, follows.config_eq]
      exact ⟨rfl, rfl, rfl⟩
    · obtain ⟨s', called, follows⟩ := netioConnect_refused host down noSocket accepted
      rw [called, follows.config_eq]
      exact ⟨rfl, rfl, rfl⟩

theorem osioWinQuit_sameTarget (fromUi : Bool) (s : Sys) :
    SameTarget s.config (osioWinQuit fromUi s).config := by
  rcases osioWinQuit_cases fromUi s with ⟨_, follows⟩ | ⟨_, follows⟩
  · rw [follows.config_eq]
    exact ⟨rfl, rfl, rfl⟩
  · rw [follows.config_eq]
    exact ⟨rfl, rfl, rfl⟩

theorem minputMainCleanup_sameTarget (s : Sys) :
    SameTarget s.config (minputMainCleanup s).config := by
  rcases minputMainCleanup_cases s with ⟨_, follows⟩ | ⟨_, same⟩
  · rw [follows.config_eq]
    exact ⟨rfl, rfl, rfl⟩
  · rw [same]
    exact ⟨rfl, rfl, rfl⟩

/-- Both strings end, and the name is the start of what the user gave. -/
structure Named (session : Session) : Prop where
  ends : Ends session.sys.config
  given : clientNameOf session.sys.config.clientName <+: session.name.bytes

theorem Named.of_sameTarget {s s' : Sys} {place place' : Place} {name : Text}
    (named : Named ⟨place, s, name⟩) (same : SameTarget s.config s'.config) :
    Named ⟨place', s', name⟩ := by
  obtain ⟨server_eq, name_eq, _⟩ := same
  refine ⟨(ends_iff _).mpr ?_, ?_⟩
  · rw [server_eq, name_eq]
    exact ⟨named.ends.name, named.ends.server⟩
  · change clientNameOf s'.config.clientName <+: name.bytes
    rw [name_eq]
    exact named.given

/-- Saved fields always fit. -/
theorem named_saved {platform : Platform} {host : Host} {fields : Fields} {input : IterInput}
    {s s' : Sys} (saved : osioWinSaveFields platform host fields input s = some s') (place : Place) :
    Named ⟨place, s', fields.clientName⟩ := by
  obtain ⟨port, mid, follows, rfl⟩ := osioWinSaveFields_cases saved
  have down : mid.config.socketFd = 0 := by rw [follows.config_eq]; rfl
  obtain ⟨server_eq, name_eq, _⟩ := netioConnect_sameTarget host input down
  rw [follows.config_eq] at server_eq name_eq
  refine ⟨(ends_iff _).mpr ?_, ?_⟩
  · rw [server_eq, name_eq]
    exact ⟨(strncpy_terminated_iff _).mpr (length_getWindowText _),
      (strncpy_terminated_iff _).mpr (length_getWindowText _)⟩
  · change clientNameOf (netioConnect host input mid).2.config.clientName <+: _
    rw [name_eq, savedConfig, clientNameOf_strncpy (length_getWindowText _)]
    exact List.take_prefix _ _

theorem Session.Moves.named {platform : Platform} {host : Host} {action : Act}
    {session next : Session} (moves : Moves platform host action session next)
    (named : Named session) : Named next := by
  cases moves with
  | iterated | again | stopped => exact named.of_sameTarget ⟨rfl, rfl, rfl⟩
  | @staged input stage s _ _ => exact named.of_sameTarget (stageStep_step host input stage s).sameTarget
  | broke _ left =>
      subst left
      split
      · exact named.of_sameTarget ⟨rfl, rfl, rfl⟩
      · exact named.of_sameTarget (osioWinQuit_sameTarget false _)
  | saved _ saved => exact named_saved saved _
  | quitted => exact named.of_sameTarget (osioWinQuit_sameTarget true _)
  | cleaned => exact named.of_sameTarget (minputMainCleanup_sameTarget _)

/-! ## The result -/

/-- The name on the command line. -/
def givenName : List Text → Text
  | _ :: name :: _ :: _ => name
  | _ => ⟨[], List.not_mem_nil⟩

/-- Both arguments are shorter than their arrays. -/
def FitArrays : List Text → Prop
  | _ :: name :: server :: _ => name.bytes.length < 64 ∧ server.bytes.length < 64
  | _ => True

theorem named_launch {config : NetioCfg} {name : Text} (ends : Ends config)
    (given : clientNameOf config.clientName <+: name.bytes) (input : StartInput) :
    Named (Session.launch input config name) := by
  obtain ⟨place, config', launched, _, same, _⟩ := Session.launch_cases input config name
  have start : Named ⟨place, ⟨config, 0, 0, 0, []⟩, name⟩ := ⟨ends, given⟩
  rw [launched]
  exact start.of_sameTarget same

/-- The strings stay terminated, and the name is sent as it was given, exactly
when the command line fits into the arrays. -/
theorem strings_end_iff {platform : Platform} {argv : List Text} {config : NetioCfg} (host : Host)
    (parsed : osioParseArgs platform argv zeroedConfig = some config) :
    (Ends config ∧ ∀ input session,
      Session.Reach platform host anyAct (Session.launch input config (givenName argv)) session →
      Ends session.sys.config ∧ Greets host session.name session.sys) ↔ FitArrays argv := by
  have runs : Ends config → clientNameOf config.clientName <+: (givenName argv).bytes →
      Ends config ∧ ∀ input session,
        Session.Reach platform host anyAct (Session.launch input config (givenName argv)) session →
        Ends session.sys.config ∧ Greets host session.name session.sys := by
    intro ends given
    refine ⟨ends, fun input session reach => ?_⟩
    have named : Named session := reach.invariant (named_launch ends given input)
      fun _ _ _ _ taken named => (Session.act_moves taken).named named
    exact ⟨named.ends, greets_of_prefix host named.ends.name named.given⟩
  match argv with
  | [] | [_] | [_, _] =>
      obtain rfl := Option.some.inj parsed
      refine iff_of_true (runs ((ends_iff _).mpr ⟨?_, ?_⟩) List.nil_prefix) trivial
      · exact List.mem_replicate.mpr ⟨by decide, rfl⟩
      · exact List.mem_replicate.mpr ⟨by decide, rfl⟩
  | self :: name :: server :: rest =>
      obtain ⟨port, rfl⟩ : ∃ port, config = parsedConfig name server port := by
        obtain ⟨port, _, rfl⟩ := Option.map_eq_some_iff.mp parsed
        exact ⟨port, rfl⟩
      constructor
      · rintro ⟨ends, _⟩
        exact ⟨(strncpy_terminated_iff name).mp ends.name,
          (strncpy_terminated_iff server).mp ends.server⟩
      · rintro ⟨nameFits, serverFits⟩
        refine runs ((ends_iff _).mpr ⟨?_, ?_⟩) ?_
        · exact (strncpy_terminated_iff name).mpr nameFits
        · exact (strncpy_terminated_iff server).mpr serverFits
        · rw [parsedConfig, clientNameOf_strncpy nameFits]
          exact List.prefix_refl _

theorem strings_end_iff_plain :
    Ends (parsedConfig pcText addressText 24800) ∧
      ∀ input session, Session.Reach .win32 unixHost anyAct
        (Session.launch input (parsedConfig pcText addressText 24800) (givenName plainArgs))
        session →
      Ends session.sys.config ∧ Greets unixHost session.name session.sys :=
  (strings_end_iff unixHost (osioParseArgs_default .win32 _ _ _)).mpr
    (show _ ∧ _ from ⟨by decide, by decide⟩)

/-- A name of 64 characters. -/
def longName : Text := ⟨List.replicate 64 (chr 'a'), by decide⟩

/-- It is copied without a NUL. -/
theorem strings_not_always_end :
    ¬∀ (platform : Platform) (host : Host) (argv : List Text) (config : NetioCfg),
      osioParseArgs platform argv zeroedConfig = some config →
      Ends config ∧ ∀ input session,
        Session.Reach platform host anyAct (Session.launch input config (givenName argv)) session →
        Ends session.sys.config ∧ Greets host session.name session.sys := by
  intro always
  have ends := (always .unix unixHost [longName, longName, addressText] _
    (osioParseArgs_default _ _ _ _)).1.name
  exact absurd ((strncpy_terminated_iff longName).mp ends) (by decide)

end MinputHop
