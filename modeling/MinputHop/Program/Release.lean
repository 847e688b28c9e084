import MinputHop.Program.ExitStatus
import MinputHop.Program.Ownership

/-!
# What `minput_main` gives back

Every way out of `minput_main` leads over one label, which frees the packet
buffer and is to give back the network library.  The calls that take something
and give it back are kept as a list beside the run, with the blocks numbered as
the allocator gives them out.
-/

namespace MinputHop

/-! ## The calls -/

/-- The calls that take something or give it back; `none` is `NULL`. -/
inductive ResourceCall where
  | calloc (block : Option Nat)
  | realloc (old : Option Nat) (size : Nat) (block : Option Nat)
  | free (block : Nat)
  | wsaStartup (ret : Int)
  | wsaCleanup
  | socket (ret : Int)
  | close (fd : Int)
  deriving DecidableEq

/-- The variables that the clean-up looks at, and the calls so far. -/
structure Resources where
  /-- `config->pkt_buf` -/
  pktBuf : Option Nat
  gWsastartSuccess : Int
  /-- The block that the allocator gives out next. -/
  fresh : Nat
  calls : List ResourceCall

namespace Resources

/-- The record was zeroed by `WinMain`. -/
def initial : Resources := ⟨none, 0, 0, []⟩

def call (r : Resources) (c : ResourceCall) : Resources := { r with calls := r.calls ++ [c] }

/-- `config->pkt_buf = calloc( config->pkt_buf_sz_max, 1 );` -/
def calloc (ok : Bool) (r : Resources) : Resources :=
  if ok then
    { r.call (.calloc (some r.fresh)) with
      pktBuf := some r.fresh
      fresh := r.fresh + 1 }
  else { r.call (.calloc none) with pktBuf := none }

/-- `realloc( config->pkt_buf, size )`, which replaces the pointer if it succeeds. -/
def realloc (size : Nat) (ok : Bool) (r : Resources) : Resources :=
  if ok then
    { r.call (.realloc r.pktBuf size (some r.fresh)) with
      pktBuf := some r.fresh
      fresh := r.fresh + 1 }
  else r.call (.realloc r.pktBuf size none)

/-- What a call of the main loop, or the disconnect behind it, does. -/
def event (r : Resources) : Event → Resources
  | .realloc size ok => r.realloc size ok
  | .socket ret => r.call (.socket ret)
  | .close fd => r.call (.close fd)
  | _ => r

end Resources

/-! ## `netio_setup`, `netio_cleanup` and `minput_main` -/

/-- `netio_setup`; `wsaStartup` is the result of `WSAStartup()`, which Unix does not have. -/
def netioSetup (platform : Platform) (wsaStartup : Int) (r : Resources) : Int × Resources :=
  if platform = .unix then (0, r)
  else
    let r := r.call (.wsaStartup wsaStartup)
    if wsaStartup ≠ 0 then (wsaStartup, r)
    else
      (wsaStartup, { r with gWsastartSuccess := 0 })

def netioCleanup (platform : Platform) (r : Resources) : Resources :=
  if platform = .unix then r
  else if r.gWsastartSuccess ≠ 0 then r.call .wsaCleanup
  else r

/-- `minput_main` up to `osio_loop`, with the value that it returns if this is not 0. -/
def minputMainAcquire (platform : Platform) (input : StartInput) (config : NetioCfg)
    (r : Resources) : Int × Resources :=
  if config.Incomplete then (minhopErrArgs, r)
  else
    let r := r.calloc input.calloc
    if r.pktBuf = none then (minhopErrAlloc, r)
    else if input.uiSetup ≠ 0 then (input.uiSetup, r)
    else netioSetup platform input.netioSetup r

/-- `minput_main` behind the disconnect. -/
def minputMainRelease (platform : Platform) (r : Resources) : Resources :=
  let r := netioCleanup platform r
  match r.pktBuf with
  | none => r
  | some block => r.call (.free block)

/-- All calls of `minput_main`, if this is the state behind the disconnect. -/
def minputMainCalls (platform : Platform) (input : StartInput) (config : NetioCfg) (s : Sys) :
    List ResourceCall :=
  let r := (minputMainAcquire platform input config .initial).2
  (minputMainRelease platform (s.calls.foldl Resources.event r)).calls

/-- The states behind the disconnect that `minput_main` can come to: past an error,
or past a loop that takes one message after another, or one in the middle of another. -/
inductive Finishes (platform : Platform) (host : Host) (input : StartInput) (config : NetioCfg) :
    Sys → Prop where
  | session {name name' : Text} {s : Sys}
      (reach : Session.Reach platform host anyAct (.launch input config name)
        ⟨.finished, s, name'⟩) :
      Finishes platform host input config s
  | messages {s : Sys} {gRunning : Bool} {loop : MessageLoop} {retval : Int}
      (started : (minputMain input config).2 = .ok s)
      (reach : MessageLoop.Reach platform host anyLoopAct (.start s gRunning) loop)
      (returned : loop.returned = some retval) :
      Finishes platform host input config (minputMainCleanup loop.thread.sys)

/-- `WSAStartup()` is called, and succeeds. -/
def Starts (input : StartInput) (config : NetioCfg) : Prop :=
  ¬config.Incomplete ∧ input.calloc = true ∧ input.uiSetup = 0 ∧ input.netioSetup = 0

/-- The ways that the start can go: there is no buffer, or no network library, or
the loop begins. -/
inductive Acquired (input : StartInput) (config : NetioCfg) : Int × Resources → Prop where
  | missing {error : Int} {calls : List ResourceCall}
      (failed : (minputMain input config).2 = .error error) (fails : ¬Starts input config)
      (made : calls = [] ∨ calls = [.calloc none]) :
      Acquired input config (error, ⟨none, 0, 0, calls⟩)
  | offline {error : Int} {calls : List ResourceCall}
      (failed : (minputMain input config).2 = .error error) (fails : ¬Starts input config)
      (made : calls = [] ∨ ∃ ret, ret ≠ 0 ∧ calls = [.wsaStartup ret]) :
      Acquired input config (error, ⟨some 0, 0, 1, .calloc (some 0) :: calls⟩)
  | ready {s : Sys} (started : (minputMain input config).2 = .ok s) (starts : Starts input config) :
      Acquired input config (0, ⟨some 0, 0, 1, [.calloc (some 0), .wsaStartup 0]⟩)

theorem minputMain_acquired {platform : Platform} (windows : platform ≠ .unix)
    (input : StartInput) (config : NetioCfg) :
    Acquired input config (minputMainAcquire platform input config .initial) := by
  rw [minputMainAcquire]
  by_cases missing : config.Incomplete
  · rw [if_pos missing]
    exact .missing (minputMain_reject input missing) (fun starts => starts.1 missing) (.inl rfl)
  rw [if_neg missing]
  have complete :
      ¬(config.clientName[0] = 0 ∨ config.serverAddr[0] = 0 ∨ config.serverPort = 0) := missing
  cases allocated : input.calloc with
  | false =>
      have failed : (minputMain input config).2 = .error minhopErrAlloc := by
        rw [minputMain, if_neg complete, allocated]
        rfl
      refine .missing failed (fun starts => ?_) (.inr rfl)
      exact absurd (allocated.symm.trans starts.2.1) Bool.false_ne_true
  | true =>
      have buffer : (Resources.initial.calloc true).pktBuf ≠ none := Option.some_ne_none 0
      dsimp only
      rw [if_neg buffer]
      by_cases ui : input.uiSetup ≠ 0
      · have failed : (minputMain input config).2 = .error input.uiSetup := by
          rw [minputMain, if_neg complete, if_pos allocated]
          exact congrArg Prod.snd (if_pos ui)
        rw [if_pos ui]
        exact .offline failed (fun starts => ui starts.2.2.1) (.inl rfl)
      rw [if_neg ui, netioSetup, if_neg windows]
      dsimp only
      by_cases net : input.netioSetup ≠ 0
      · have failed : (minputMain input config).2 = .error input.netioSetup := by
          rw [minputMain, if_neg complete, if_pos allocated]
          dsimp only
          rw [if_neg ui, if_pos net]
        rw [if_pos net]
        exact .offline failed (fun starts => net starts.2.2.2) (.inr ⟨_, net, rfl⟩)
      · rw [if_neg net, not_not.mp net]
        have started : ∃ s, (minputMain input config).2 = .ok s := by
          rw [minputMain, if_neg complete, if_pos allocated]
          dsimp only
          rw [if_neg ui, if_neg net]
          exact ⟨_, rfl⟩
        obtain ⟨s, started⟩ := started
        exact .ready started ⟨missing, allocated, not_not.mp ui, not_not.mp net⟩

/-! ## The balance -/

/-- The blocks in use after one more call.  `none` is a call on a block that is
not in use.  To make a block 0 bytes long is to free it. -/
def inUse (blocks : List Nat) : ResourceCall → Option (List Nat)
  | .calloc block | .realloc none _ block => some (block.toList ++ blocks)
  | .realloc (some old) size block =>
      if old ∈ blocks then
        match block with
        | some block => some (block :: blocks.erase old)
        | none => some (if size = 0 then blocks.erase old else blocks)
      else none
  | .free block => if block ∈ blocks then some (blocks.erase block) else none
  | .wsaStartup _ | .wsaCleanup | .socket _ | .close _ => some blocks

def ResourceCall.isFree : ResourceCall → Bool
  | .free _ => true
  | _ => false

def ResourceCall.allocates : ResourceCall → Bool
  | .calloc (some _) => true
  | _ => false

def ResourceCall.onSocket : ResourceCall → Bool
  | .socket _ | .close _ => true
  | _ => false

structure Balanced (calls : List ResourceCall) : Prop where
  /-- Every block was given back once, and nothing else. -/
  memory : calls.foldlM inUse [] = some []
  /-- `free()` was called once if there was a buffer. -/
  freed : calls.countP ResourceCall.isFree = calls.countP ResourceCall.allocates
  cleaned : calls.count .wsaCleanup = calls.count (.wsaStartup 0)
  /-- The network library was not used behind `WSACleanup()`. -/
  last : ∀ before after, calls = before ++ .wsaCleanup :: after →
    ∀ call ∈ after, call.onSocket = false

namespace Resources

variable {r : Resources}

/-- The blocks in use. -/
def blocks (r : Resources) : Option (List Nat) := r.calls.foldlM inUse []

theorem blocks_call (r : Resources) (c : ResourceCall) :
    (r.call c).blocks = r.blocks.bind fun held => inUse held c := by
  rw [blocks, call, List.foldlM_append, ← blocks]
  cases r.blocks with
  | none => rfl
  | some held =>
      change (inUse held c).bind some = inUse held c
      exact Option.bind_fun_some _

/-- `config->pkt_buf` is the one block in use. -/
def Sound (r : Resources) : Prop := ∃ block, r.pktBuf = some block ∧ r.blocks = some [block]

/-- `config->pkt_buf` is a block that is no longer in use. -/
def Stale (r : Resources) : Prop :=
  ∃ block, r.pktBuf = some block ∧ (r.blocks = none ∨ r.blocks = some [])

theorem Sound.call (sound : r.Sound) {c : ResourceCall} (other : ∀ held, inUse held c = some held) :
    (r.call c).Sound := by
  obtain ⟨block, pointer, held⟩ := sound
  exact ⟨block, pointer, by rw [blocks_call, held, Option.bind_some, other]⟩

theorem Stale.call (stale : r.Stale) {c : ResourceCall} (other : ∀ held, inUse held c = some held) :
    (r.call c).Stale := by
  obtain ⟨block, pointer, held⟩ := stale
  refine ⟨block, pointer, held.imp (fun none => ?_) fun held => ?_⟩
  · rw [blocks_call, none, Option.bind_none]
  · rw [blocks_call, held, Option.bind_some, other]

/-- A call that gets a stale pointer goes wrong. -/
theorem Stale.realloc (stale : r.Stale) (size : Nat) (ok : Bool) : (r.realloc size ok).Stale := by
  obtain ⟨block, pointer, held⟩ := stale
  have wrong : ∀ new, (r.call (.realloc r.pktBuf size new)).blocks = none := by
    intro new
    rw [blocks_call, pointer]
    rcases held with none | held
    · rw [none, Option.bind_none]
    · rw [held, Option.bind_some]
      cases new <;> rw [inUse, if_neg List.not_mem_nil]
  cases ok with
  | true => exact ⟨r.fresh, rfl, .inl (wrong _)⟩
  | false => exact ⟨block, pointer, .inl (wrong _)⟩

/-- Only where `realloc()` frees the block does the pointer become stale. -/
theorem Sound.realloc (sound : r.Sound) (size : Nat) (ok : Bool) :
    (¬(size = 0 ∧ ok = false) → (r.realloc size ok).Sound) ∧
      (size = 0 ∧ ok = false → (r.realloc size ok).Stale) := by
  obtain ⟨block, pointer, held⟩ := sound
  have after : ∀ new, (r.call (.realloc r.pktBuf size new)).blocks =
      inUse [block] (.realloc (some block) size new) := by
    intro new
    rw [blocks_call, pointer, held, Option.bind_some]
  have mem : block ∈ [block] := List.mem_cons_self
  cases ok with
  | true =>
      refine ⟨fun _ => ⟨r.fresh, rfl, (after _).trans ?_⟩, fun freed => absurd freed.2 nofun⟩
      rw [inUse, if_pos mem, List.erase_cons_head]
  | false =>
      refine ⟨fun kept => ⟨block, pointer, (after _).trans ?_⟩, fun freed => ?_⟩
      · rw [inUse, if_pos mem, if_neg fun zero => kept ⟨zero, rfl⟩]
      · refine ⟨block, pointer, .inr ((after _).trans ?_)⟩
        rw [inUse, if_pos mem, if_pos freed.1, List.erase_cons_head]

theorem Stale.event (stale : r.Stale) (e : Event) : (r.event e).Stale := by
  cases e with
  | realloc size ok => exact stale.realloc size ok
  | socket | close => exact stale.call fun _ => rfl
  | _ => exact stale

theorem Sound.event (sound : r.Sound) (e : Event) :
    (e ≠ .realloc 0 false → (r.event e).Sound) ∧ (e = .realloc 0 false → (r.event e).Stale) := by
  cases e with
  | realloc size ok =>
      obtain ⟨kept, freed⟩ := sound.realloc size ok
      rw [Ne, Event.realloc.injEq]
      exact ⟨kept, freed⟩
  | socket | close => exact ⟨fun _ => sound.call fun _ => rfl, nofun⟩
  | _ => exact ⟨fun _ => sound, nofun⟩

theorem Stale.events (stale : r.Stale) (events : List Event) :
    (events.foldl Resources.event r).Stale := by
  induction events generalizing r with
  | nil => exact stale
  | cons e rest ih => exact ih (stale.event e)

theorem Sound.events (sound : r.Sound) (events : List Event) :
    (.realloc 0 false ∉ events → (events.foldl Resources.event r).Sound) ∧
      (.realloc 0 false ∈ events → (events.foldl Resources.event r).Stale) := by
  induction events generalizing r with
  | nil => exact ⟨fun _ => sound, fun member => absurd member List.not_mem_nil⟩
  | cons e rest ih =>
      obtain ⟨kept, freed⟩ := sound.event e
      rw [List.foldl_cons, List.mem_cons, not_or]
      by_cases zero : e = .realloc 0 false
      · exact ⟨fun none => absurd zero.symm none.1, fun _ => (freed zero).events rest⟩
      · obtain ⟨sound, stale⟩ := ih (kept zero)
        exact ⟨fun none => sound none.2, fun some => stale (some.resolve_left (Ne.symm zero))⟩

end Resources

/-- The calls that the loop makes. -/
def ResourceCall.inLoop : ResourceCall → Bool
  | .realloc .. | .socket _ | .close _ => true
  | .calloc _ | .free _ | .wsaStartup _ | .wsaCleanup => false

/-- Between two states only the loop made calls. -/
structure Looped (r r' : Resources) : Prop where
  calls : ∃ added, r'.calls = r.calls ++ added ∧ ∀ c ∈ added, c.inLoop = true
  flag : r'.gWsastartSuccess = r.gWsastartSuccess

theorem Looped.refl (r : Resources) : Looped r r :=
  ⟨⟨[], (List.append_nil _).symm, List.forall_mem_nil _⟩, rfl⟩

theorem Looped.trans {r r' r'' : Resources} (first : Looped r r') (second : Looped r' r'') :
    Looped r r'' := by
  obtain ⟨early, early_eq, early_loop⟩ := first.calls
  obtain ⟨late, late_eq, late_loop⟩ := second.calls
  refine ⟨⟨early ++ late, ?_, ?_⟩, second.flag.trans first.flag⟩
  · rw [late_eq, early_eq, List.append_assoc]
  · exact List.forall_mem_append.mpr ⟨early_loop, late_loop⟩

theorem Looped.call (r : Resources) {c : ResourceCall} (inLoop : c.inLoop = true) :
    Looped r (r.call c) :=
  ⟨⟨[c], rfl, List.forall_mem_singleton.mpr inLoop⟩, rfl⟩

theorem Looped.event (r : Resources) (e : Event) : Looped r (r.event e) := by
  cases e with
  | socket | close => exact .call r rfl
  | realloc size ok =>
      cases ok with
      | true => exact ⟨⟨[_], rfl, List.forall_mem_singleton.mpr rfl⟩, rfl⟩
      | false => exact .call r rfl
  | _ => exact .refl r

theorem Looped.events (r : Resources) (events : List Event) :
    Looped r (events.foldl Resources.event r) := by
  induction events generalizing r with
  | nil => exact .refl r
  | cons e rest ih => exact (Looped.event r e).trans (ih _)

theorem Looped.countP_eq {r r' : Resources} (looped : Looped r r') {p : ResourceCall → Bool}
    (apart : ∀ c : ResourceCall, c.inLoop = true → p c = false) :
    r'.calls.countP p = r.calls.countP p := by
  obtain ⟨added, calls_eq, inLoop⟩ := looped.calls
  have none : added.countP p = 0 :=
    List.countP_eq_zero.mpr fun c member => ne_true_of_eq_false (apart c (inLoop c member))
  rw [calls_eq, List.countP_append, none, Nat.add_zero]

/-! ## Runs -/

/-- Behind a start that failed there is only the clean-up. -/
theorem calls_of_leaving {platform : Platform} {host : Host} {Admits : Act → Session → Prop}
    {s : Sys} {name : Text} {session : Session}
    (reach : Session.Reach platform host Admits ⟨.leaving, s, name⟩ session) :
    ∃ added, session.sys.calls = s.calls ++ added ∧ ∀ e ∈ added, ∃ fd, e = .close fd := by
  let Inv := fun session => session = ⟨.leaving, s, name⟩ ∨
    session = (⟨.finished, minputMainCleanup s, name⟩ : Session)
  have two : Inv session := by
    refine ActionSystem.Reach.invariant (.inl rfl) ?_ reach
    rintro action _ next _ taken (rfl | rfl)
    · cases Session.act_moves taken with
      | cleaned => exact .inr rfl
    · cases Session.act_moves taken
  rcases two with rfl | rfl
  · exact ⟨[], (List.append_nil _).symm, List.forall_mem_nil _⟩
  · rcases minputMainCleanup_cases s with ⟨_, follows⟩ | ⟨_, same⟩
    · exact ⟨_, follows.calls_eq, List.forall_mem_singleton.mpr ⟨_, rfl⟩⟩
    · rw [same]
      exact ⟨[], (List.append_nil _).symm, List.forall_mem_nil _⟩

theorem netioCleanup_eq (platform : Platform) {r : Resources} (flag : r.gWsastartSuccess = 0) :
    netioCleanup platform r = r := by
  rw [netioCleanup, if_neg (not_not.mpr flag), ite_self]

section Process

variable {platform : Platform} {host : Host} {input : StartInput} {config : NetioCfg} {s : Sys}
  {r : Resources}

theorem Finishes.calls_of_failed {error : Int} (finishes : Finishes platform host input config s)
    (failed : (minputMain input config).2 = .error error) : ∀ e ∈ s.calls, ∃ fd, e = .close fd := by
  cases finishes with
  | session reach =>
      rw [Session.launch, failed] at reach
      obtain ⟨added, calls_eq, closes⟩ := calls_of_leaving reach
      exact calls_eq ▸ closes
  | messages started => cases failed.symm.trans started

/-- To close a descriptor changes nothing in the memory. -/
theorem foldl_event_closes {events : List Event} (closes : ∀ e ∈ events, ∃ fd, e = .close fd) :
    (events.foldl Resources.event r).pktBuf = r.pktBuf ∧
      (events.foldl Resources.event r).blocks = r.blocks := by
  induction events generalizing r with
  | nil => exact ⟨rfl, rfl⟩
  | cons e rest ih =>
      obtain ⟨⟨fd, rfl⟩, later⟩ := List.forall_mem_cons.mp closes
      obtain ⟨pointer, held⟩ := @ih (r.call (.close fd)) later
      refine ⟨pointer, held.trans ?_⟩
      rw [Resources.blocks_call]
      exact Option.bind_fun_some _

theorem minputMainRelease_some (flag : r.gWsastartSuccess = 0) {block : Nat}
    (pointer : r.pktBuf = some block) : minputMainRelease platform r = r.call (.free block) := by
  rw [minputMainRelease, netioCleanup_eq platform flag, pointer]

theorem minputMainRelease_none (flag : r.gWsastartSuccess = 0) (pointer : r.pktBuf = none) :
    minputMainRelease platform r = r := by
  rw [minputMainRelease, netioCleanup_eq platform flag, pointer]

/-- The buffer is freed right if the pointer is. -/
theorem Resources.Sound.release (sound : r.Sound) (flag : r.gWsastartSuccess = 0) :
    (minputMainRelease platform r).blocks = some [] := by
  obtain ⟨block, pointer, held⟩ := sound
  rw [minputMainRelease_some flag pointer, blocks_call, held, Option.bind_some, inUse,
    if_pos List.mem_cons_self, List.erase_cons_head]

theorem Resources.Stale.release (stale : r.Stale) (flag : r.gWsastartSuccess = 0) :
    (minputMainRelease platform r).blocks = none := by
  obtain ⟨block, pointer, none | held⟩ := stale
  · rw [minputMainRelease_some flag pointer, blocks_call, none, Option.bind_none]
  · rw [minputMainRelease_some flag pointer, blocks_call, held, Option.bind_some, inUse,
      if_neg List.not_mem_nil]

/-- Beside the calls of the loop there are only those of the start and the `free()`. -/
theorem countP_released {r' : Resources} (looped : Looped r r') (flag : r.gWsastartSuccess = 0)
    {p : ResourceCall → Bool} (apart : ∀ c : ResourceCall, c.inLoop = true → p c = false) :
    (minputMainRelease platform r').calls.countP p =
      r.calls.countP p + (r'.pktBuf.toList.map ResourceCall.free).countP p := by
  have flag' : r'.gWsastartSuccess = 0 := looped.flag.trans flag
  rw [← looped.countP_eq apart]
  cases pointer : r'.pktBuf with
  | none => rw [minputMainRelease_none flag' pointer]; rfl
  | some block =>
      rw [minputMainRelease_some flag' pointer]
      exact List.countP_append

/-- What the calls of a finished process come to. -/
structure Accounts (input : StartInput) (config : NetioCfg) (events : List Event)
    (calls : List ResourceCall) : Prop where
  memory : calls.foldlM inUse [] = some [] ↔ .realloc 0 false ∉ events
  freed : calls.countP ResourceCall.isFree = calls.countP ResourceCall.allocates
  cleanups : calls.count .wsaCleanup = 0
  startups : calls.count (.wsaStartup 0) = 0 ↔ ¬Starts input config
  closes : ¬Starts input config → ∀ e ∈ events, ∃ fd, e = .close fd

/-- None of the calls that are counted is made in the loop. -/
theorem ResourceCall.apart {c : ResourceCall} (inLoop : c.inLoop = true) :
    c.isFree = false ∧ c.allocates = false ∧ (c == .wsaCleanup) = false ∧
      (c == .wsaStartup 0) = false := by
  cases c with
  | realloc | socket | close => exact ⟨rfl, rfl, rfl, rfl⟩
  | calloc | free | wsaStartup | wsaCleanup => exact absurd inLoop Bool.false_ne_true

/-- What the calls of a start come to: `free()` and `WSACleanup()` are not among them. -/
structure Opening (input : StartInput) (config : NetioCfg) (r : Resources) : Prop where
  flag : r.gWsastartSuccess = 0
  unfreed : r.calls.countP ResourceCall.isFree = 0
  allocated : r.calls.countP ResourceCall.allocates = r.pktBuf.toList.length
  running : r.calls.count .wsaCleanup = 0
  startups : r.calls.count (.wsaStartup 0) = 0 ↔ ¬Starts input config

/-- A start with these calls, whatever the loop does then. -/
theorem Opening.accounts (opening : Opening input config r) {events : List Event}
    (memory : (minputMainRelease platform (events.foldl Resources.event r)).blocks = some [] ↔
      .realloc 0 false ∉ events)
    (pointer : (events.foldl Resources.event r).pktBuf.isSome = r.pktBuf.isSome)
    (closes : ¬Starts input config → ∀ e ∈ events, ∃ fd, e = .close fd) :
    Accounts input config events
      (minputMainRelease platform (events.foldl Resources.event r)).calls := by
  have released := fun p => @countP_released platform r _ (.events r events) opening.flag p
  have same : (events.foldl Resources.event r).pktBuf.toList.length = r.pktBuf.toList.length := by
    rw [Option.length_toList, Option.length_toList, pointer]
  have freed : ∀ pktBuf : Option Nat, (pktBuf.toList.map ResourceCall.free).countP
      ResourceCall.isFree = pktBuf.toList.length := by
    intro pktBuf
    cases pktBuf <;> rfl
  have others : ∀ (pktBuf : Option Nat) (p : ResourceCall → Bool),
      (∀ block, p (.free block) = false) →
      (pktBuf.toList.map ResourceCall.free).countP p = 0 := by
    intro pktBuf p unlike
    refine List.countP_eq_zero.mpr fun c member => ?_
    obtain ⟨block, _, rfl⟩ := List.mem_map.mp member
    exact ne_true_of_eq_false (unlike block)
  refine ⟨memory, ?_, ?_, ?_, closes⟩
  · rw [released _ fun c inLoop => (ResourceCall.apart inLoop).1,
      released _ fun c inLoop => (ResourceCall.apart inLoop).2.1, opening.unfreed, freed,
      opening.allocated, others _ _ fun _ => rfl, same, Nat.zero_add, Nat.add_zero]
  · have counted := released _ fun c inLoop => (ResourceCall.apart inLoop).2.2.1
    rw [others _ _ fun _ => rfl, Nat.add_zero] at counted
    exact counted.trans opening.running
  · have counted := released _ fun c inLoop => (ResourceCall.apart inLoop).2.2.2
    rw [others _ _ fun _ => rfl, Nat.add_zero] at counted
    rw [← opening.startups]
    exact Eq.congr counted rfl

/-- If the loop starts with a buffer, only `realloc()` can spoil the pointer to it. -/
theorem Resources.Sound.accounts (sound : r.Sound) (opening : Opening input config r)
    {events : List Event} (closes : ¬Starts input config → ∀ e ∈ events, ∃ fd, e = .close fd) :
    Accounts input config events
      (minputMainRelease platform (events.foldl Resources.event r)).calls := by
  have flag := (Looped.events r events).flag.trans opening.flag
  obtain ⟨kept, freed⟩ := sound.events events
  obtain ⟨block, pointer, _⟩ := sound
  have held : (events.foldl Resources.event r).pktBuf.isSome = r.pktBuf.isSome := by
    rw [pointer]
    by_cases zero : .realloc 0 false ∈ events
    · obtain ⟨last, stale, _⟩ := freed zero
      rw [stale]
      rfl
    · obtain ⟨last, good, _⟩ := kept zero
      rw [good]
      rfl
  refine opening.accounts ?_ held closes
  by_cases zero : .realloc 0 false ∈ events
  · refine iff_of_false ?_ (not_not.mpr zero)
    rw [(freed zero).release flag]
    exact nofun
  · exact iff_of_true ((kept zero).release flag) zero

theorem Finishes.accounts (windows : platform ≠ .unix)
    (finishes : Finishes platform host input config s) :
    Accounts input config s.calls (minputMainCalls platform input config s) := by
  have acquired := minputMain_acquired windows input config
  rw [minputMainCalls]
  generalize minputMainAcquire platform input config .initial = start at acquired ⊢
  cases acquired with
  | @missing error first failed fails made =>
      have shut := finishes.calls_of_failed failed
      obtain ⟨pointer, held⟩ := @foldl_event_closes ⟨none, 0, 0, first⟩ _ shut
      have unread : .realloc 0 false ∉ s.calls := by
        intro zero
        obtain ⟨fd, same⟩ := shut _ zero
        cases same
      have released : (minputMainRelease platform
          (s.calls.foldl Resources.event ⟨none, 0, 0, first⟩)).blocks =
            (Resources.mk none 0 0 first).blocks := by
        rw [minputMainRelease_none (Looped.events _ _).flag pointer]
        exact held
      rcases made with rfl | rfl
      · have opening : Opening input config ⟨none, 0, 0, []⟩ :=
          ⟨rfl, rfl, rfl, rfl, iff_of_true rfl fails⟩
        exact opening.accounts (iff_of_true released unread) (congrArg _ pointer) fun _ => shut
      · have opening : Opening input config ⟨none, 0, 0, [.calloc none]⟩ :=
          ⟨rfl, rfl, rfl, rfl, iff_of_true rfl fails⟩
        exact opening.accounts (iff_of_true released unread) (congrArg _ pointer) fun _ => shut
  | @offline error first failed fails made =>
      have shut := finishes.calls_of_failed failed
      rcases made with rfl | ⟨ret, bad, rfl⟩
      · have sound : (Resources.mk (some 0) 0 1 [.calloc (some 0)]).Sound := ⟨0, rfl, rfl⟩
        exact sound.accounts ⟨rfl, rfl, rfl, rfl, iff_of_true rfl fails⟩ fun _ => shut
      · have sound : (Resources.mk (some 0) 0 1 [.calloc (some 0), .wsaStartup ret]).Sound :=
          ⟨0, rfl, rfl⟩
        have other : ResourceCall.wsaStartup ret ≠ .wsaStartup 0 :=
          fun same => bad (ResourceCall.wsaStartup.inj same)
        have uncounted : ([.calloc (some 0), .wsaStartup ret] : List ResourceCall).count
            (.wsaStartup 0) = 0 :=
          List.count_cons_of_ne other
        exact sound.accounts ⟨rfl, rfl, rfl, rfl, iff_of_true uncounted fails⟩ fun _ => shut
  | ready started starts =>
      have sound : (Resources.mk (some 0) 0 1 [.calloc (some 0), .wsaStartup 0]).Sound :=
        ⟨0, rfl, rfl⟩
      exact sound.accounts ⟨rfl, rfl, rfl, rfl, iff_of_false nofun (not_not.mpr starts)⟩
        (absurd starts)

/-- What was taken is given back exactly if `WSAStartup()` was not called or
failed; and but for a block that `realloc()` freed, the buffer always is. -/
theorem minputMain_balanced_iff (windows : platform ≠ .unix)
    (finishes : Finishes platform host input config s) :
    (Balanced (minputMainCalls platform input config s) ↔ ¬Starts input config) ∧
      ((minputMainCalls platform input config s).foldlM inUse [] = some [] ↔
        .realloc 0 false ∉ s.calls) := by
  have accounts := finishes.accounts windows
  refine ⟨⟨fun balanced => ?_, fun fails => ?_⟩, accounts.memory⟩
  · exact accounts.startups.mp (balanced.cleaned.symm.trans accounts.cleanups)
  · refine ⟨accounts.memory.mpr fun zero => ?_, accounts.freed, ?_, fun before after split => ?_⟩
    · obtain ⟨fd, same⟩ := accounts.closes fails _ zero
      cases same
    · rw [accounts.cleanups, accounts.startups.mpr fails]
    · have none := List.count_eq_zero.mp accounts.cleanups
      exact absurd (split ▸ List.mem_append_right _ List.mem_cons_self) none

end Process

/-- The state in which a process has finished. -/
def Session.finished? : Session → Option Sys
  | ⟨.finished, s, _⟩ => some s
  | _ => none

/-- A connection is made, and the user quits. -/
theorem finishes_plain : ∃ s, Finishes .win32 unixHost started plainConfig s ∧
    minputMainCalls .win32 started plainConfig s =
      [.calloc (some 0), .wsaStartup 0, .socket 3, .close 3, .free 0] := by
  have ended : ((ActionSystem.run (Session.act .win32 unixHost) (fun _ _ => true) plainActs
      (Session.launch started plainConfig pcText)).bind Session.finished?).map
        (minputMainCalls .win32 started plainConfig) =
      some [.calloc (some 0), .wsaStartup 0, .socket 3, .close 3, .free 0] := by
    decide +kernel
  obtain ⟨s, finished, made⟩ := Option.map_eq_some_iff.mp ended
  obtain ⟨⟨place, s', name⟩, ran, left⟩ := Option.bind_eq_some_iff.mp finished
  cases place with
  | idle | inside | leaving => cases left
  | finished =>
      obtain rfl := Option.some.inj left
      have reach : Session.Reach .win32 unixHost anyAct (Session.launch started plainConfig pcText)
          ⟨.finished, s', name⟩ :=
        .of_run (fun _ _ _ => trivial) .start ran
      exact ⟨s', .session reach, made⟩

theorem minputMain_balanced_plain : ∃ s, Finishes .win32 unixHost started plainConfig s ∧
    (Balanced (minputMainCalls .win32 started plainConfig s) ↔ ¬Starts started plainConfig) ∧
    ((minputMainCalls .win32 started plainConfig s).foldlM inUse [] = some [] ↔
      .realloc 0 false ∉ s.calls) := by
  obtain ⟨s, finishes, _⟩ := finishes_plain
  have windows : Platform.win32 ≠ .unix := by decide
  exact ⟨s, finishes, minputMain_balanced_iff windows finishes⟩

/-- In that run `WSACleanup()` is not called. -/
theorem minputMain_not_always_balanced :
    ¬∀ (platform : Platform) (host : Host) (input : StartInput) (config : NetioCfg) (s : Sys),
      platform ≠ .unix → Finishes platform host input config s →
      Balanced (minputMainCalls platform input config s) := by
  intro always
  obtain ⟨s, finishes, made⟩ := finishes_plain
  have balanced := always .win32 unixHost started plainConfig s (by decide) finishes
  rw [made] at balanced
  exact absurd balanced.cleaned (by decide)

end MinputHop
