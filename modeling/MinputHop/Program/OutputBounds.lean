import MinputHop.Program.Language
import MinputHop.Program.Reply

/-!
# How much the formatter writes

Any format, documented or not, asks for pieces of output that can be read off
it without its arguments.  Their sizes add up to what is written, since the size
of the buffer is never looked at.
-/

namespace MinputHop

open FlatMemory

/-! ## The pieces that a format asks for -/

inductive Piece where
  | literal
  | int (width : Nat)
  | str
  /-- An integer of no known size, at which reading stops. -/
  | invalid
  deriving DecidableEq

/-- The pieces of a format that is read with this token open, 0 for none. -/
def pieces : Int → List UInt8 → List Piece
  | _, [] => []
  | inToken, c :: rest =>
      if c = chr '%' then pieces 4 rest
      else if isDigit c ∧ inToken ≠ 0 then pieces (atoi (c :: rest)) rest
      else if c = chr 'i' ∧ inToken ≠ 0 then
        match tokenWidth? inToken with
        | none => [.invalid]
        | some width => .int width :: pieces 0 rest
      else if c = chr 's' ∧ inToken ≠ 0 then .str :: pieces inToken rest
      else .literal :: pieces 0 rest

/-- The sizes of the pieces added up, if the arguments are theirs. -/
def sizeOf? : List Piece → List VaArg → Option Nat
  | [], _ => some 0
  | .invalid :: _, _ => some 0
  | .literal :: rest, args => (sizeOf? rest args).map (1 + ·)
  | .int width :: rest, .int _ :: args => (sizeOf? rest args).map (width + ·)
  | .str :: rest, .str mem :: args => (sizeOf? rest args).map ((cString mem).length + ·)
  | _, _ => none

/-- The number of bytes that a format asks for with these arguments. -/
def formatSize? (fmt : List UInt8) (args : List VaArg) : Option Nat := sizeOf? (pieces 0 fmt) args

/-! ## What is stored -/

/-- Between two states of the formatter, every place up to the new position was
stored to, and no place from there on. -/
structure Fills (st st' : VprintfState) : Prop where
  kept : ∀ store ∈ st.stores, store ∈ st'.stores
  below : ∀ store ∈ st'.stores, store ∈ st.stores ∨ store.1 < st'.outPos
  every : ∀ i, st.outPos ≤ i → i < st'.outPos → ∃ store ∈ st'.stores, store.1 = i

theorem Fills.refl (st : VprintfState) : Fills st st :=
  ⟨fun _ => id, fun _ => .inl, fun _ from' below => absurd from' (Nat.not_le_of_lt below)⟩

theorem Fills.trans {st mid st' : VprintfState} (first : Fills st mid) (second : Fills mid st')
    (further : mid.outPos ≤ st'.outPos) : Fills st st' where
  kept store member := second.kept store (first.kept store member)
  below store member := by
    rcases second.below store member with before | below
    · exact (first.below store before).imp_right fun lower => Nat.lt_of_lt_of_le lower further
    · exact .inr below
  every i from' below := by
    by_cases early : i < mid.outPos
    · obtain ⟨store, member, same⟩ := first.every i from' early
      exact ⟨store, second.kept store member, same⟩
    · exact second.every i (Nat.le_of_not_lt early) below

/-- These stores are one for each of `length` places from `outPos` on. -/
structure Covers (outPos length : Nat) (stores : List (Nat × UInt8)) : Prop where
  below : ∀ store ∈ stores, store.1 < outPos + length
  every : ∀ i, outPos ≤ i → i < outPos + length → ∃ store ∈ stores, store.1 = i

theorem Covers.fills {st : VprintfState} {stores : List (Nat × UInt8)} {length : Nat}
    (covers : Covers st.outPos length stores) (inToken : Int) (args : List VaArg) :
    Fills st (st.put inToken stores length args) where
  kept _ member := List.mem_append_left _ member
  below store member := (List.mem_append.mp member).imp_right (covers.below store)
  every i from' below := by
    obtain ⟨store, member, same⟩ := covers.every i from' below
    exact ⟨store, List.mem_append_right _ member, same⟩

theorem covers_reverseStores (outPos : Nat) (argP : List UInt8) :
    Covers outPos argP.length (reverseStores outPos argP) where
  below store member := by
    obtain ⟨⟨byte, i⟩, indexed, rfl⟩ := List.mem_map.mp member
    have inside := (List.mem_zipIdx indexed).2.1
    dsimp only
    omega
  every i from' below := by
    have inside : outPos + argP.length - i - 1 < argP.length := by omega
    refine ⟨_, List.mem_map.mpr ⟨(argP[outPos + argP.length - i - 1], _),
      List.mem_zipIdx_iff_getElem?.mpr (List.getElem?_eq_getElem inside), rfl⟩, ?_⟩
    dsimp only
    omega

theorem covers_integer (order : ByteOrder) (outPos width : Nat) (n : Int) :
    Covers outPos width (reverseStores outPos (order.bytes width n)) := by
  have covers := covers_reverseStores outPos (order.bytes width n)
  rwa [length_bytes] at covers

theorem covers_stringStores (outPos : Nat) (bytes : List UInt8) :
    Covers outPos bytes.length (stringStores outPos bytes) := by
  induction bytes generalizing outPos with
  | nil =>
      exact ⟨List.forall_mem_nil _, fun _ from' below => absurd from' (Nat.not_le_of_lt below)⟩
  | cons byte rest ih =>
      obtain ⟨below, every⟩ := ih (outPos + 1)
      rw [List.length_cons]
      constructor
      · intro store member
        rcases List.mem_cons.mp member with rfl | later
        · dsimp only
          omega
        · have lower := below store later
          omega
      · intro i from' upTo
        by_cases here : i = outPos
        · exact ⟨(outPos, byte), List.mem_cons_self, here.symm⟩
        · obtain ⟨store, member, same⟩ := every i (by omega) (by omega)
          exact ⟨store, List.mem_cons_of_mem _ member, same⟩

/-- What a format asks for from this state on, and what reading it comes to. -/
inductive Measured (st : VprintfState) : Option Nat → Option VprintfState → Prop where
  /-- The arguments are not those of the format, which is undefined behaviour. -/
  | undefined : Measured st none none
  | read {size : Nat} {st' : VprintfState} (outPos_eq : st'.outPos = st.outPos + size)
      (fills : Fills st st') : Measured st (some size) (some st')

/-- After a piece of `length` bytes, the rest is read from `mid` on. -/
theorem Measured.behind {st mid : VprintfState} {length : Nat} {asked : Option Nat}
    {result : Option VprintfState} (measured : Measured mid asked result)
    (further : mid.outPos = st.outPos + length) (filled : Fills st mid) :
    Measured st (asked.map (length + ·)) result := by
  cases measured with
  | undefined => exact .undefined
  | @read size st' outPos_eq fills =>
      have total : st'.outPos = st.outPos + (length + size) := by omega
      exact .read total (filled.trans fills (by omega))

/-- What opens a token puts nothing out. -/
theorem Measured.opened {st : VprintfState} {token : Int} {asked : Option Nat}
    {result : Option VprintfState} (measured : Measured { st with inToken := token } asked result) :
    Measured st asked result := by
  cases measured with
  | undefined => exact .undefined
  | read outPos_eq fills => exact .read outPos_eq ⟨fills.kept, fills.below, fills.every⟩

/-- A format with its arguments is read to its end, or to an integer of no known
size, and puts out as many bytes as it asks for. -/
theorem vprintfLoop_measured (order : ByteOrder) (fmt : List UInt8) (st : VprintfState) :
    Measured st (sizeOf? (pieces st.inToken fmt) st.args) (vprintfLoop order fmt st) := by
  induction fmt generalizing st with
  | nil => exact .read rfl (.refl st)
  | cons c rest ih =>
      rw [pieces, vprintfLoop]
      by_cases percent : c = chr '%'
      · rw [if_pos percent, if_pos percent]
        exact .opened (ih { st with inToken := 4 })
      rw [if_neg percent, if_neg percent]
      by_cases digit : isDigit c ∧ st.inToken ≠ 0
      · rw [if_pos digit, if_pos digit]
        exact .opened (ih { st with inToken := atoi (c :: rest) })
      rw [if_neg digit, if_neg digit]
      by_cases int : c = chr 'i' ∧ st.inToken ≠ 0
      · rw [if_pos int, if_pos int]
        cases tokenWidth? st.inToken with
        | none =>
            have filled := Fills.refl st
            exact .read rfl ⟨filled.kept, filled.below, filled.every⟩
        | some width =>
            cases given : st.args with
            | nil => exact .undefined
            | cons arg args =>
                cases arg with
                | str mem => exact .undefined
                | int n => exact (ih _).behind rfl ((covers_integer order _ width n).fills 0 args)
      rw [if_neg int, if_neg int]
      by_cases str : c = chr 's' ∧ st.inToken ≠ 0
      · rw [if_pos str, if_pos str]
        cases given : st.args with
        | nil => exact .undefined
        | cons arg args =>
            cases arg with
            | int n => exact .undefined
            | str mem => exact (ih _).behind rfl ((covers_stringStores _ _).fills st.inToken args)
      rw [if_neg str, if_neg str]
      exact (ih _).behind rfl ((covers_stringStores st.outPos [c]).fills 0 st.args)

/-! ## Inside the buffer -/

/-- No store is past the end of the buffer, and neither is the returned position. -/
def InBuffer (bufSz : Nat) (st : VprintfState) : Prop :=
  (∀ store ∈ st.stores, store.1 < bufSz) ∧ st.outPos ≤ bufSz

/-- What `synproto_send` does with its own buffer of `SOCKBUF_SZ + 1` bytes: the
stores of the formatter behind the header, and the bytes sent out of it. -/
def SendInBuffer (st : VprintfState) (bytes : List UInt8) : Prop :=
  (∀ store ∈ st.stores, 4 + store.1 < sockbufSz + 1) ∧ bytes.length ≤ sockbufSz + 1

/-- The formatter returns exactly if the arguments are those of the format, and
stores once to each of as many places as that asks for. -/
theorem synprotoVprintf_cases (order : ByteOrder) (bufSz : Nat) (fmt : List UInt8)
    (args : List VaArg) :
    (formatSize? fmt args = none ∧ synprotoVprintf order bufSz fmt args = none) ∨
      ∃ st', formatSize? fmt args = some st'.outPos ∧
        synprotoVprintf order bufSz fmt args = some st' ∧ Covers 0 st'.outPos st'.stores := by
  have measured : Measured (.start args) (formatSize? fmt args)
      (synprotoVprintf order bufSz fmt args) :=
    vprintfLoop_measured order fmt (.start args)
  generalize formatSize? fmt args = asked at measured ⊢
  generalize synprotoVprintf order bufSz fmt args = result at measured ⊢
  cases measured with
  | undefined => exact .inl ⟨rfl, rfl⟩
  | @read size st' outPos_eq fills =>
      have outPos : st'.outPos = size := outPos_eq.trans (Nat.zero_add _)
      refine .inr ⟨st', congrArg some outPos.symm, rfl, fun store member => ?_, ?_⟩
      · rw [Nat.zero_add]
        exact (fills.below store member).resolve_left List.not_mem_nil
      · rw [Nat.zero_add]
        exact fills.every

theorem synprotoVprintf_size {fmt : List UInt8} {args : List VaArg} {size : Nat}
    (asks : formatSize? fmt args = some size) (order : ByteOrder) (bufSz : Nat) :
    ∃ st', synprotoVprintf order bufSz fmt args = some st' ∧ st'.outPos = size ∧
      Covers 0 size st'.stores := by
  rcases synprotoVprintf_cases order bufSz fmt args with ⟨foreign, _⟩ | ⟨st', same, ran, stored⟩
  · exact absurd (asks.symm.trans foreign) (Option.some_ne_none size)
  · obtain rfl := Option.some.inj (same.symm.trans asks)
    exact ⟨st', ran, rfl, stored⟩

theorem formatSize?_of_synprotoVprintf {order : ByteOrder} {bufSz : Nat} {fmt : List UInt8}
    {args : List VaArg} {st : VprintfState}
    (ran : synprotoVprintf order bufSz fmt args = some st) :
    formatSize? fmt args = some st.outPos ∧ Covers 0 st.outPos st.stores := by
  rcases synprotoVprintf_cases order bufSz fmt args with ⟨_, undefined⟩ | ⟨st', same, called, stored⟩
  · exact absurd (ran.symm.trans undefined) (Option.some_ne_none st)
  · obtain rfl := Option.some.inj (called.symm.trans ran)
    exact ⟨same, stored⟩

/-- The one call that `synproto_send` makes sends the bytes it formatted. -/
theorem synprotoSend_calls {fmt : String} {args : List VaArg} {st' : VprintfState}
    (ran : synprotoVprintf makefileBuild.order (sockbufSz - 4) (ascii fmt) args = some st')
    (sockfd : Int) (forceSz : UInt8) (s : Sys) :
    ∃ bytes, (synprotoSend sockfd forceSz fmt args s).2.calls = s.calls ++ [.send sockfd bytes] ∧
      bytes.length = (UInt32.ofNat st'.outPos + 4).toNat := by
  simp only [synprotoSend, ran]
  cases st'.invalidToken with
  | none => exact ⟨_, ((Follows.refl s).call rfl).calls_eq, length_window _ _ _⟩
  | some token => exact ⟨_, ((Follows.refl s).log.call rfl).calls_eq, length_window _ _ _⟩

/-- The formatter stays inside its buffer exactly when the format asks for no more
than the buffer holds, and `synproto_send` stays inside its own exactly when the
format asks for no more than is left behind the header. -/
theorem inBuffer_iff {fmt : String} {args : List VaArg} {size : Nat}
    (asks : formatSize? (ascii fmt) args = some size) :
    (∀ order bufSz, ∃ st', synprotoVprintf order bufSz (ascii fmt) args = some st' ∧
      (InBuffer bufSz st' ↔ size ≤ bufSz)) ∧
    ∀ sockfd forceSz s, ∃ st' bytes,
      synprotoVprintf makefileBuild.order (sockbufSz - 4) (ascii fmt) args = some st' ∧
      (synprotoSend sockfd forceSz fmt args s).2.calls = s.calls ++ [.send sockfd bytes] ∧
      (SendInBuffer st' bytes ↔ 4 + size ≤ sockbufSz + 1) := by
  constructor
  · intro order bufSz
    obtain ⟨st', ran, length, stored⟩ := synprotoVprintf_size asks order bufSz
    refine ⟨st', ran, fun inside => length ▸ inside.2, fun fits => ⟨fun store member => ?_, ?_⟩⟩
    · have below := stored.below store member
      omega
    · exact length ▸ fits
  · intro sockfd forceSz s
    obtain ⟨st', ran, length, stored⟩ := synprotoVprintf_size asks makefileBuild.order (sockbufSz - 4)
    obtain ⟨bytes, calls, sent⟩ := synprotoSend_calls ran sockfd forceSz s
    refine ⟨st', bytes, ran, calls, ?_⟩
    constructor
    · rintro ⟨inside, _⟩
      by_contra beyond
      rw [sockbufSz] at inside beyond
      obtain ⟨store, member, last⟩ := stored.every (size - 1) (Nat.zero_le _) (by omega)
      have below := inside store member
      omega
    · intro fits
      refine ⟨fun store member => ?_, ?_⟩
      · have below := stored.below store member
        omega
      · rw [sockbufSz] at fits
        rw [sent, length, UInt32.toNat_add, UInt32.toNat_ofNat', show (4 : UInt32).toNat = 4 from rfl,
          Nat.mod_add_mod, Nat.mod_eq_of_lt (by omega), sockbufSz]
        omega

/-! ### A reply that fits and one that does not -/

theorem inBuffer_iff_keepalive :
    (∀ order bufSz, ∃ st',
      synprotoVprintf order bufSz (ascii "CALV%4iCNOP") [.int 4] = some st' ∧
      (InBuffer bufSz st' ↔ 12 ≤ bufSz)) ∧
    ∀ sockfd forceSz s, ∃ st' bytes,
      synprotoVprintf makefileBuild.order (sockbufSz - 4) (ascii "CALV%4iCNOP") [.int 4] = some st' ∧
      (synprotoSend sockfd forceSz "CALV%4iCNOP" [.int 4] s).2.calls =
        s.calls ++ [.send sockfd bytes] ∧
      (SendInBuffer st' bytes ↔ 4 + 12 ≤ sockbufSz + 1) :=
  inBuffer_iff (by decide)

/-- Two bytes go into a buffer of one. -/
theorem inBuffer_not_always :
    ¬∀ (order : ByteOrder) (bufSz : Nat) (fmt : List UInt8) (args : List VaArg)
      (st' : VprintfState), synprotoVprintf order bufSz fmt args = some st' → InBuffer bufSz st' := by
  intro always
  have inside := (always .little 1 (ascii "%2i") [.int 640] _ rfl).2
  exact absurd inside (by decide)

end MinputHop
