import MinputHop.Program.Synproto

/-!
# The format language of `synproto_vprintf`

A format is read as a list of directives, and `render` says what the list
stands for.  The formatter carries its token flag past `%s`, so a list is
`Clean` when no literal that is also a token character comes right after one.
On clean formats the formatter writes the rendering, and `synproto_send` puts
its length in front.
-/

namespace MinputHop

open FlatMemory

/-! ## Directives -/

/-- The sizes that an integer token can name. -/
inductive IntWidth where
  | one
  | two
  | four
  deriving DecidableEq

def IntWidth.bytes : IntWidth → Nat
  | .one => 1
  | .two => 2
  | .four => 4

def IntWidth.digit : IntWidth → UInt8
  | .one => chr '1'
  | .two => chr '2'
  | .four => chr '4'

inductive Directive where
  | literal (c : UInt8)
  /-- `%i`. -/
  | intDefault
  /-- `%1i`, `%2i` or `%4i`. -/
  | int (width : IntWidth)
  /-- `%s`. -/
  | str
  deriving DecidableEq

def Directive.text : Directive → List UInt8
  | .literal c => [c]
  | .intDefault => [chr '%', chr 'i']
  | .int width => [chr '%', width.digit, chr 'i']
  | .str => [chr '%', chr 's']

/-- The format that a list of directives is written as. -/
def formatText (directives : List Directive) : List UInt8 := directives.flatMap Directive.text

/-- The characters that mean something inside of a token. -/
def isTokenChar (c : UInt8) : Bool := isDigit c || c = chr 'i' || c = chr 's'

/-- No `%` is a literal, and no token character follows `%s`, with `afterStr`
when the list itself follows one. -/
def Clean : Bool → List Directive → Prop
  | _, [] => True
  | afterStr, .literal c :: rest =>
      c ≠ chr '%' ∧ (afterStr = true → isTokenChar c = false) ∧ Clean false rest
  | _, .intDefault :: rest => Clean false rest
  | _, .int _ :: rest => Clean false rest
  | _, .str :: rest => Clean true rest

instance decidableClean : (afterStr : Bool) → (directives : List Directive) →
    Decidable (Clean afterStr directives)
  | _, [] => inferInstanceAs (Decidable True)
  | afterStr, .literal c :: rest =>
      have := decidableClean false rest
      inferInstanceAs (Decidable (c ≠ chr '%' ∧ (afterStr = true → isTokenChar c = false) ∧ _))
  | _, .intDefault :: rest => decidableClean false rest
  | _, .int _ :: rest => decidableClean false rest
  | _, .str :: rest => decidableClean true rest

/-- An integer as the formatter puts it out, its memory reversed. -/
def intText (order : ByteOrder) (width : Nat) (n : Int) : List UInt8 := (order.bytes width n).reverse

/-- What a list of directives stands for, and the arguments it leaves. -/
def render (order : ByteOrder) : List Directive → List VaArg → Option (List UInt8 × List VaArg)
  | [], args => some ([], args)
  | .literal c :: rest, args => (render order rest args).map (Prod.map ([c] ++ ·) id)
  | .intDefault :: rest, .int n :: args =>
      (render order rest args).map (Prod.map (intText order 4 n ++ ·) id)
  | .int width :: rest, .int n :: args =>
      (render order rest args).map (Prod.map (intText order width.bytes n ++ ·) id)
  | .str :: rest, .str mem :: args => (render order rest args).map (Prod.map (cString mem ++ ·) id)
  | _, _ => none

@[simp] theorem length_bytes (order : ByteOrder) (width : Nat) (n : Int) :
    (order.bytes width n).length = width := by
  cases order <;> simp [ByteOrder.bytes]

theorem applyStores_append (base : Nat) (cells : Nat → UInt8) (first second : List (Nat × UInt8)) :
    applyStores base cells (first ++ second) =
      applyStores base (applyStores base cells first) second := by
  rw [applyStores, applyStores, applyStores, List.foldl_append]

/-- Storing a string byte by byte writes the string. -/
theorem applyStores_stringStores (base outPos : Nat) (cells : Nat → UInt8) (bytes : List UInt8) :
    applyStores base cells (stringStores outPos bytes) = blit cells (base + outPos) bytes := by
  induction bytes generalizing outPos cells with
  | nil => exact (blit_nil cells _).symm
  | cons byte rest ih =>
      have first : Function.update cells (base + outPos) byte = blit cells (base + outPos) [byte] := by
        have written := update_blit cells (base + outPos) [] byte
        rwa [blit_nil] at written
      change applyStores base (Function.update cells (base + outPos) byte)
        (stringStores (outPos + 1) rest) = _
      rw [ih, first]
      exact blit_blit cells (base + outPos) [byte] rest

/-- A cell just behind a write can be stored before it. -/
theorem blit_update (cells : Nat → UInt8) (off : Nat) (data : List UInt8) (last : UInt8) :
    blit (Function.update cells (off + data.length) last) off data =
      blit cells off (data ++ [last]) := by
  rw [← update_blit]
  funext i
  by_cases here : i = off + data.length
  · rw [here, blit_after _ (Nat.le_refl _), Function.update_self, Function.update_self]
  · rw [Function.update_of_ne here]
    by_cases inside : off ≤ i ∧ i < off + data.length
    · obtain ⟨k, rfl⟩ := Nat.exists_eq_add_of_le inside.1
      have left : k < data.length := by omega
      rw [blit_inside _ left, blit_inside _ left]
    · have outside : i < off ∨ off + data.length ≤ i := by omega
      rcases outside with before | after
      · rw [blit_before _ _ before, blit_before _ _ before, Function.update_of_ne here]
      · rw [blit_after _ after, blit_after _ after, Function.update_of_ne here]

/-- The reversing loop, with its first `k` steps behind it and `below` cells
under the part still to be written. -/
theorem applyStores_zipIdx (base below k : Nat) (cells : Nat → UInt8) (argP : List UInt8) :
    applyStores base cells
        ((argP.zipIdx k).map fun (byte, i) => (below + argP.length + k - i - 1, byte)) =
      blit cells (base + below) argP.reverse := by
  induction argP generalizing k cells with
  | nil => exact (blit_nil cells _).symm
  | cons byte rest ih =>
      have top : base + (below + rest.length + (k + 1) - k - 1) =
          base + below + rest.reverse.length := by
        rw [List.length_reverse]
        omega
      have same : below + (byte :: rest).length + k = below + rest.length + (k + 1) := by
        rw [List.length_cons]
        omega
      rw [same, List.reverse_cons, ← blit_update, ← ih (k + 1), ← top]
      rfl

/-- Storing an integer in reverse writes its bytes in reverse. -/
theorem applyStores_reverseStores (base outPos : Nat) (cells : Nat → UInt8) (argP : List UInt8) :
    applyStores base cells (reverseStores outPos argP) =
      blit cells (base + outPos) argP.reverse :=
  applyStores_zipIdx base outPos 0 cells argP

/-! ## One directive at a time -/

section Step

variable {order : ByteOrder} {rest : List UInt8} {st : VprintfState}

/-- What the formatter does with a piece of output. -/
def VprintfState.put (st : VprintfState) (inToken : Int) (stores : List (Nat × UInt8))
    (length : Nat) (args : List VaArg) : VprintfState :=
  { st with
    inToken := inToken
    outPos := st.outPos + length
    stores := st.stores ++ stores
    args := args }

theorem vprintfLoop_literal {c : UInt8} (notPercent : c ≠ chr '%')
    (plain : st.inToken = 0 ∨ isTokenChar c = false) :
    vprintfLoop order (c :: rest) st =
      vprintfLoop order rest (st.put 0 [(st.outPos, c)] 1 st.args) := by
  rw [vprintfLoop, if_neg notPercent]
  rcases plain with closed | other
  · simp [closed, VprintfState.put]
  · simp only [isTokenChar, Bool.or_eq_false_iff, decide_eq_false_iff_not] at other
    simp [other, VprintfState.put]

theorem vprintfLoop_percent :
    vprintfLoop order (chr '%' :: rest) st = vprintfLoop order rest { st with inToken := 4 } := by
  rw [vprintfLoop, if_pos rfl]

/-- The digit of a token gives its width. -/
theorem atoi_digit (width : IntWidth) : atoi (width.digit :: chr 'i' :: rest) = width.bytes := by
  cases width <;> rfl

theorem vprintfLoop_digit {width : IntWidth} (open' : st.inToken ≠ 0) :
    vprintfLoop order (width.digit :: chr 'i' :: rest) st =
      vprintfLoop order (chr 'i' :: rest) { st with inToken := width.bytes } := by
  have notPercent : width.digit ≠ chr '%' := by cases width <;> decide
  have digit : isDigit width.digit = true := by cases width <;> decide
  rw [vprintfLoop, if_neg notPercent, if_pos ⟨digit, open'⟩, atoi_digit]

theorem vprintfLoop_int {width : IntWidth} {n : Int} {args : List VaArg}
    (token : st.inToken = width.bytes) (next : st.args = .int n :: args) :
    vprintfLoop order (chr 'i' :: rest) st =
      vprintfLoop order rest
        (st.put 0 (reverseStores st.outPos (order.bytes width.bytes n)) width.bytes args) := by
  have notPercent : chr 'i' ≠ chr '%' := by decide
  have notDigit : ¬(isDigit (chr 'i') ∧ st.inToken ≠ 0) := by simp [isDigit, chr]
  have known : tokenWidth? width.bytes = some width.bytes := by cases width <;> rfl
  have positive : (width.bytes : Int) ≠ 0 := by cases width <;> decide
  rw [vprintfLoop, if_neg notPercent, if_neg notDigit, if_pos ⟨rfl, by rw [token]; exact positive⟩,
    token, known]
  simp only [next]
  rfl

theorem vprintfLoop_str {mem : List UInt8} {args : List VaArg} (open' : st.inToken ≠ 0)
    (next : st.args = .str mem :: args) :
    vprintfLoop order (chr 's' :: rest) st =
      vprintfLoop order rest
        (st.put st.inToken (stringStores st.outPos (cString mem)) (cString mem).length args) := by
  have notPercent : chr 's' ≠ chr '%' := by decide
  have notDigit : ¬(isDigit (chr 's') ∧ st.inToken ≠ 0) := by simp [isDigit, chr]
  have notInt : ¬(chr 's' = chr 'i' ∧ st.inToken ≠ 0) := by simp [chr]
  rw [vprintfLoop, if_neg notPercent, if_neg notDigit, if_neg notInt, if_pos ⟨rfl, open'⟩]
  simp only [next]
  rfl

end Step

/-! ## Whole formats -/

/-- Between two states of the formatter, `out` was put out. -/
structure Writes (st st' : VprintfState) (out : List UInt8) : Prop where
  outPos_eq : st'.outPos = st.outPos + out.length
  invalidToken_eq : st'.invalidToken = st.invalidToken
  stores_eq : ∀ base cells, applyStores base cells st'.stores =
    blit (applyStores base cells st.stores) (base + st.outPos) out

theorem Writes.refl (st : VprintfState) : Writes st st [] where
  outPos_eq := rfl
  invalidToken_eq := rfl
  stores_eq _ _ := (blit_nil _ _).symm

theorem Writes.trans {st mid st' : VprintfState} {first second : List UInt8}
    (before : Writes st mid first) (after : Writes mid st' second) :
    Writes st st' (first ++ second) where
  outPos_eq := by
    rw [after.outPos_eq, before.outPos_eq, List.length_append, Nat.add_assoc]
  invalidToken_eq := after.invalidToken_eq.trans before.invalidToken_eq
  stores_eq base cells := by
    rw [after.stores_eq, before.stores_eq, before.outPos_eq, ← Nat.add_assoc, blit_blit]

theorem Writes.put {st : VprintfState} {stores : List (Nat × UInt8)} {bytes : List UInt8}
    (stored : ∀ base cells, applyStores base cells stores = blit cells (base + st.outPos) bytes)
    (inToken : Int) (args : List VaArg) :
    Writes st (st.put inToken stores bytes.length args) bytes where
  outPos_eq := rfl
  invalidToken_eq := rfl
  stores_eq base cells := by
    change applyStores base cells (st.stores ++ stores) = _
    rw [applyStores_append, stored]

/-- The formatter reads one piece of the format and puts `out` out. -/
structure Puts (order : ByteOrder) (text rest : List UInt8) (st mid : VprintfState)
    (out : List UInt8) (inToken : Int) (args : List VaArg) : Prop where
  ran : vprintfLoop order (text ++ rest) st = vprintfLoop order rest mid
  writes : Writes st mid out
  inToken_eq : mid.inToken = inToken
  args_eq : mid.args = args

section Pieces

variable {order : ByteOrder} {rest : List UInt8} {st : VprintfState} {n : Int} {mem : List UInt8}
  {args : List VaArg}

theorem puts_literal {c : UInt8} (notPercent : c ≠ chr '%')
    (plain : st.inToken = 0 ∨ isTokenChar c = false) :
    ∃ mid, Puts order [c] rest st mid [c] 0 st.args := by
  have stored := fun base cells => applyStores_stringStores base st.outPos cells [c]
  exact ⟨_, vprintfLoop_literal notPercent plain, Writes.put stored 0 st.args, rfl, rfl⟩

/-- What opens a token puts nothing out. -/
theorem Puts.opened {text text' out : List UInt8} {mid : VprintfState} {inToken token : Int}
    (puts : Puts order text rest { st with inToken := token } mid out inToken args)
    (opens : vprintfLoop order (text' ++ rest) st =
      vprintfLoop order (text ++ rest) { st with inToken := token }) :
    Puts order text' rest st mid out inToken args where
  ran := opens.trans puts.ran
  writes := ⟨puts.writes.outPos_eq, puts.writes.invalidToken_eq, puts.writes.stores_eq⟩
  inToken_eq := puts.inToken_eq
  args_eq := puts.args_eq

/-- An integer token puts the text of its argument out. -/
theorem puts_int (order : ByteOrder) (text rest : List UInt8) (width : IntWidth)
    (next : st.args = .int n :: args)
    (opens : vprintfLoop order (text ++ rest) st =
      vprintfLoop order (chr 'i' :: rest) { st with inToken := width.bytes }) :
    ∃ mid, Puts order text rest st mid (intText order width.bytes n) 0 args := by
  have stored := fun base cells =>
    applyStores_reverseStores base st.outPos cells (order.bytes width.bytes n)
  have written := Writes.put stored 0 args
  rw [List.length_reverse, length_bytes] at written
  have token : Puts order [chr 'i'] rest { st with inToken := width.bytes } _ _ 0 args :=
    ⟨vprintfLoop_int rfl next, ⟨written.outPos_eq, written.invalidToken_eq, written.stores_eq⟩,
      rfl, rfl⟩
  exact ⟨_, token.opened opens⟩

theorem vprintfLoop_openInt (width : IntWidth) :
    vprintfLoop order (chr '%' :: width.digit :: chr 'i' :: rest) st =
      vprintfLoop order (chr 'i' :: rest) { st with inToken := width.bytes } := by
  have four_ne_zero : (4 : Int) ≠ 0 := by decide
  rw [vprintfLoop_percent, vprintfLoop_digit four_ne_zero]

/-- A string token puts the string out, and stays open. -/
theorem puts_str (next : st.args = .str mem :: args) :
    ∃ mid, Puts order [chr '%', chr 's'] rest st mid (cString mem) 4 args := by
  have four_ne_zero : (4 : Int) ≠ 0 := by decide
  have stored := fun base cells => applyStores_stringStores base st.outPos cells (cString mem)
  have written := Writes.put stored 4 args
  have token : Puts order [chr 's'] rest { st with inToken := 4 } _ _ 4 args :=
    ⟨vprintfLoop_str four_ne_zero next,
      ⟨written.outPos_eq, written.invalidToken_eq, written.stores_eq⟩, rfl, rfl⟩
  exact ⟨_, token.opened vprintfLoop_percent⟩

end Pieces

/-- The formatter writes the rendering of a clean format, whatever the byte order
and whatever token a string in front left open. -/
theorem vprintfLoop_render {order : ByteOrder} {directives : List Directive} {afterStr : Bool}
    {args left : List VaArg} {out : List UInt8} {st : VprintfState}
    (clean : Clean afterStr directives) (rendered : render order directives args = some (out, left))
    (token : afterStr = false → st.inToken = 0) (given : st.args = args) :
    ∃ st', vprintfLoop order (formatText directives) st = some st' ∧ Writes st st' out ∧
      st'.args = left := by
  induction directives generalizing afterStr args out st with
  | nil =>
      cases rendered
      exact ⟨st, rfl, Writes.refl st, given⟩
  | cons directive rest ih =>
      have unfolded : formatText (directive :: rest) = directive.text ++ formatText rest :=
        List.flatMap_cons
      rw [unfolded]
      cases directive with
      | literal c =>
          obtain ⟨notPercent, separate, clean⟩ := clean
          obtain ⟨⟨out, _⟩, later, split⟩ := Option.map_eq_some_iff.mp rendered
          cases split
          have plain : st.inToken = 0 ∨ isTokenChar c = false := by
            cases afterStr with
            | false => exact .inl (token rfl)
            | true => exact .inr (separate rfl)
          obtain ⟨mid, puts⟩ := puts_literal notPercent plain
          obtain ⟨st', ran, writes, args_eq⟩ :=
            ih clean later (fun _ => puts.inToken_eq) (puts.args_eq.trans given)
          exact ⟨st', puts.ran.trans ran, puts.writes.trans writes, args_eq⟩
      | intDefault =>
          match args, rendered with
          | .int n :: args, rendered =>
              obtain ⟨⟨out, _⟩, later, split⟩ := Option.map_eq_some_iff.mp rendered
              cases split
              obtain ⟨mid, puts⟩ := puts_int order [chr '%', chr 'i'] (formatText rest) .four given
                vprintfLoop_percent
              obtain ⟨st', ran, writes, args_eq⟩ := ih clean later (fun _ => puts.inToken_eq) puts.args_eq
              exact ⟨st', puts.ran.trans ran, puts.writes.trans writes, args_eq⟩
      | int width =>
          match args, rendered with
          | .int n :: args, rendered =>
              obtain ⟨⟨out, _⟩, later, split⟩ := Option.map_eq_some_iff.mp rendered
              cases split
              obtain ⟨mid, puts⟩ := puts_int order (Directive.int width).text (formatText rest) width given
                (vprintfLoop_openInt width)
              obtain ⟨st', ran, writes, args_eq⟩ := ih clean later (fun _ => puts.inToken_eq) puts.args_eq
              exact ⟨st', puts.ran.trans ran, puts.writes.trans writes, args_eq⟩
      | str =>
          match args, rendered with
          | .str mem :: args, rendered =>
              obtain ⟨⟨out, _⟩, later, split⟩ := Option.map_eq_some_iff.mp rendered
              cases split
              obtain ⟨mid, puts⟩ := puts_str given
              obtain ⟨st', ran, writes, args_eq⟩ := ih clean later nofun puts.args_eq
              exact ⟨st', puts.ran.trans ran, puts.writes.trans writes, args_eq⟩

/-- The local variables at the start of the formatter. -/
def VprintfState.start (args : List VaArg) : VprintfState :=
  { inToken := 0, outPos := 0, stores := [], args := args, invalidToken := none }

/-- A whole call on a clean format. -/
theorem synprotoVprintf_render {order : ByteOrder} {directives : List Directive}
    {args left : List VaArg} {out : List UInt8} (bufSz : Nat) (clean : Clean false directives)
    (rendered : render order directives args = some (out, left)) :
    ∃ st', synprotoVprintf order bufSz (formatText directives) args = some st' ∧
      Writes (.start args) st' out ∧ st'.args = left :=
  vprintfLoop_render clean rendered (fun _ => rfl) rfl

/-! ## Sending a packet -/

/-- The memory of a swapped number is the number in network order. -/
theorem bytes_swap32 (num : UInt32) :
    makefileBuild.order.bytes 4 (swap32 makefileBuild num).toNat =
      BigEndian.encode 4 num.toNat := by
  have bound := num.toNat_lt
  have nonneg : ∀ n : Nat, ((n : Int) % 256 ^ 4).toNat = n % 256 ^ 4 := by omega
  have byte : ∀ {m n : Nat}, m % 256 = n % 256 → UInt8.ofNat m = UInt8.ofNat n := by
    intro m n same
    apply UInt8.toNat_inj.mp
    simpa only [UInt8.toNat_ofNat'] using same
  obtain ⟨_, first, second, third, fourth⟩ := four_digits
    (a := num.toNat % 256) (b := num.toNat / 2 ^ 8 % 256) (c := num.toNat / 2 ^ 16 % 256)
    (d := num.toNat / 2 ^ 24) (by omega) (by omega) (by omega) (by omega)
  simp only [makefileBuild, ByteOrder.bytes, nonneg]
  rw [← makefileBuild, toNat_swap32_little, BigEndian.encode_mod]
  simp only [BigEndian.encode, List.reverse_cons, List.reverse_nil, List.nil_append,
    List.cons_append, List.cons.injEq, and_true]
  refine ⟨byte ?_, byte ?_, byte ?_, byte ?_⟩
  · rw [Nat.pow_zero, Nat.div_one, first, show 256 ^ 3 = 2 ^ 24 from rfl,
      Nat.mod_eq_of_lt (by omega)]
  · exact second
  · exact third
  · rw [show 256 ^ 3 = 2 ^ 24 from rfl, fourth, Nat.mod_mod, Nat.pow_zero, Nat.div_one]

/-- A payload behind its length. -/
def lengthPrefixed (payload : List UInt8) : List UInt8 :=
  BigEndian.encode 4 payload.length ++ payload

/-- The bytes that the formatter leaves in its buffer. -/
def VprintfState.output (st : VprintfState) : List UInt8 :=
  window (applyStores 0 (fun _ => 0) st.stores) 0 st.outPos

theorem length_output (st : VprintfState) : st.output.length = st.outPos := length_window _ _ _

theorem Writes.output_eq {args : List VaArg} {st' : VprintfState} {out : List UInt8}
    (writes : Writes (.start args) st' out) : st'.output = out := by
  have outPos : st'.outPos = out.length := writes.outPos_eq.trans (Nat.zero_add _)
  have stored : applyStores 0 (fun _ => 0) st'.stores = blit (fun _ => 0) 0 out :=
    writes.stores_eq 0 fun _ => 0
  rw [VprintfState.output, outPos, stored, window_blit]

/-- Stores are relative to the place that the buffer starts at. -/
theorem applyStores_shift (base : Nat) (cells : Nat → UInt8) (stores : List (Nat × UInt8))
    (i : Nat) :
    applyStores base cells stores (base + i) =
      applyStores 0 (fun k => cells (base + k)) stores i := by
  induction stores generalizing cells with
  | nil => rfl
  | cons store rest ih =>
      change applyStores base (Function.update cells (base + store.1) store.2) rest (base + i) =
        applyStores 0 (Function.update (fun k => cells (base + k)) (0 + store.1) store.2) rest i
      rw [ih]
      congr 1
      funext k
      by_cases here : k = store.1
      · rw [here, Function.update_self, Nat.zero_add, Function.update_self]
      · have apart : base + k ≠ base + store.1 := fun same => here (Nat.add_left_cancel same)
        rw [Function.update_of_ne apart, Nat.zero_add, Function.update_of_ne here]

theorem window_applyStores (base : Nat) (st : VprintfState) :
    window (applyStores base (fun _ => 0) st.stores) base st.outPos = st.output := by
  apply window_congr
  intro i _
  rw [applyStores_shift, Nat.zero_add]

/-- Behind a header of four bytes, what the formatter left in the buffer is sent.
Any forced size is written as 4. -/
theorem synprotoSend_formatted {fmt : String} {args : List VaArg} {st : VprintfState}
    (ran : synprotoVprintf makefileBuild.order (sockbufSz - 4) (ascii fmt) args = some st)
    (small : 4 + st.outPos < 2 ^ 32) (sockfd : Int) (forceSz : UInt8) (s : Sys) :
    synprotoSend sockfd forceSz fmt args s =
      (UInt32.ofNat st.outPos,
        (st.invalidToken.elim s fun token =>
          osioPrintf .error "invalid token size (%d)?" [.num token] s).emit
          (.send sockfd
            (BigEndian.encode 4 (if forceSz ≠ 0 then 4 else st.output.length) ++ st.output))) := by
  have length : (UInt32.ofNat st.outPos).toNat = st.outPos := by
    rw [UInt32.toNat_ofNat', Nat.mod_eq_of_lt (by omega)]
  have total : (UInt32.ofNat st.outPos + 4).toNat = 4 + st.outPos := by
    rw [UInt32.toNat_add, length, show (4 : UInt32).toNat = 4 from rfl, Nat.mod_eq_of_lt (by omega),
      Nat.add_comm]
  have header : makefileBuild.order.bytes 4
      (if forceSz ≠ 0 then swap32 makefileBuild 4
        else swap32 makefileBuild (UInt32.ofNat st.outPos)).toNat =
      BigEndian.encode 4 (if forceSz ≠ 0 then 4 else st.output.length) := by
    by_cases forced : forceSz ≠ 0
    · rw [if_pos forced, if_pos forced, bytes_swap32]
      rfl
    · rw [if_neg forced, if_neg forced, bytes_swap32, length, length_output]
  have sent : ∀ cells : Nat → UInt8, ∀ bytes : List UInt8, bytes.length = 4 →
      window (blit cells 0 bytes) 0 (4 + st.outPos) = bytes ++ window cells 4 st.outPos := by
    intro cells bytes four
    have front := window_blit cells 0 bytes
    rw [four] at front
    have behind : window (blit cells 0 bytes) 4 st.outPos = window cells 4 st.outPos :=
      window_congr fun i _ => blit_after _ (by omega)
    rw [window_add, front, Nat.zero_add, behind]
  simp only [synprotoSend, ran, total, header]
  rw [sent _ _ (BigEndian.length_encode 4 _), window_applyStores]
  cases st.invalidToken with
  | none => rfl
  | some token => rfl

/-- `synproto_send` sends the rendering of a clean format behind a header, and
does nothing else. -/
theorem synprotoSend_render (directives : List Directive) {fmt : String} {args : List VaArg}
    {payload : List UInt8} (text : ascii fmt = formatText directives)
    (clean : Clean false directives)
    (rendered : render makefileBuild.order directives args = some (payload, []))
    (small : payload.length + 4 < 2 ^ 32) (sockfd : Int) (forceSz : UInt8) (s : Sys) :
    synprotoSend sockfd forceSz fmt args s =
      (UInt32.ofNat payload.length,
        s.emit (.send sockfd
          (BigEndian.encode 4 (if forceSz ≠ 0 then 4 else payload.length) ++ payload))) := by
  obtain ⟨st', called, writes, _⟩ := synprotoVprintf_render (sockbufSz - 4) clean rendered
  rw [← text] at called
  have outPos : st'.outPos = payload.length := writes.outPos_eq.trans (Nat.zero_add _)
  have noError : st'.invalidToken = none := writes.invalidToken_eq
  rw [synprotoSend_formatted called (by omega), outPos, noError, writes.output_eq]
  rfl

end MinputHop
