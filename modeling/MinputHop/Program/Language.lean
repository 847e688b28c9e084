import MinputHop.Program.Format

/-!
# The documented language of `synproto_vprintf`

What the comment in `synproto.h` promises for a list of directives, and exactly
when the formatter keeps the promise.  A string token is not closed, so a
literal digit, `i` or `s` right behind it is taken for a part of a token: it is
dropped, or it takes an argument that belongs to a later token.
-/

namespace MinputHop

open FlatMemory

/-- An integer of `width` bytes in network order. -/
def networkOrder (width : Nat) (n : Int) : List UInt8 :=
  BigEndian.encode width (n % 256 ^ width).toNat

/-- What the directives promise for these arguments, if the arguments are theirs. -/
def documented : List Directive → List VaArg → Option (List UInt8)
  | [], [] => some []
  | .literal c :: rest, args => (documented rest args).map ([c] ++ ·)
  | .intDefault :: rest, .int n :: args => (documented rest args).map (networkOrder 4 n ++ ·)
  | .int width :: rest, .int n :: args =>
      (documented rest args).map (networkOrder width.bytes n ++ ·)
  | .str :: rest, .str mem :: args => (documented rest args).map (cString mem ++ ·)
  | _, _ => none

/-- The promise is kept: every argument is used once, `out` is written and
nothing else, and its length is returned. -/
def Implements (order : ByteOrder) (bufSz : Nat) (directives : List Directive) (args : List VaArg)
    (out : List UInt8) : Prop :=
  ∃ st', synprotoVprintf order bufSz (formatText directives) args = some st' ∧
    st'.invalidToken = none ∧ st'.args = [] ∧ st'.outPos = out.length ∧
    ∀ base cells, applyStores base cells st'.stores = blit cells (base + 0) out

/-- No literal of the format is a percent sign. -/
def LiteralsPlain (directives : List Directive) : Prop := .literal (chr '%') ∉ directives

theorem LiteralsPlain.rest {directive : Directive} {rest : List Directive}
    (plain : LiteralsPlain (directive :: rest)) : LiteralsPlain rest :=
  fun member => plain (List.mem_cons_of_mem _ member)

theorem LiteralsPlain.first {c : UInt8} {rest : List Directive}
    (plain : LiteralsPlain (.literal c :: rest)) : c ≠ chr '%' :=
  fun percent => plain (percent ▸ List.mem_cons_self)

/-- On a little-endian host the memory of an integer, reversed, is network order. -/
theorem intText_eq_networkOrder (width : Nat) (n : Int) :
    intText .little width n = networkOrder width n :=
  List.reverse_reverse _

/-- The rendering is what is documented. -/
theorem render_of_documented {directives : List Directive} {args : List VaArg} {out : List UInt8}
    (given : documented directives args = some out) :
    render .little directives args = some (out, []) := by
  induction directives generalizing args out with
  | nil =>
      match args, given with
      | [], given =>
          cases given
          rfl
  | cons directive rest ih =>
      cases directive with
      | literal c =>
          obtain ⟨later, found, rfl⟩ := Option.map_eq_some_iff.mp given
          rw [render, ih found]
          rfl
      | intDefault =>
          match args, given with
          | .int n :: args, given =>
              obtain ⟨later, found, rfl⟩ := Option.map_eq_some_iff.mp given
              rw [render, ih found, intText_eq_networkOrder]
              rfl
      | int width =>
          match args, given with
          | .int n :: args, given =>
              obtain ⟨later, found, rfl⟩ := Option.map_eq_some_iff.mp given
              rw [render, ih found, intText_eq_networkOrder]
              rfl
      | str =>
          match args, given with
          | .str mem :: args, given =>
              obtain ⟨later, found, rfl⟩ := Option.map_eq_some_iff.mp given
              rw [render, ih found]
              rfl

/-! ## Arguments -/

/-- Whether a directive takes an argument. -/
def Directive.isToken : Directive → Bool
  | .literal _ => false
  | _ => true

/-- A token makes this of its argument. -/
inductive Takes (order : ByteOrder) : Directive → VaArg → List UInt8 → Prop where
  | intDefault (n : Int) : Takes order .intDefault (.int n) (intText order 4 n)
  | int (width : IntWidth) (n : Int) :
      Takes order (.int width) (.int n) (intText order width.bytes n)
  | str (mem : List UInt8) : Takes order .str (.str mem) (cString mem)

/-- The number of arguments that a format takes. -/
def tokens (directives : List Directive) : Nat := directives.countP Directive.isToken

@[simp] theorem tokens_literal (c : UInt8) (rest : List Directive) :
    tokens (.literal c :: rest) = tokens rest :=
  List.countP_cons_of_neg Bool.false_ne_true

theorem tokens_cons {directive : Directive} (token : directive.isToken = true)
    (rest : List Directive) : tokens (directive :: rest) = tokens rest + 1 :=
  List.countP_cons_of_pos token

section Render

variable {order : ByteOrder} {directive : Directive} {rest : List Directive}
  {args left : List VaArg} {out : List UInt8}

theorem render_literal {c : UInt8}
    (rendered : render order (.literal c :: rest) args = some (out, left)) :
    ∃ later, render order rest args = some (later, left) ∧ out = c :: later := by
  obtain ⟨⟨later, _⟩, found, split⟩ := Option.map_eq_some_iff.mp rendered
  cases split
  exact ⟨later, found, rfl⟩

/-- A token uses up one argument. -/
theorem render_token (token : directive.isToken = true)
    (rendered : render order (directive :: rest) args = some (out, left)) :
    ∃ arg args' piece later, args = arg :: args' ∧ Takes order directive arg piece ∧
      render order rest args' = some (later, left) ∧ out = piece ++ later := by
  cases directive with
  | literal c => exact absurd token Bool.false_ne_true
  | intDefault =>
      match args, rendered with
      | .int n :: args, rendered =>
          obtain ⟨⟨later, _⟩, found, split⟩ := Option.map_eq_some_iff.mp rendered
          cases split
          exact ⟨_, args, _, later, rfl, .intDefault n, found, rfl⟩
  | int width =>
      match args, rendered with
      | .int n :: args, rendered =>
          obtain ⟨⟨later, _⟩, found, split⟩ := Option.map_eq_some_iff.mp rendered
          cases split
          exact ⟨_, args, _, later, rfl, .int width n, found, rfl⟩
  | str =>
      match args, rendered with
      | .str mem :: args, rendered =>
          obtain ⟨⟨later, _⟩, found, split⟩ := Option.map_eq_some_iff.mp rendered
          cases split
          exact ⟨_, args, _, later, rfl, .str mem, found, rfl⟩

theorem length_args_of_render {directives : List Directive}
    (rendered : render order directives args = some (out, left)) :
    args.length = tokens directives + left.length := by
  induction directives generalizing args out with
  | nil =>
      cases rendered
      exact (Nat.zero_add _).symm
  | cons directive rest ih =>
      cases token : directive.isToken with
      | false =>
          cases directive with
          | literal c =>
              obtain ⟨later, found, _⟩ := render_literal rendered
              rw [tokens_literal, ih found]
          | intDefault | int | str => exact absurd token nofun
      | true =>
          obtain ⟨arg, args, piece, later, rfl, _, found, _⟩ := render_token token rendered
          rw [tokens_cons token, List.length_cons, ih found, Nat.add_right_comm]

end Render

/-! ## One directive of any format -/

section Step

variable {order : ByteOrder} {rest : List UInt8} {st : VprintfState} {directive : Directive}

/-- A token whose argument is there puts it out, and only a string stays open. -/
theorem puts_token (rest : List UInt8) {arg : VaArg} {args : List VaArg} {out : List UInt8}
    (takes : Takes order directive arg out) (given : st.args = arg :: args) :
    ∃ mid inToken, Puts order directive.text rest st mid out inToken args ∧
      decide (inToken ≠ 0) = decide (directive = .str) := by
  cases takes with
  | intDefault n =>
      obtain ⟨mid, puts⟩ := puts_int order [chr '%', chr 'i'] rest .four given vprintfLoop_percent
      exact ⟨mid, 0, puts, rfl⟩
  | int width n =>
      obtain ⟨mid, puts⟩ := puts_int order (Directive.int width).text rest width given
        (vprintfLoop_openInt width)
      exact ⟨mid, 0, puts, rfl⟩
  | str mem =>
      obtain ⟨mid, puts⟩ := puts_str given
      exact ⟨mid, 4, puts, rfl⟩

/-- An integer token without its argument is undefined. -/
theorem vprintfLoop_int_none (width : IntWidth) (token : st.inToken = width.bytes)
    (missing : ∀ n args, st.args ≠ .int n :: args) :
    vprintfLoop order (chr 'i' :: rest) st = none := by
  have notPercent : chr 'i' ≠ chr '%' := by decide
  have notDigit : ¬(isDigit (chr 'i') ∧ st.inToken ≠ 0) := by simp [isDigit, chr]
  have known : tokenWidth? width.bytes = some width.bytes := by cases width <;> rfl
  have positive : (width.bytes : Int) ≠ 0 := by cases width <;> decide
  rw [vprintfLoop, if_neg notPercent, if_neg notDigit, if_pos ⟨rfl, by rw [token]; exact positive⟩,
    token, known]
  dsimp only
  cases shape : st.args with
  | nil => rfl
  | cons arg args =>
      cases arg with
      | int n => exact absurd shape (missing n args)
      | str mem => rfl

theorem vprintfLoop_str_none (open' : st.inToken ≠ 0)
    (missing : ∀ mem args, st.args ≠ .str mem :: args) :
    vprintfLoop order (chr 's' :: rest) st = none := by
  have notPercent : chr 's' ≠ chr '%' := by decide
  have notDigit : ¬(isDigit (chr 's') ∧ st.inToken ≠ 0) := by simp [isDigit, chr]
  have notInt : ¬(chr 's' = chr 'i' ∧ st.inToken ≠ 0) := by simp [chr]
  rw [vprintfLoop, if_neg notPercent, if_neg notDigit, if_neg notInt, if_pos ⟨rfl, open'⟩]
  cases shape : st.args with
  | nil => rfl
  | cons arg args =>
      cases arg with
      | int n => rfl
      | str mem => exact absurd shape (missing mem args)

/-- A token without its argument is undefined. -/
theorem vprintfLoop_token_none (token : directive.isToken = true)
    (missing : ∀ arg args out, st.args = arg :: args → ¬Takes order directive arg out) :
    vprintfLoop order (directive.text ++ rest) st = none := by
  cases directive with
  | literal c => exact absurd token Bool.false_ne_true
  | intDefault =>
      refine vprintfLoop_percent.trans (vprintfLoop_int_none .four rfl ?_)
      exact fun n args given => missing _ args _ given (.intDefault n)
  | int width =>
      refine (vprintfLoop_openInt width).trans (vprintfLoop_int_none width rfl ?_)
      exact fun n args given => missing _ args _ given (.int width n)
  | str =>
      have four_ne_zero : (4 : Int) ≠ 0 := by decide
      refine vprintfLoop_percent.trans (vprintfLoop_str_none four_ne_zero ?_)
      exact fun mem args given => missing _ args _ given (.str mem)

/-- A literal is put out, dropped as the size of a token, or taken for the end of
a token: then it uses an argument up, or the formatter stops. -/
theorem vprintfLoop_literal_cases (order : ByteOrder) (rest : List UInt8) (st : VprintfState)
    {c : UInt8} (notPercent : c ≠ chr '%') :
    ((st.inToken = 0 ∨ isTokenChar c = false) ∧ ∃ mid, Puts order [c] rest st mid [c] 0 st.args) ∨
    (st.inToken ≠ 0 ∧ isTokenChar c = true ∧
      ((∃ inToken, vprintfLoop order (c :: rest) st =
          vprintfLoop order rest { st with inToken := inToken }) ∨
        (∃ mid arg, st.args = arg :: mid.args ∧
          vprintfLoop order (c :: rest) st = vprintfLoop order rest mid) ∨
        vprintfLoop order (c :: rest) st = none ∨
        vprintfLoop order (c :: rest) st = some { st with invalidToken := some st.inToken })) := by
  by_cases plain : st.inToken = 0 ∨ isTokenChar c = false
  · exact .inl ⟨plain, puts_literal notPercent plain⟩
  rw [not_or, Bool.not_eq_false] at plain
  refine .inr ⟨plain.1, plain.2, ?_⟩
  rw [vprintfLoop, if_neg notPercent]
  by_cases digit : isDigit c = true
  · rw [if_pos ⟨digit, plain.1⟩]
    exact .inl ⟨_, rfl⟩
  rw [if_neg fun both => digit both.1]
  by_cases int : c = chr 'i'
  · rw [if_pos ⟨int, plain.1⟩]
    cases tokenWidth? st.inToken with
    | none => exact .inr (.inr (.inr rfl))
    | some width =>
        cases given : st.args with
        | nil => exact .inr (.inr (.inl rfl))
        | cons arg args =>
            cases arg with
            | int n => exact .inr (.inl ⟨_, .int n, rfl, rfl⟩)
            | str mem => exact .inr (.inr (.inl rfl))
  · have str : c = chr 's' := by
      have char := plain.2
      simpa [isTokenChar, digit, int] using char
    rw [if_neg fun both => int both.1, if_pos ⟨str, plain.1⟩]
    cases given : st.args with
    | nil => exact .inr (.inr (.inl rfl))
    | cons arg args =>
        cases arg with
        | int n => exact .inr (.inr (.inl rfl))
        | str mem => exact .inr (.inl ⟨_, .str mem, rfl, rfl⟩)

end Step

/-! ## Formats that are not clean -/

/-- Whatever comes of a format, not all of it was read. -/
def GivesUp (result : Option VprintfState) : Prop :=
  ∀ st', result = some st' → st'.invalidToken ≠ none

theorem givesUp_none : GivesUp none := nofun

theorem givesUp_invalid (st : VprintfState) (token : Int) :
    GivesUp (some { st with invalidToken := some token }) := by
  intro st' same
  cases same
  exact nofun

/-- With fewer arguments than tokens a format cannot be read to its end. -/
theorem vprintfLoop_starved {order : ByteOrder} {directives : List Directive} {st : VprintfState}
    (plain : LiteralsPlain directives) (few : st.args.length < tokens directives) :
    GivesUp (vprintfLoop order (formatText directives) st) := by
  induction directives generalizing st with
  | nil => exact absurd few (Nat.not_lt_zero _)
  | cons directive rest ih =>
      rw [formatText, List.flatMap_cons, ← formatText]
      cases token : directive.isToken with
      | false =>
          cases directive with
          | intDefault | int | str => exact absurd token nofun
          | literal c =>
              rw [tokens_literal] at few
              change GivesUp (vprintfLoop order (c :: formatText rest) st)
              rcases vprintfLoop_literal_cases order (formatText rest) st
                plain.first with
                ⟨_, mid, puts⟩ | ⟨_, _, ⟨inToken, ran⟩ | ⟨mid, arg, given, ran⟩ | ran | ran⟩
              · have ran := puts.ran
                rw [List.singleton_append] at ran
                rw [ran]
                exact ih plain.rest (by rw [puts.args_eq]; exact few)
              · rw [ran]
                exact ih plain.rest few
              · rw [ran]
                rw [given, List.length_cons] at few
                exact ih plain.rest (by omega)
              · rw [ran]
                exact givesUp_none
              · rw [ran]
                exact givesUp_invalid _ _
      | true =>
          rw [tokens_cons token] at few
          by_cases taken : ∃ arg args out, st.args = arg :: args ∧ Takes order directive arg out
          · obtain ⟨arg, args, out, given, takes⟩ := taken
            obtain ⟨mid, inToken, puts, _⟩ := puts_token (formatText rest) takes given
            rw [given, List.length_cons] at few
            rw [puts.ran]
            exact ih plain.rest (by rw [puts.args_eq]; omega)
          · rw [vprintfLoop_token_none token fun arg args out given takes =>
              taken ⟨arg, args, out, given, takes⟩]
            exact givesUp_none

theorem clean_token {directive : Directive} (token : directive.isToken = true) (afterStr : Bool)
    (rest : List Directive) :
    Clean afterStr (directive :: rest) ↔ Clean (decide (directive = .str)) rest := by
  cases directive with
  | literal c => exact absurd token Bool.false_ne_true
  | intDefault | int | str => exact Iff.rfl

/-- On a format that is not clean, what is put out is too short. -/
theorem vprintfLoop_unclean {order : ByteOrder} {directives : List Directive} {out : List UInt8}
    {st : VprintfState} (plain : LiteralsPlain directives)
    (rendered : render order directives st.args = some (out, []))
    (unclean : ¬Clean (decide (st.inToken ≠ 0)) directives) :
    ∀ st', vprintfLoop order (formatText directives) st = some st' → st'.invalidToken = none →
      st'.outPos < st.outPos + out.length := by
  induction directives generalizing st out with
  | nil => exact absurd trivial unclean
  | cons directive rest ih =>
      rw [formatText, List.flatMap_cons, ← formatText]
      intro st' ran noError
      cases token : directive.isToken with
      | false =>
          cases directive with
          | intDefault | int | str => exact absurd token nofun
          | literal c =>
              have notPercent := plain.first
              obtain ⟨later, found, rfl⟩ := render_literal rendered
              have count := length_args_of_render found
              rw [List.length_cons]
              change vprintfLoop order (c :: formatText rest) st = some st' at ran
              rcases vprintfLoop_literal_cases order (formatText rest) st notPercent with
                ⟨apart, mid, puts⟩ | ⟨_, _, ⟨inToken, read⟩ | ⟨mid, arg, given, read⟩ | read | read⟩
              · have uncleanRest : ¬Clean (decide (mid.inToken ≠ 0)) rest := by
                  intro clean
                  rw [puts.inToken_eq] at clean
                  refine unclean ⟨notPercent, fun open' => ?_, clean⟩
                  rcases apart with closed | other
                  · exact absurd closed (of_decide_eq_true open')
                  · exact other
                have read := puts.ran
                rw [List.singleton_append, ran] at read
                have short := ih plain.rest (puts.args_eq ▸ found) uncleanRest st' read.symm noError
                rw [puts.writes.outPos_eq, List.length_singleton] at short
                omega
              · rw [read] at ran
                by_cases clean : Clean (decide (inToken ≠ 0)) rest
                · have opened : decide (inToken ≠ 0) = false →
                      { st with inToken := inToken }.inToken = 0 :=
                    fun closed => not_not.mp (of_decide_eq_false closed)
                  obtain ⟨full, ran', writes, _⟩ := vprintfLoop_render clean found opened rfl
                  rw [ran] at ran'
                  cases ran'
                  have outPos := writes.outPos_eq
                  dsimp only at outPos
                  omega
                · have short := @ih later { st with inToken := inToken } plain.rest found clean st' ran
                    noError
                  dsimp only at short
                  omega
              · rw [read] at ran
                rw [given, List.length_cons, List.length_nil] at count
                exact absurd noError (vprintfLoop_starved plain.rest (by omega) st' ran)
              · exact absurd (read.symm.trans ran) nofun
              · exact absurd noError (givesUp_invalid st st.inToken st' (read.symm.trans ran))
      | true =>
          obtain ⟨arg, args, piece, later, given, takes, found, rfl⟩ := render_token token rendered
          obtain ⟨mid, inToken, puts, after⟩ := puts_token (formatText rest) takes given
          rw [clean_token token, ← after, ← puts.inToken_eq] at unclean
          rw [puts.ran] at ran
          have short := ih plain.rest (puts.args_eq ▸ found) unclean st' ran noError
          rw [puts.writes.outPos_eq] at short
          rw [List.length_append]
          omega

/-- The formatter keeps its promise exactly for the formats in which no digit,
`i` or `s` comes right after a string token. -/
theorem implements_iff {directives : List Directive} {args : List VaArg} {out : List UInt8}
    (plain : LiteralsPlain directives) (given : documented directives args = some out)
    (bufSz : Nat) : Implements .little bufSz directives args out ↔ Clean false directives := by
  have rendered := render_of_documented given
  constructor
  · rintro ⟨st', ran, noError, _, length, _⟩
    by_contra unclean
    have short := @vprintfLoop_unclean _ _ _ (.start args) plain rendered unclean st' ran noError
    change st'.outPos < 0 + out.length at short
    omega
  · intro clean
    obtain ⟨st', ran, writes, used⟩ := synprotoVprintf_render bufSz clean rendered
    exact ⟨st', ran, writes.invalidToken_eq, used, writes.outPos_eq.trans (Nat.zero_add _),
      writes.stores_eq⟩

/-! ### A format in use and one that is not -/

/-- A string with its NUL. -/
def stringArg (s : String) : VaArg := .str (ascii s ++ [0])

theorem implements_iff_name :
    Implements .little 16 [.literal (chr 'n'), .int .two, .str] [.int 258, stringArg "pc"]
        [110, 1, 2, 112, 99] ↔
      Clean false [.literal (chr 'n'), .int .two, .str] :=
  implements_iff (by unfold LiteralsPlain; decide) (by decide) 16

/-- A digit behind a string is lost. -/
theorem implements_not_always :
    ¬∀ (directives : List Directive) (args : List VaArg) (out : List UInt8) (bufSz : Nat),
      LiteralsPlain directives → documented directives args = some out → out.length ≤ bufSz →
      Implements .little bufSz directives args out := by
  intro always
  obtain ⟨st', ran, _, _, length, _⟩ := always [.str, .literal (chr '2')] [stringArg "pc"]
    (ascii "pc2") 16 (by unfold LiteralsPlain; decide) (by decide) (by decide)
  have written : (synprotoVprintf .little 16 (formatText [.str, .literal (chr '2')])
      [stringArg "pc"]).map VprintfState.outPos = some 2 := by decide
  rw [ran, Option.map_some, length] at written
  exact absurd written (by decide)

end MinputHop
