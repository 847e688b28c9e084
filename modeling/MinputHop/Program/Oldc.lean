import MinputHop.Program.Arguments

/-!
# The fallback `vsnprintf` of `oldc.h`

The scanner that stands in for `vsnprintf` where the C library has none.  It
appends characters by index and strings with `strcat`, into a buffer that
`osio_printf` filled with zeros, and it reads its arguments one by one.

`itoa_buf` is left out: `_ultoa` and `_ltoa` write it before every use.
-/

namespace MinputHop.Oldc

open FlatMemory

/-! ## Arguments -/

/-- The types that `va_arg` is asked for. -/
inductive ArgType where
  | int
  | unsigned
  | long
  | unsignedLong
  | string
  deriving DecidableEq

/-- A variable argument with its type. -/
inductive Arg where
  | int (n : Int)
  | unsigned (n : Nat)
  | long (n : Int)
  | unsignedLong (n : Nat)
  | string (text : Text)

def Arg.type : Arg → ArgType
  | .int _ => .int
  | .unsigned _ => .unsigned
  | .long _ => .long
  | .unsignedLong _ => .unsignedLong
  | .string _ => .string

/-- Width of `long` in bits. -/
def longBits : Platform → Nat
  | .win16 | .win32 => 32
  | .unix => 64

/-- What `va_arg` finds in an argument when it is asked for a type.  Only the
signedness may differ; anything else is undefined behaviour. -/
def Arg.as? (platform : Platform) : ArgType → Arg → Option Arg
  | .int, .int n => some (.int n)
  | .int, .unsigned n => some (.int ((n : Int).bmod (2 ^ platform.intBits)))
  | .unsigned, .unsigned n => some (.unsigned n)
  | .unsigned, .int n => some (.unsigned (n % 2 ^ platform.intBits).toNat)
  | .long, .long n => some (.long n)
  | .long, .unsignedLong n => some (.long ((n : Int).bmod (2 ^ longBits platform)))
  | .unsignedLong, .unsignedLong n => some (.unsignedLong n)
  | .unsignedLong, .long n => some (.unsignedLong (n % 2 ^ longBits platform).toNat)
  | .string, .string text => some (.string text)
  | _, _ => none

/-- `_ultoa()`. -/
def ultoa (n radix : Nat) : List UInt8 := (Nat.toDigits radix n).map chr

/-- `_ltoa()` with radix 10. -/
def ltoa (n : Int) : List UInt8 := if n < 0 then chr '-' :: ultoa n.natAbs 10 else ultoa n.natAbs 10

/-- The string that is appended for an argument. -/
def Arg.text (radix : Nat) : Arg → List UInt8
  | .int n | .long n => ltoa n
  | .unsigned n | .unsignedLong n => ultoa n radix
  | .string text => text.bytes

/-- The `char` that an argument is assigned to. -/
def Arg.char : Arg → UInt8
  | .int n => UInt8.ofInt n
  | _ => 0

/-! ## `vsnprintf` -/

def osioPrintfBufferSz : Nat := 512

/-- The local variables of the scanner, the buffer, the arguments left, and for
each `va_arg` so far its type and how much of the format lay behind it. -/
structure State where
  iOut : Nat
  last : UInt8
  /-- `SPEC_FMT_LONG` in `spec_fmt`. -/
  specLong : Bool
  /-- `SPEC_FMT_UNSIGNED` in `spec_fmt`. -/
  specUnsigned : Bool
  buffer : Block UInt8
  args : List Arg
  reads : List (Nat × ArgType)

/-- `buffer[i_out++] = c`; `none` is a write outside of the buffer. -/
def putc (c : UInt8) (st : State) : Option State :=
  if st.iOut < st.buffer.size then
    some { st with
      iOut := st.iOut + 1
      buffer := ⟨st.buffer.size, Function.update st.buffer.cells st.iOut c⟩ }
  else none

/-- `i_out += strlen( s ); strcat( buffer, s )`. -/
def strcat (text : List UInt8) (st : State) : Option State :=
  let strlen := (cString (window st.buffer.cells 0 st.buffer.size)).length
  if strlen + text.length < st.buffer.size then
    some { st with
      iOut := st.iOut + text.length
      buffer := ⟨st.buffer.size, blit st.buffer.cells strlen (text ++ [0])⟩ }
  else none

def vaArg (platform : Platform) (type : ArgType) (left : Nat) (st : State) : Option (Arg × State) :=
  match st.args with
  | [] => none
  | arg :: args =>
      (arg.as? platform type).map fun value =>
        (value, { st with args := args, reads := st.reads ++ [(left, type)] })

/-- A conversion that appends the text of an argument. -/
def print (platform : Platform) (type : ArgType) (radix left : Nat) (st : State) : Option State :=
  (vaArg platform type left st).bind fun (value, st) => strcat (value.text radix) st

/-- The type of `%d` and `%u`, by the flags. -/
def numberType (st : State) : ArgType :=
  match st.specLong, st.specUnsigned with
  | false, false => .int
  | false, true => .unsigned
  | true, false => .long
  | true, true => .unsignedLong

/-- The `switch` for the character behind a `%`, with `left` characters of the
format behind it.  An `l` skips the reset of the last char; behind a literal % the reset is
lost. -/
def convert (platform : Platform) (c : UInt8) (left : Nat) (st : State) : Option State :=
  if c = chr 'l' then
    some { st with specLong := true }
  else if c = chr 's' then print platform .string 10 left { st with last := c }
  else if c = chr 'u' then
    let st := { st with specUnsigned := true, last := c }
    print platform (numberType st) 10 left st
  else if c = chr 'd' then print platform (numberType st) 10 left { st with last := c }
  else if c = chr 'x' then
    print platform (if st.specLong then .unsignedLong else .unsigned) 16 left { st with last := c }
  else if c = chr 'c' then
    (vaArg platform .int left { st with last := c }).bind fun (value, st) => putc value.char st
  else if c = chr '%' then
    putc c { st with last := c }
  else if isDigit c then some { st with last := chr '%' }
  else some { st with last := c }

def vsnprintfLoop (platform : Platform) : List UInt8 → State → Option State
  | [], st => some st
  | c :: rest, st =>
      if osioPrintfBufferSz ≤ st.iOut then some st
      else if st.last = chr '%' then
        (convert platform c rest.length st).bind (vsnprintfLoop platform rest)
      else if c ≠ chr '%' then
        (putc c { st with specLong := false, specUnsigned := false, last := c }).bind
          (vsnprintfLoop platform rest)
      else vsnprintfLoop platform rest { st with last := c }

/-- What `vsnprintf` starts from, with the buffer that `osio_printf` filled with
zeros. -/
def start (args : List Arg) : State :=
  { iOut := 0, last := 0, specLong := false, specUnsigned := false
    buffer := ⟨osioPrintfBufferSz + 1, fun _ => 0⟩, args := args, reads := [] }

/-- The call from `osio_printf`. -/
def vsnprintf (platform : Platform) (fmt : List UInt8) (args : List Arg) : Option State :=
  vsnprintfLoop platform fmt (start args)

/-! ## The language -/

inductive Conv where
  | d
  | u
  | x
  deriving DecidableEq

/-- A piece of a format. -/
inductive Directive where
  | literal (c : UInt8)
  | percent
  | string
  | char
  | number (long : Bool) (conv : Conv)
  deriving DecidableEq

def Conv.letter : Conv → UInt8
  | .d => chr 'd'
  | .u => chr 'u'
  | .x => chr 'x'

/-- What stands behind the `%`. -/
def Directive.spelling : Directive → List UInt8
  | .literal _ => []
  | .percent => [chr '%']
  | .string => [chr 's']
  | .char => [chr 'c']
  | .number false conv => [conv.letter]
  | .number true conv => [chr 'l', conv.letter]

def Directive.text : Directive → List UInt8
  | .literal c => [c]
  | directive => chr '%' :: directive.spelling

def formatText (directives : List Directive) : List UInt8 := directives.flatMap Directive.text

/-- The type of the argument that a directive takes. -/
def Directive.type? : Directive → Option ArgType
  | .literal _ | .percent => none
  | .string => some .string
  | .char | .number false .d => some .int
  | .number false _ => some .unsigned
  | .number true .d => some .long
  | .number true _ => some .unsignedLong

/-- What a directive makes of its argument. -/
def Directive.piece : Directive → Arg → List UInt8
  | .char, arg => [arg.char]
  | .number _ .x, arg => arg.text 16
  | _, arg => arg.text 10

/-- The standard rendering; `none` when the arguments do not match, or a
character is NUL. -/
def standard : List Directive → List Arg → Option (List UInt8)
  | [], [] => some []
  | [], _ :: _ => none
  | .literal c :: rest, args => (standard rest args).map (c :: ·)
  | .percent :: rest, args => (standard rest args).map (chr '%' :: ·)
  | _ :: _, [] => none
  | directive :: rest, arg :: args =>
      if directive.type? = some arg.type ∧ (directive = .char → arg.char ≠ 0) then
        (standard rest args).map (directive.piece arg ++ ·)
      else none

/-- Every conversion reads an argument of its type, behind which the rest of the
format lies. -/
def properReads : List Directive → List (Nat × ArgType)
  | [] => []
  | directive :: rest =>
      (directive.type?.map fun type => ((formatText rest).length, type)).toList ++ properReads rest

/-- What the scanner is for: it reads every argument, each in its own conversion
and as the type of it, and leaves the rendering in the buffer. -/
def Renders (platform : Platform) (directives : List Directive) (args : List Arg)
    (out : List UInt8) : Prop :=
  ∃ st, vsnprintf platform (formatText directives) args = some st ∧ st.args = [] ∧
    st.reads = properReads directives ∧
    cString (window st.buffer.cells 0 st.buffer.size) = out

/-- `%%` comes last; and since the last literal, `%d` has not come behind an
unsigned number, nor a number without `l` behind a number with it. -/
def Sound (specLong specUnsigned : Bool) : List Directive → Prop
  | [] => True
  | .literal _ :: rest => Sound false false rest
  | .percent :: rest => rest = []
  | .string :: rest | .char :: rest => Sound specLong specUnsigned rest
  | .number long conv :: rest =>
      (specLong = true → long = true) ∧ (specUnsigned = true → conv ≠ .d) ∧
        Sound (specLong || long) (specUnsigned || conv = .u) rest

/-- Literals are neither `%` nor the end of the format. -/
def Plain (directives : List Directive) : Prop :=
  ∀ directive ∈ directives, directive ≠ .literal (chr '%') ∧ directive ≠ .literal 0
  deriving Decidable

/-! ## The buffer -/

/-- The buffer holds this text and zeros behind it. -/
structure Written (out : List UInt8) (buffer : Block UInt8) (iOut : Nat) : Prop where
  size_eq : buffer.size = osioPrintfBufferSz + 1
  cells_eq : buffer.cells = blit (fun _ => 0) 0 out
  noNul : (0 : UInt8) ∉ out
  short : out.length < osioPrintfBufferSz + 1
  iOut_eq : iOut = out.length

theorem window_zeros (off length : Nat) :
    window (fun _ => (0 : UInt8)) off length = List.replicate length 0 := by
  induction length generalizing off with
  | zero => rfl
  | succ length ih => rw [window_succ, ih, List.replicate_succ]

section Buffer

variable {platform : Platform} {out text : List UInt8} {buffer : Block UInt8} {iOut : Nat}

/-- The string in the buffer is the text. -/
theorem Written.string_eq (written : Written out buffer iOut) :
    cString (window buffer.cells 0 buffer.size) = out := by
  obtain ⟨pad, padded⟩ : ∃ pad, buffer.size = out.length + (pad + 1) :=
    ⟨buffer.size - out.length - 1, by have := written.size_eq; have := written.short; omega⟩
  have behind : window (blit (fun _ => 0) 0 out) (0 + out.length) (pad + 1) =
      List.replicate (pad + 1) (0 : UInt8) := by
    rw [← window_zeros (0 + out.length)]
    exact window_congr fun i _ => blit_after _ (Nat.le_add_right _ _)
  rw [padded, window_add, written.cells_eq, window_blit, behind, List.replicate_succ]
  exact cString_append_nul written.noNul _

/-- Appending by index and appending at the NUL are the same. -/
theorem Written.append (written : Written out buffer iOut) (noNul : (0 : UInt8) ∉ text)
    (short : out.length + text.length < osioPrintfBufferSz + 1) {cells : Nat → UInt8}
    (cells_eq : cells = blit buffer.cells out.length text) :
    Written (out ++ text) ⟨buffer.size, cells⟩ (iOut + text.length) where
  size_eq := written.size_eq
  cells_eq := by
    change cells = _
    rw [cells_eq, written.cells_eq, ← blit_blit, Nat.zero_add]
  noNul := fun member => (List.mem_append.mp member).elim written.noNul noNul
  short := by rwa [List.length_append]
  iOut_eq := by rw [List.length_append, written.iOut_eq]

/-- The NUL that `strcat` writes is there already. -/
theorem Written.blit_nul (written : Written out buffer iOut) :
    blit buffer.cells out.length (text ++ [0]) = blit buffer.cells out.length text := by
  have same : blit (fun _ => (0 : UInt8)) 0 ((out ++ text) ++ [0]) =
      blit (fun _ => 0) 0 (out ++ text) := by
    rw [← update_blit, Nat.zero_add]
    refine Function.update_eq_self_iff.mpr ?_
    rw [blit_after _ (Nat.le_of_eq (Nat.zero_add _))]
  rw [List.append_assoc, ← blit_blit _ 0 out (text ++ [0]), ← blit_blit _ 0 out text, Nat.zero_add]
    at same
  rw [written.cells_eq, same]

/-- A character goes behind the text. -/
theorem putc_written {st : State} (written : Written out st.buffer st.iOut) {c : UInt8}
    (notNul : c ≠ 0) (short : out.length < osioPrintfBufferSz) :
    ∃ buffer, putc c st = some { st with iOut := st.iOut + 1, buffer := buffer } ∧
      Written (out ++ [c]) buffer (st.iOut + 1) := by
  have inside : st.iOut < st.buffer.size := by
    rw [written.iOut_eq, written.size_eq]
    omega
  refine ⟨_, by rw [putc, if_pos inside], ?_⟩
  have stored := update_blit st.buffer.cells st.iOut [] c
  rw [blit_nil, List.length_nil, Nat.add_zero, List.nil_append] at stored
  have noNul : (0 : UInt8) ∉ [c] := fun member => notNul (List.mem_singleton.mp member).symm
  refine written.append noNul (Nat.add_lt_add_right short 1) ?_
  rw [stored, written.iOut_eq]

/-- A string goes behind the text, if there is room for it. -/
theorem strcat_written {st : State} (written : Written out st.buffer st.iOut)
    (noNul : (0 : UInt8) ∉ text) :
    (osioPrintfBufferSz < out.length + text.length ∧ strcat text st = none) ∨
    ∃ buffer, strcat text st = some { st with iOut := st.iOut + text.length, buffer := buffer } ∧
      Written (out ++ text) buffer (st.iOut + text.length) := by
  by_cases room : out.length + text.length < osioPrintfBufferSz + 1
  · have inside := room
    rw [← written.size_eq] at inside
    refine .inr ⟨⟨st.buffer.size, blit st.buffer.cells out.length (text ++ [0])⟩, ?_, ?_⟩
    · rw [strcat, written.string_eq]
      exact if_pos inside
    · exact written.append noNul room written.blit_nul
  · refine .inl ⟨Nat.lt_of_succ_le (Nat.le_of_not_lt room), ?_⟩
    rw [strcat, written.string_eq, written.size_eq]
    exact if_neg room

end Buffer

theorem chr_digitChar_ne (digit : Nat) : chr (Nat.digitChar digit) ≠ 0 := by
  unfold Nat.digitChar
  iterate 16 refine iteInduction (motive := fun c => chr c ≠ 0) (fun _ => by decide) fun _ => ?_
  decide

theorem toDigitsCore_noNul (radix fuel n : Nat) {digits : List Char}
    (noNul : ∀ c ∈ digits, chr c ≠ 0) : ∀ c ∈ Nat.toDigitsCore radix fuel n digits, chr c ≠ 0 := by
  induction fuel generalizing n digits with
  | zero => exact noNul
  | succ fuel ih =>
      have more : ∀ c ∈ Nat.digitChar (n % radix) :: digits, chr c ≠ 0 := by
        intro c member
        rcases List.mem_cons.mp member with rfl | member
        · exact chr_digitChar_ne _
        · exact noNul c member
      rw [Nat.toDigitsCore]
      split
      · exact more
      · exact ih _ more

theorem ultoa_noNul (n radix : Nat) : (0 : UInt8) ∉ ultoa n radix := by
  intro member
  obtain ⟨c, digit, zero⟩ := List.mem_map.mp member
  exact @toDigitsCore_noNul radix _ n [] nofun c digit zero

theorem Arg.text_noNul (radix : Nat) (arg : Arg) : (0 : UInt8) ∉ arg.text radix := by
  have signed : ∀ n : Int, (0 : UInt8) ∉ ltoa n := by
    intro n
    rw [ltoa]
    split
    · refine fun member => (List.mem_cons.mp member).elim (by decide) (ultoa_noNul _ _)
    · exact ultoa_noNul _ _
  cases arg with
  | int n | long n => exact signed n
  | unsigned n | unsignedLong n => exact ultoa_noNul n radix
  | string text => exact text.noNul

end MinputHop.Oldc
