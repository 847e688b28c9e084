import MinputHop.Program.Oldc

/-!
# Where the fallback `vsnprintf` writes

The scanner once more, with `itoa_buf` and with the two ways to fail apart: an
argument that is not there, and a write outside of an array.  The size of the
output is looked at only before a conversion, and the `memset` behind a literal
has the size of the other array.
-/

namespace MinputHop.Oldc

open FlatMemory

/-! ## Both arrays -/

def osioNumBufferSz : Nat := 50

inductive Fault where
  /-- An argument is missing or has another type. -/
  | undefined
  /-- A write outside of an array. -/
  | overrun

/-- The variables of the scanner with `itoa_buf`. -/
structure Memory extends State where
  itoaBuf : Block UInt8

namespace Memory

/-- What is done without `itoa_buf`. -/
def lift (fault : Fault) (m : Memory) : Option State → Except Fault Memory
  | none => .error fault
  | some st => .ok { m with toState := st }

def putc (c : UInt8) (m : Memory) : Except Fault Memory := m.lift .overrun (Oldc.putc c m.toState)

def strcat (text : List UInt8) (m : Memory) : Except Fault Memory :=
  m.lift .overrun (Oldc.strcat text m.toState)

def vaArg (platform : Platform) (type : ArgType) (left : Nat) (m : Memory) :
    Except Fault (Arg × Memory) :=
  match Oldc.vaArg platform type left m.toState with
  | none => .error .undefined
  | some (value, st) => .ok (value, { m with toState := st })

/-- Bytes go to the start of `itoa_buf`. -/
def storeItoa (bytes : List UInt8) (m : Memory) : Except Fault Memory :=
  if bytes.length ≤ m.itoaBuf.size then
    .ok { m with itoaBuf := ⟨m.itoaBuf.size, blit m.itoaBuf.cells 0 bytes⟩ }
  else .error .overrun

/-- `memset( itoa_buf, '\0', n )` -/
def memsetItoa (n : Nat) (m : Memory) : Except Fault Memory := m.storeItoa (List.replicate n 0)

/-- The string in `itoa_buf`. -/
def itoaString (m : Memory) : List UInt8 := cString (window m.itoaBuf.cells 0 m.itoaBuf.size)

def printString (platform : Platform) (left : Nat) (m : Memory) : Except Fault Memory :=
  (m.vaArg platform .string left).bind fun (value, m) => m.strcat (value.text 10)

/-- A number is spelled in `itoa_buf`, and appended from there. -/
def printNumber (platform : Platform) (type : ArgType) (radix left : Nat) (m : Memory) :
    Except Fault Memory :=
  (m.vaArg platform type left).bind fun (value, m) =>
    (m.storeItoa (value.text radix ++ [0])).bind fun m => m.strcat m.itoaString

/-- The `switch` for the character behind a `%`, with `left` characters of the
format behind it.  An `l` skips the reset of the last char; behind a literal % the reset is
lost. -/
def convert (platform : Platform) (c : UInt8) (left : Nat) (m : Memory) : Except Fault Memory :=
  if c = chr 'l' then
    .ok { m with specLong := true }
  else if c = chr 's' then printString platform left { m with last := c }
  else if c = chr 'u' then
    let m := { m with specUnsigned := true, last := c }
    printNumber platform (numberType m.toState) 10 left m
  else if c = chr 'd' then
    printNumber platform (numberType m.toState) 10 left { m with last := c }
  else if c = chr 'x' then
    printNumber platform (if m.specLong then .unsignedLong else .unsigned) 16 left { m with last := c }
  else if c = chr 'c' then
    (vaArg platform .int left { m with last := c }).bind fun (value, m) => m.putc value.char
  else if c = chr '%' then
    putc c { m with last := c }
  else if isDigit c then .ok { m with last := chr '%' }
  else .ok { m with last := c }

/-- Each literal clears `itoa_buf`, over the length of the buffer. -/
def loop (platform : Platform) : List UInt8 → Memory → Except Fault Memory
  | [], m => .ok m
  | c :: rest, m =>
      if osioPrintfBufferSz ≤ m.iOut then .ok m
      else if m.last = chr '%' then (m.convert platform c rest.length).bind (loop platform rest)
      else if c ≠ chr '%' then
        (putc c { m with specLong := false, specUnsigned := false, last := c }).bind fun m =>
          (m.memsetItoa (osioPrintfBufferSz + 1)).bind (loop platform rest)
      else loop platform rest { m with last := c }

/-- The variables with what the stack held at `itoa_buf`. -/
def start (stack : Nat → UInt8) (args : List Arg) : Memory :=
  { Oldc.start args with itoaBuf := ⟨osioNumBufferSz + 1, stack⟩ }

/-- The call from `osio_printf`. -/
def vsnprintf (platform : Platform) (stack : Nat → UInt8) (fmt : List UInt8) (args : List Arg) :
    Except Fault Memory :=
  ((start stack args).memsetItoa (osioNumBufferSz + 1)).bind (loop platform fmt)

end Memory

/-- No write is outside of its array, and the buffer that is left has a NUL. -/
def InBounds (result : Except Fault Memory) : Prop :=
  result ≠ .error .overrun ∧
    ∀ m, result = .ok m → (0 : UInt8) ∈ window m.buffer.cells 0 m.buffer.size

/-! ## What a format asks for -/

/-- A piece of output. -/
inductive Item where
  | literal
  | char (c : UInt8)
  | number (digits : List UInt8)
  | string (text : List UInt8)

/-- What the scanner remembers of the format, and the arguments left. -/
structure Reader where
  last : UInt8
  specLong : Bool
  specUnsigned : Bool
  args : List Arg

def State.reader (st : State) : Reader := ⟨st.last, st.specLong, st.specUnsigned, st.args⟩

namespace Reader

def take (platform : Platform) (type : ArgType) (r : Reader) : Option (Arg × Reader) :=
  match r.args with
  | [] => none
  | arg :: args => (arg.as? platform type).map fun value => (value, { r with args := args })

/-- The type of `%d` and `%u`, by the flags. -/
def numberType (r : Reader) : ArgType :=
  match r.specLong, r.specUnsigned with
  | false, false => .int
  | false, true => .unsigned
  | true, false => .long
  | true, true => .unsignedLong

/-- The item that a conversion asks for; `none` where its argument is not there. -/
def convert (platform : Platform) (c : UInt8) (r : Reader) : Option (Option Item × Reader) :=
  if c = chr 'l' then some (none, { r with specLong := true })
  else if c = chr 's' then
    (take platform .string { r with last := c }).map fun (value, r) =>
      (some (.string (value.text 10)), r)
  else if c = chr 'u' then
    let r := { r with specUnsigned := true, last := c }
    (take platform r.numberType r).map fun (value, r) => (some (.number (value.text 10)), r)
  else if c = chr 'd' then
    (take platform r.numberType { r with last := c }).map fun (value, r) =>
      (some (.number (value.text 10)), r)
  else if c = chr 'x' then
    (take platform (if r.specLong then .unsignedLong else .unsigned) { r with last := c }).map
      fun (value, r) => (some (.number (value.text 16)), r)
  else if c = chr 'c' then
    (take platform .int { r with last := c }).map fun (value, r) => (some (.char value.char), r)
  else if c = chr '%' then some (some (.char c), { r with last := c })
  else if isDigit c then some (none, { r with last := chr '%' })
  else some (none, { r with last := c })

/-- The items of a format, up to a conversion without its argument. -/
def items (platform : Platform) : List UInt8 → Reader → List Item
  | [], _ => []
  | c :: rest, r =>
      if r.last = chr '%' then
        match r.convert platform c with
        | none => []
        | some (item, r) => item.toList ++ items platform rest r
      else if c ≠ chr '%' then
        .literal :: items platform rest { r with specLong := false, specUnsigned := false, last := c }
      else items platform rest { r with last := c }

end Reader

/-- The items that a call asks for. -/
def itemsOf (platform : Platform) (fmt : List UInt8) (args : List Arg) : List Item :=
  Reader.items platform fmt ⟨0, false, false, args⟩

/-- How far the buffer is filled: the length of the string in it, and how far
`i_out` is ahead of that, once a NUL was put out. -/
structure Filled where
  strlen : Nat
  ahead : Nat

/-- How far it is filled behind an item; `none` where the item does not fit. -/
def Item.fill : Item → Filled → Option Filled
  | .literal, _ => none
  | .char c, ⟨strlen, ahead⟩ =>
      if c ≠ 0 ∧ ahead = 0 then some ⟨strlen + 1, 0⟩ else some ⟨strlen, ahead + 1⟩
  | .number digits, ⟨strlen, ahead⟩ =>
      if digits.length ≤ osioNumBufferSz ∧ strlen + digits.length ≤ osioPrintfBufferSz then
        some ⟨strlen + digits.length, ahead⟩
      else none
  | .string text, ⟨strlen, ahead⟩ =>
      if strlen + text.length ≤ osioPrintfBufferSz then some ⟨strlen + text.length, ahead⟩ else none

/-- Every item fits that comes before the buffer counts as full. -/
def Fits : Filled → List Item → Prop
  | _, [] => True
  | filled, item :: rest =>
      osioPrintfBufferSz ≤ filled.strlen + filled.ahead ∨
        ∃ filled', item.fill filled = some filled' ∧ Fits filled' rest

/-! ## Steps and conversions -/

theorem cString_window {cells : Nat → UInt8} {size length : Nat}
    (string : ∀ i < length, cells i ≠ 0) (nul : cells length = 0) (inside : length < size) :
    cString (window cells 0 size) = window cells 0 length := by
  have noNul : (0 : UInt8) ∉ window cells 0 length := by
    intro member
    obtain ⟨i, found⟩ := List.mem_iff_getElem?.mp member
    by_cases before : i < length
    · rw [getElem?_window _ _ before, Nat.zero_add] at found
      exact string i before (Option.some.inj found)
    · rw [List.getElem?_eq_none (by rw [length_window]; omega)] at found
      cases found
  obtain ⟨rest, rfl⟩ : ∃ rest, size = length + (rest + 1) := ⟨size - length - 1, by omega⟩
  rw [window_add, Nat.zero_add, window_succ, nul]
  exact cString_append_nul noNul _

/-- A number that fits in `itoa_buf` is read back from there. -/
theorem storeItoa_cases (m : Memory) {text : List UInt8} (noNul : (0 : UInt8) ∉ text) :
    (text.length < m.itoaBuf.size ∧ ∃ m', m.storeItoa (text ++ [0]) = .ok m' ∧ m'.itoaString = text ∧
      m'.toState = m.toState ∧ m'.itoaBuf.size = m.itoaBuf.size) ∨
      (¬text.length < m.itoaBuf.size ∧ m.storeItoa (text ++ [0]) = .error .overrun) := by
  have length : (text ++ [0]).length = text.length + 1 := by
    rw [List.length_append, List.length_singleton]
  rw [Memory.storeItoa, length]
  by_cases fits : text.length < m.itoaBuf.size
  · rw [if_pos (Nat.succ_le_of_lt fits)]
    refine .inl ⟨fits, _, rfl, ?_, rfl, rfl⟩
    obtain ⟨rest, size⟩ := Nat.exists_eq_add_of_le (Nat.succ_le_of_lt fits)
    rw [Nat.succ_eq_add_one, ← length] at size
    rw [Memory.itoaString]
    dsimp only
    rw [size, window_add, window_blit, List.append_assoc]
    exact cString_append_nul noNul _
  · rw [if_neg fun enough => fits (Nat.lt_of_succ_le enough)]
    exact .inr ⟨fits, rfl⟩

/-- The buffer is filled that far. -/
structure Laid (filled : Filled) (m : Memory) : Prop where
  size_eq : m.buffer.size = osioPrintfBufferSz + 1
  iOut_eq : m.iOut = filled.strlen + filled.ahead
  string : ∀ i < filled.strlen, m.buffer.cells i ≠ 0
  nul : m.buffer.cells filled.strlen = 0
  /-- Before a NUL is put out, nothing is written behind the string. -/
  fresh : filled.ahead = 0 → ∀ i, filled.strlen ≤ i → m.buffer.cells i = 0
  within : filled.strlen ≤ osioPrintfBufferSz
  itoa_eq : m.itoaBuf.size = osioNumBufferSz + 1

/-- An item was put out and left the format read so far, or it did not fit. -/
inductive Performs (filled : Option Filled) (r : Reader) : Except Fault Memory → Prop where
  | done {filled' : Filled} {m : Memory} (fits : filled = some filled') (laid : Laid filled' m)
      (read : m.reader = r) : Performs filled r (.ok m)
  | overran (full : filled = none) : Performs filled r (.error .overrun)

namespace Laid

variable {platform : Platform} {filled : Filled} {m : Memory} {text : List UInt8}

theorem strlen_eq (laid : Laid filled m) :
    (cString (window m.buffer.cells 0 m.buffer.size)).length = filled.strlen := by
  have inside : filled.strlen < m.buffer.size := by
    rw [laid.size_eq]
    exact Nat.lt_succ_of_le laid.within
  rw [cString_window laid.string laid.nul inside, length_window]

/-- What is filled so far is in bounds. -/
theorem inBounds (laid : Laid filled m) : InBounds (.ok m) := by
  refine ⟨nofun, fun m' same => ?_⟩
  obtain rfl := Except.ok.inj same
  have inside : filled.strlen < m.buffer.size := by
    rw [laid.size_eq]
    exact Nat.lt_succ_of_le laid.within
  refine List.mem_iff_getElem?.mpr ⟨filled.strlen, ?_⟩
  rw [getElem?_window _ _ inside, Nat.zero_add, laid.nul]

theorem putc (laid : Laid filled m) (room : m.iOut < osioPrintfBufferSz) (c : UInt8) :
    Performs ((Item.char c).fill filled) m.reader (m.putc c) := by
  obtain ⟨strlen, ahead⟩ := filled
  have iOut_eq := laid.iOut_eq
  have inside : m.iOut < m.buffer.size := by
    rw [laid.size_eq]
    exact Nat.lt_succ_of_lt room
  dsimp only at iOut_eq
  rw [Memory.putc, Oldc.putc, if_pos inside, Item.fill]
  by_cases next : c ≠ 0 ∧ ahead = 0
  · rw [if_pos next]
    obtain ⟨notNul, rfl⟩ := next
    refine .done rfl ⟨laid.size_eq, ?_, fun i before => ?_, ?_, fun _ i behind => ?_, ?_,
      laid.itoa_eq⟩ rfl
    · exact congrArg (· + 1) iOut_eq
    · by_cases last : i = m.iOut
      · rw [last]
        exact (Function.update_self _ _ _).trans_ne notNul
      · exact (Function.update_of_ne last _ _).trans_ne (laid.string i (by dsimp only at before ⊢; omega))
    · exact (Function.update_of_ne (by dsimp only; omega) _ _).trans
        (laid.fresh rfl _ (Nat.le_succ _))
    · exact (Function.update_of_ne (by dsimp only at behind; omega) _ _).trans
        (laid.fresh rfl _ (by dsimp only at behind ⊢; omega))
    · dsimp only
      omega
  · rw [if_neg next]
    refine .done rfl ⟨laid.size_eq, ?_, fun i before => ?_, ?_,
      fun none => absurd none (Nat.succ_ne_zero _), laid.within, laid.itoa_eq⟩ rfl
    · exact congrArg (· + 1) iOut_eq
    · exact (Function.update_of_ne (by dsimp only at before; omega) _ _).trans_ne (laid.string i before)
    · by_cases here : strlen = m.iOut
      · have zero : c = 0 := by
          by_contra notNul
          exact next ⟨notNul, by omega⟩
        change Function.update m.buffer.cells m.iOut c strlen = 0
        rw [here, Function.update_self, zero]
      · exact (Function.update_of_ne here _ _).trans laid.nul

theorem strcat (laid : Laid filled m) (noNul : (0 : UInt8) ∉ text) :
    Performs ((Item.string text).fill filled) m.reader (m.strcat text) := by
  obtain ⟨strlen, ahead⟩ := filled
  have length := laid.strlen_eq
  have size := laid.size_eq
  have iOut_eq := laid.iOut_eq
  dsimp only at length iOut_eq
  rw [Memory.strcat, Oldc.strcat, length, size, Item.fill]
  by_cases room : strlen + text.length ≤ osioPrintfBufferSz
  · rw [if_pos (Nat.lt_succ_of_le room), if_pos room]
    have last : blit m.buffer.cells strlen (text ++ [0]) (strlen + text.length) = 0 := by
      rw [← update_blit, Function.update_self]
    have other : ∀ i, i ≠ strlen + text.length →
        blit m.buffer.cells strlen (text ++ [0]) i = blit m.buffer.cells strlen text i := by
      intro i apart
      rw [← update_blit, Function.update_of_ne apart]
    refine .done rfl ⟨rfl, ?_, fun i before => ?_, last, fun none i behind => ?_, room,
      laid.itoa_eq⟩ rfl
    · dsimp only
      omega
    · dsimp only at before ⊢
      rw [other i (by omega)]
      by_cases old : i < strlen
      · rw [blit_before _ _ old]
        exact laid.string i old
      · obtain ⟨k, rfl⟩ := Nat.exists_eq_add_of_le (Nat.le_of_not_lt old)
        have new : k < text.length := by omega
        rw [blit_inside _ new]
        exact fun zero => noNul (zero ▸ List.getElem_mem new)
    · dsimp only at behind ⊢
      by_cases here : i = strlen + text.length
      · rw [here, last]
      · rw [other i here, blit_after _ behind]
        exact laid.fresh none i (by dsimp only; omega)
  · rw [if_neg (fun below => room (Nat.le_of_lt_succ below)), if_neg room]
    exact .overran rfl

/-- The variables that say how far the buffer is filled are the same. -/
theorem congr (laid : Laid filled m) {m' : Memory} (buffer_eq : m'.buffer = m.buffer)
    (iOut_eq : m'.iOut = m.iOut) (itoa_eq : m'.itoaBuf.size = m.itoaBuf.size) : Laid filled m' where
  size_eq := buffer_eq ▸ laid.size_eq
  iOut_eq := iOut_eq.trans laid.iOut_eq
  string := buffer_eq ▸ laid.string
  nul := buffer_eq ▸ laid.nul
  fresh := buffer_eq ▸ laid.fresh
  within := laid.within
  itoa_eq := itoa_eq.trans laid.itoa_eq

/-- A number goes through `itoa_buf`. -/
theorem number (laid : Laid filled m) (noNul : (0 : UInt8) ∉ text) :
    Performs ((Item.number text).fill filled) m.reader
      ((m.storeItoa (text ++ [0])).bind fun m => m.strcat m.itoaString) := by
  obtain ⟨strlen, ahead⟩ := filled
  rw [Item.fill]
  rcases storeItoa_cases m noNul with ⟨stored, m', called, spelling, same, size⟩ | ⟨long, called⟩
  · rw [laid.itoa_eq] at stored
    have laid' : Laid ⟨strlen, ahead⟩ m' :=
      laid.congr (congrArg State.buffer same) (congrArg State.iOut same) size
    have appended := laid'.strcat noNul
    rw [called, Except.bind, spelling, ← same]
    rw [Item.fill] at appended
    by_cases room : strlen + text.length ≤ osioPrintfBufferSz
    · rw [if_pos room] at appended
      rw [if_pos ⟨Nat.le_of_lt_succ stored, room⟩]
      exact appended
    · rw [if_neg room] at appended
      rw [if_neg fun both => room both.2]
      exact appended
  · rw [laid.itoa_eq] at long
    rw [called, Except.bind, if_neg fun both => long (Nat.lt_succ_of_le both.1)]
    exact .overran rfl

end Laid

/-- A conversion does what the format asks for. -/
inductive Converts (filled : Filled) :
    Option (Option Item × Reader) → Except Fault Memory → Prop where
  | undefined : Converts filled none (.error .undefined)
  | skipped {m : Memory} (laid : Laid filled m) : Converts filled (some (none, m.reader)) (.ok m)
  | performed {item : Item} {r : Reader} {result : Except Fault Memory}
      (performs : Performs (item.fill filled) r result) :
      Converts filled (some (some item, r)) result

section Convert

variable {platform : Platform} {filled : Filled} {m : Memory}

/-- `va_arg` finds in the memory what it finds in the arguments, and changes nothing else. -/
theorem vaArg_take (platform : Platform) (type : ArgType) (left : Nat) (m : Memory) :
    (m.reader.take platform type = none ∧ m.vaArg platform type left = .error .undefined) ∨
      ∃ value m', m.reader.take platform type = some (value, m'.reader) ∧
        m.vaArg platform type left = .ok (value, m') ∧ m'.buffer = m.buffer ∧ m'.iOut = m.iOut ∧
        m'.itoaBuf = m.itoaBuf := by
  rw [Memory.vaArg, Oldc.vaArg, Reader.take, State.reader]
  cases m.args with
  | nil => exact .inl ⟨rfl, rfl⟩
  | cons arg args =>
      dsimp only
      cases arg.as? platform type with
      | none => exact .inl ⟨rfl, rfl⟩
      | some value => exact .inr ⟨value, _, rfl, rfl, rfl, rfl, rfl⟩

/-- A conversion with an argument, by what is done with its value. -/
theorem Laid.converts (laid : Laid filled m) (type : ArgType) (left : Nat)
    {item : Arg → Item} {act : Arg → Memory → Except Fault Memory}
    (performs : ∀ value m', Laid filled m' → m'.iOut = m.iOut →
      Performs ((item value).fill filled) m'.reader (act value m')) :
    Converts filled
      ((m.reader.take platform type).map fun (value, r) => (some (item value), r))
      ((m.vaArg platform type left).bind fun (value, m) => act value m) := by
  rcases vaArg_take platform type left m with ⟨none, failed⟩ |
    ⟨value, m', taken, read, buffer_eq, iOut_eq, itoa_eq⟩
  · rw [none, failed]
    exact .undefined
  · rw [taken, read]
    have laid' := laid.congr buffer_eq iOut_eq (congrArg Block.size itoa_eq)
    exact .performed (performs value m' laid' iOut_eq)

theorem Laid.printString (laid : Laid filled m) (left : Nat) :
    Converts filled
      ((m.reader.take platform .string).map fun (value, r) => (some (.string (value.text 10)), r))
      (m.printString platform left) :=
  laid.converts .string left fun value _ laid' _ => laid'.strcat (value.text_noNul 10)

theorem Laid.printNumber (laid : Laid filled m) (type : ArgType) (radix left : Nat) :
    Converts filled
      ((m.reader.take platform type).map fun (value, r) => (some (.number (value.text radix)), r))
      (m.printNumber platform type radix left) :=
  laid.converts type left fun value _ laid' _ => laid'.number (value.text_noNul radix)

theorem Laid.convert (laid : Laid filled m) (room : m.iOut < osioPrintfBufferSz) (c : UInt8)
    (left : Nat) :
    Converts filled (m.reader.convert platform c) (m.convert platform c left) := by
  have marked : ∀ last, Laid filled { m with last := last } := fun _ => laid.congr rfl rfl rfl
  rw [Reader.convert, Memory.convert]
  by_cases l : c = chr 'l'
  · rw [if_pos l, if_pos l]
    exact .skipped (m := { m with specLong := true }) (laid.congr rfl rfl rfl)
  rw [if_neg l, if_neg l]
  by_cases s : c = chr 's'
  · rw [if_pos s, if_pos s]
    exact (marked c).printString left
  rw [if_neg s, if_neg s]
  by_cases u : c = chr 'u'
  · rw [if_pos u, if_pos u]
    exact Laid.printNumber (m := { m with specUnsigned := true, last := c }) (laid.congr rfl rfl rfl) _ 10 left
  rw [if_neg u, if_neg u]
  by_cases d : c = chr 'd'
  · rw [if_pos d, if_pos d]
    exact (marked c).printNumber _ 10 left
  rw [if_neg d, if_neg d]
  by_cases x : c = chr 'x'
  · rw [if_pos x, if_pos x]
    exact (marked c).printNumber _ 16 left
  rw [if_neg x, if_neg x]
  by_cases char : c = chr 'c'
  · rw [if_pos char, if_pos char]
    exact (marked c).converts .int left fun value m' laid' iOut_eq =>
      laid'.putc (iOut_eq ▸ room) value.char
  rw [if_neg char, if_neg char]
  by_cases percent : c = chr '%'
  · rw [if_pos percent, if_pos percent]
    exact .performed ((marked c).putc room c)
  rw [if_neg percent, if_neg percent]
  by_cases digit : isDigit c = true
  · rw [if_pos digit, if_pos digit]
    exact .skipped (marked (chr '%'))
  · rw [if_neg digit, if_neg digit]
    exact .skipped (marked c)

end Convert

/-! ## Whole formats -/

theorem fits_of_full {filled : Filled} (full : osioPrintfBufferSz ≤ filled.strlen + filled.ahead)
    (items : List Item) : Fits filled items := by
  cases items with
  | nil => trivial
  | cons item rest => exact .inl full

theorem fits_cons {filled : Filled} (room : ¬osioPrintfBufferSz ≤ filled.strlen + filled.ahead)
    (item : Item) (rest : List Item) :
    Fits filled (item :: rest) ↔ ∃ filled', item.fill filled = some filled' ∧ Fits filled' rest := by
  rw [Fits, or_iff_right room]

theorem inBounds_undefined : InBounds (.error .undefined) := ⟨nofun, nofun⟩

theorem not_inBounds_overrun : ¬InBounds (.error .overrun) := fun inBounds => inBounds.1 rfl

theorem memsetItoa_overrun {m : Memory} {n : Nat} (large : m.itoaBuf.size < n) :
    m.memsetItoa n = .error .overrun := by
  rw [Memory.memsetItoa, Memory.storeItoa, if_neg]
  rw [List.length_replicate]
  exact Nat.not_le_of_lt large

/-- From a buffer that is filled so far, the rest stays in bounds exactly if its
items fit. -/
theorem Laid.inBounds_loop {platform : Platform} {filled : Filled} {m : Memory} (laid : Laid filled m)
    (fmt : List UInt8) :
    InBounds (Memory.loop platform fmt m) ↔ Fits filled (Reader.items platform fmt m.reader) := by
  induction fmt generalizing filled m with
  | nil => exact iff_of_true laid.inBounds trivial
  | cons c rest ih =>
      have iOut_eq := laid.iOut_eq
      rw [Memory.loop]
      by_cases full : osioPrintfBufferSz ≤ m.iOut
      · rw [if_pos full]
        exact iff_of_true laid.inBounds (fits_of_full (iOut_eq ▸ full) _)
      have room : ¬osioPrintfBufferSz ≤ filled.strlen + filled.ahead := iOut_eq ▸ full
      rw [if_neg full, Reader.items]
      change InBounds (if m.last = chr '%' then _ else _) ↔
        Fits filled (if m.last = chr '%' then _ else _)
      by_cases conversion : m.last = chr '%'
      · rw [if_pos conversion, if_pos conversion]
        have converts : Converts filled (m.reader.convert platform c) (m.convert platform c rest.length) :=
          laid.convert (Nat.lt_of_not_le full) c rest.length
        generalize m.reader.convert platform c = asked at converts
        generalize m.convert platform c rest.length = result at converts
        cases converts with
        | undefined => exact iff_of_true inBounds_undefined trivial
        | skipped laid' => exact ih laid'
        | @performed item r _ performs =>
            change _ ↔ Fits filled (item :: Reader.items platform rest r)
            rw [fits_cons room]
            cases performs with
            | @done filled' m' fits laid' read =>
                subst read
                rw [fits]
                refine (ih laid').trans ⟨fun later => ⟨filled', rfl, later⟩, ?_⟩
                rintro ⟨_, same, later⟩
                exact Option.some.inj same ▸ later
            | overran full =>
                rw [full]
                exact iff_of_false not_inBounds_overrun fun ⟨_, same, _⟩ => nomatch same
      rw [if_neg conversion, if_neg conversion]
      by_cases literal : c ≠ chr '%'
      · rw [if_pos literal, if_pos literal, fits_cons room]
        refine iff_of_false ?_ fun ⟨_, same, _⟩ => nomatch same
        have marked : Laid filled { m with specLong := false, specUnsigned := false, last := c } :=
          laid.congr rfl rfl rfl
        have performs := marked.putc (Nat.lt_of_not_le full) c
        generalize Memory.putc c _ = result at performs ⊢
        cases performs with
        | overran => exact not_inBounds_overrun
        | @done filled' m' _ laid' _ =>
            have large : m'.itoaBuf.size < osioPrintfBufferSz + 1 := by
              rw [laid'.itoa_eq]
              decide
            rw [Except.bind, memsetItoa_overrun large]
            exact not_inBounds_overrun
      · rw [if_neg literal, if_neg literal]
        exact ih (laid.congr rfl rfl rfl)

/-- The `memset` at the start is in bounds, and leaves an empty buffer. -/
theorem laid_start (stack : Nat → UInt8) (args : List Arg) :
    ∃ m, (Memory.start stack args).memsetItoa (osioNumBufferSz + 1) = .ok m ∧
      m.toState = Oldc.start args ∧ Laid ⟨0, 0⟩ m := by
  have exact' : (List.replicate (osioNumBufferSz + 1) (0 : UInt8)).length ≤
      (Memory.start stack args).itoaBuf.size :=
    Nat.le_of_eq List.length_replicate
  have cleared : ∃ buf, (Memory.start stack args).memsetItoa (osioNumBufferSz + 1) =
      .ok { Memory.start stack args with itoaBuf := ⟨osioNumBufferSz + 1, buf⟩ } := by
    rw [Memory.memsetItoa, Memory.storeItoa]
    exact ⟨_, if_pos exact'⟩
  obtain ⟨buf, cleared⟩ := cleared
  refine ⟨_, cleared, rfl, rfl, rfl, ?_, rfl, fun _ _ _ => rfl, Nat.zero_le _, rfl⟩
  exact fun i before => absurd before (Nat.not_lt_zero i)

/-- The fallback `vsnprintf` stays in bounds exactly when all items fit that come
before the buffer counts as full: there is no literal among them, and the texts
of the arguments are not too long. -/
theorem vsnprintf_inBounds_iff (platform : Platform) (stack : Nat → UInt8) (fmt : List UInt8)
    (args : List Arg) :
    InBounds (Memory.vsnprintf platform stack fmt args) ↔
      Fits ⟨0, 0⟩ (itemsOf platform fmt args) := by
  obtain ⟨m, cleared, same, laid⟩ := laid_start stack args
  rw [Memory.vsnprintf, cleared]
  have looped := @Laid.inBounds_loop platform _ _ laid fmt
  rw [same] at looped
  exact looped

/-- One literal is enough. -/
theorem vsnprintf_not_inBounds :
    ¬∀ (platform : Platform) (stack : Nat → UInt8) (fmt : List UInt8) (args : List Arg),
      InBounds (Memory.vsnprintf platform stack fmt args) := by
  intro always
  have inBounds := always .win16 (fun _ => 0) (ascii "a") []
  obtain ⟨m, cleared, same, laid⟩ := laid_start (fun _ => 0) []
  rw [Memory.vsnprintf, cleared] at inBounds
  have fits := (laid.inBounds_loop (ascii "a")).mp inBounds
  have asked : Reader.items .win16 (ascii "a") (Oldc.start []).reader = [.literal] := rfl
  rw [same, asked, fits_cons (by decide)] at fits
  obtain ⟨_, full, _⟩ := fits
  cases full

/-- The values that the C types can have. -/
def Arg.Bounded : Arg → Prop
  | .int n | .long n => n.natAbs < 2 ^ 64
  | .unsigned n | .unsignedLong n => n < 2 ^ 64
  | .string _ => True

theorem Arg.as?_bounded {platform : Platform} {arg value : Arg} {type : ArgType}
    (bounded : arg.Bounded) (read : arg.as? platform type = some value) (number : type ≠ .string) :
    value.Bounded ∧ ∀ text, value ≠ .string text := by
  have width : ∀ bits, bits ≤ 64 → 2 ^ bits ≤ 2 ^ 64 := fun _ => Nat.pow_le_pow_right (by decide)
  have int := width platform.intBits (by cases platform <;> decide)
  have long := width (longBits platform) (by cases platform <;> decide)
  have signed : ∀ (n : Int) (bits : Nat), 2 ^ bits ≤ 2 ^ 64 →
      (n.bmod (2 ^ bits)).natAbs < 2 ^ 64 := by
    intro n bits small
    have positive : 0 < 2 ^ bits := Nat.two_pow_pos bits
    have above := @Int.bmod_lt n (2 ^ bits) positive
    have below := @Int.le_bmod n (2 ^ bits) positive
    omega
  have unsigned : ∀ (n : Int) (bits : Nat), 2 ^ bits ≤ 2 ^ 64 → (n % 2 ^ bits).toNat < 2 ^ 64 := by
    intro n bits small
    have positive : (0 : Int) < 2 ^ bits := Int.pow_pos (by decide)
    have above := Int.emod_lt_of_pos n positive
    have cast : ((2 ^ bits : Nat) : Int) = 2 ^ bits := by norm_cast
    omega
  unfold as? at read
  split at read
  · cases read
    exact ⟨bounded, nofun⟩
  · cases read
    exact ⟨signed _ _ int, nofun⟩
  · cases read
    exact ⟨bounded, nofun⟩
  · cases read
    exact ⟨unsigned _ _ int, nofun⟩
  · cases read
    exact ⟨bounded, nofun⟩
  · cases read
    exact ⟨signed _ _ long, nofun⟩
  · cases read
    exact ⟨bounded, nofun⟩
  · cases read
    exact ⟨unsigned _ _ long, nofun⟩
  · exact absurd rfl number
  · cases read

/-- A number has at most twenty digits and a sign. -/
theorem Arg.text_short {arg : Arg} (bounded : arg.Bounded) (number : ∀ text, arg ≠ .string text)
    {radix : Nat} (ten : 10 ≤ radix) : (arg.text radix).length ≤ 21 := by
  have digits : ∀ n < 2 ^ 64, ∀ radix, 10 ≤ radix → (ultoa n radix).length ≤ 20 := by
    intro n small radix ten
    rw [ultoa, List.length_map]
    refine (Nat.length_toDigits_le_iff (by omega) (by decide)).mpr ?_
    have more : 10 ^ 20 ≤ radix ^ 20 := Nat.pow_le_pow_left ten 20
    omega
  have signed : ∀ n : Int, n.natAbs < 2 ^ 64 → (ltoa n).length ≤ 21 := by
    intro n small
    have short := digits n.natAbs small 10 (Nat.le_refl 10)
    rw [ltoa]
    split
    · exact Nat.succ_le_succ short
    · exact Nat.le_succ_of_le short
  cases arg with
  | int n | long n => exact signed n bounded
  | unsigned n | unsignedLong n => exact Nat.le_succ_of_le (digits n bounded radix ten)
  | string text => exact absurd rfl (number text)

/-- An argument that is taken leaves bounded arguments. -/
theorem Reader.take_bounded {platform : Platform} {type : ArgType} {r r' : Reader} {value : Arg}
    (bounded : ∀ arg ∈ r.args, arg.Bounded) (taken : r.take platform type = some (value, r')) :
    (∀ arg ∈ r'.args, arg.Bounded) ∧
      (type ≠ .string → value.Bounded ∧ ∀ text, value ≠ .string text) := by
  rw [take] at taken
  cases given : r.args with
  | nil =>
      rw [given] at taken
      cases taken
  | cons arg args =>
      rw [given] at taken bounded
      obtain ⟨value', read, same⟩ := Option.map_eq_some_iff.mp taken
      cases same
      have all := List.forall_mem_cons.mp bounded
      exact ⟨all.2, Arg.as?_bounded all.1 read⟩

theorem Reader.numberType_ne (r : Reader) : r.numberType ≠ .string := by
  rw [numberType]
  cases r.specLong <;> cases r.specUnsigned <;> exact nofun

/-- A conversion with an argument takes it, and asks for an item by its value. -/
theorem Reader.take_item {platform : Platform} {type : ArgType} {start r' : Reader}
    {item : Option Item} (spell : Arg → Item)
    (converted : (start.take platform type).map (fun (value, r) => (some (spell value), r)) =
      some (item, r')) :
    ∃ value, start.take platform type = some (value, r') ∧ item = some (spell value) := by
  obtain ⟨⟨value, left⟩, taken, same⟩ := Option.map_eq_some_iff.mp converted
  cases same
  exact ⟨value, taken, rfl⟩

/-- What a conversion can do: it takes no argument, or one that is not spelled as a
number, or one that is. -/
theorem Reader.convert_cases {platform : Platform} {c : UInt8} {r r' : Reader}
    {item : Option Item} (converted : r.convert platform c = some (item, r')) :
    (r'.args = r.args ∧ ∀ digits, item ≠ some (.number digits)) ∨
      ∃ (start : Reader) (type : ArgType) (value : Arg),
        start.take platform type = some (value, r') ∧ start.args = r.args ∧
        ((∀ digits, item ≠ some (.number digits)) ∨
          type ≠ .string ∧ ∃ radix, 10 ≤ radix ∧ item = some (.number (value.text radix))) := by
  unfold convert at converted
  split at converted
  · cases converted
    exact .inl ⟨rfl, nofun⟩
  split at converted
  · obtain ⟨value, taken, rfl⟩ := take_item (fun value => .string (value.text 10)) converted
    exact .inr ⟨_, _, value, taken, rfl, .inl nofun⟩
  split at converted
  · obtain ⟨value, taken, rfl⟩ := take_item (fun value => .number (value.text 10)) converted
    exact .inr ⟨_, _, value, taken, rfl, .inr ⟨numberType_ne _, 10, Nat.le_refl 10, rfl⟩⟩
  split at converted
  · obtain ⟨value, taken, rfl⟩ := take_item (fun value => .number (value.text 10)) converted
    exact .inr ⟨_, _, value, taken, rfl, .inr ⟨numberType_ne _, 10, Nat.le_refl 10, rfl⟩⟩
  split at converted
  · obtain ⟨value, taken, rfl⟩ := take_item (fun value => .number (value.text 16)) converted
    have unsigned : (if r.specLong then ArgType.unsignedLong else .unsigned) ≠ .string := by
      split <;> decide
    exact .inr ⟨_, _, value, taken, rfl, .inr ⟨unsigned, 16, by decide, rfl⟩⟩
  split at converted
  · obtain ⟨value, taken, rfl⟩ := take_item (fun value => .char value.char) converted
    exact .inr ⟨_, _, value, taken, rfl, .inl nofun⟩
  split at converted
  · cases converted
    exact .inl ⟨rfl, nofun⟩
  split at converted
  · cases converted
    exact .inl ⟨rfl, nofun⟩
  · cases converted
    exact .inl ⟨rfl, nofun⟩

/-- A conversion spells numbers that fit in `itoa_buf`. -/
theorem Reader.convert_number {platform : Platform} {c : UInt8} {r r' : Reader}
    {item : Option Item} (bounded : ∀ arg ∈ r.args, arg.Bounded)
    (converted : r.convert platform c = some (item, r')) :
    (∀ arg ∈ r'.args, arg.Bounded) ∧
      ∀ digits, item = some (.number digits) → digits.length ≤ osioNumBufferSz := by
  rcases convert_cases converted with ⟨same, other⟩ |
    ⟨start, type, value, taken, same, other | ⟨number, radix, ten, rfl⟩⟩
  · exact ⟨same ▸ bounded, fun digits spelled => absurd spelled (other digits)⟩
  · exact ⟨(take_bounded (same ▸ bounded) taken).1,
      fun digits spelled => absurd spelled (other digits)⟩
  · obtain ⟨rest, value_bounded⟩ := take_bounded (same ▸ bounded) taken
    obtain ⟨small, notString⟩ := value_bounded number
    refine ⟨rest, fun digits spelled => ?_⟩
    cases spelled
    exact Nat.le_trans (Arg.text_short small notString ten) (by decide)

/-- So it is the buffer that a call with arguments of their types can overrun, or
the `memset` of a literal. -/
theorem numbers_fit {platform : Platform} (fmt : List UInt8) {args : List Arg}
    (bounded : ∀ arg ∈ args, arg.Bounded) :
    ∀ digits, .number digits ∈ itemsOf platform fmt args → digits.length ≤ osioNumBufferSz := by
  have general : ∀ r : Reader, (∀ arg ∈ r.args, arg.Bounded) →
      ∀ digits, .number digits ∈ r.items platform fmt → digits.length ≤ osioNumBufferSz := by
    induction fmt with
    | nil => exact fun _ _ _ member => absurd member List.not_mem_nil
    | cons c rest ih =>
        intro r bounded digits member
        rw [Reader.items] at member
        by_cases conversion : r.last = chr '%'
        · rw [if_pos conversion] at member
          cases converted : r.convert platform c with
          | none =>
              rw [converted] at member
              exact absurd member List.not_mem_nil
          | some read =>
              obtain ⟨item, r'⟩ := read
              rw [converted] at member
              obtain ⟨later, fits⟩ := Reader.convert_number bounded converted
              rcases List.mem_append.mp member with here | behind
              · exact fits digits (Option.mem_toList.mp here)
              · exact ih r' later digits behind
        · rw [if_neg conversion] at member
          by_cases literal : c ≠ chr '%'
          · rw [if_pos literal] at member
            exact ih ⟨c, false, false, r.args⟩ bounded digits
              ((List.mem_cons.mp member).resolve_left nofun)
          · rw [if_neg literal] at member
            exact ih { r with last := c } bounded digits member
  exact general _ bounded

section Refinement

variable {platform : Platform} {m m' : Memory}

theorem bind_ok {α β : Type} {result : Except Fault α} {next : α → Except Fault β} {b : β}
    (ok : result.bind next = .ok b) : ∃ a, result = .ok a ∧ next a = .ok b := by
  cases result with
  | error fault => cases ok
  | ok a => exact ⟨a, rfl, ok⟩

theorem lift_ok {fault : Fault} {result : Option State} (ok : m.lift fault result = .ok m') :
    result = some m'.toState := by
  cases result with
  | none => cases ok
  | some st => exact congrArg (fun m : Memory => some m.toState) (Except.ok.inj ok)

theorem vaArg_ok {type : ArgType} {left : Nat} {value : Arg}
    (ok : m.vaArg platform type left = .ok (value, m')) :
    Oldc.vaArg platform type left m.toState = some (value, m'.toState) := by
  rw [Memory.vaArg] at ok
  cases read : Oldc.vaArg platform type left m.toState with
  | none =>
      rw [read] at ok
      cases ok
  | some taken =>
      rw [read] at ok
      cases ok
      rfl

theorem printString_ok {left : Nat} (ok : m.printString platform left = .ok m') :
    print platform .string 10 left m.toState = some m'.toState := by
  obtain ⟨⟨value, mid⟩, read, ok⟩ := bind_ok ok
  rw [print, vaArg_ok read]
  exact lift_ok ok

theorem printNumber_ok {type : ArgType} {radix left : Nat}
    (ok : m.printNumber platform type radix left = .ok m') :
    print platform type radix left m.toState = some m'.toState := by
  obtain ⟨⟨value, mid⟩, read, ok⟩ := bind_ok ok
  rw [print, vaArg_ok read]
  dsimp only at ok
  rcases storeItoa_cases mid (value.text_noNul radix) with
    ⟨_, m'', called, spelling, same, _⟩ | ⟨_, called⟩
  · rw [called, Except.bind, spelling] at ok
    rw [← same]
    exact lift_ok ok
  · rw [called] at ok
    cases ok

theorem convert_ok {c : UInt8} {left : Nat} (ok : m.convert platform c left = .ok m') :
    Oldc.convert platform c left m.toState = some m'.toState := by
  rw [Memory.convert] at ok
  rw [Oldc.convert]
  by_cases l : c = chr 'l'
  · rw [if_pos l] at ok ⊢
    cases ok
    rfl
  rw [if_neg l] at ok ⊢
  by_cases s : c = chr 's'
  · rw [if_pos s] at ok ⊢
    exact printString_ok ok
  rw [if_neg s] at ok ⊢
  by_cases u : c = chr 'u'
  · rw [if_pos u] at ok ⊢
    exact printNumber_ok ok
  rw [if_neg u] at ok ⊢
  by_cases d : c = chr 'd'
  · rw [if_pos d] at ok ⊢
    exact printNumber_ok ok
  rw [if_neg d] at ok ⊢
  by_cases x : c = chr 'x'
  · rw [if_pos x] at ok ⊢
    exact printNumber_ok ok
  rw [if_neg x] at ok ⊢
  by_cases char : c = chr 'c'
  · rw [if_pos char] at ok ⊢
    obtain ⟨⟨value, mid⟩, read, ok⟩ := bind_ok ok
    have taken := vaArg_ok read
    dsimp only at taken
    rw [taken]
    exact lift_ok ok
  rw [if_neg char] at ok ⊢
  by_cases percent : c = chr '%'
  · rw [if_pos percent] at ok ⊢
    exact lift_ok ok
  rw [if_neg percent] at ok ⊢
  by_cases digit : isDigit c = true
  · rw [if_pos digit] at ok ⊢
    cases ok
    rfl
  · rw [if_neg digit] at ok ⊢
    cases ok
    rfl

theorem loop_ok {fmt : List UInt8} (ok : Memory.loop platform fmt m = .ok m') :
    vsnprintfLoop platform fmt m.toState = some m'.toState := by
  induction fmt generalizing m with
  | nil =>
      cases ok
      rfl
  | cons c rest ih =>
      rw [Memory.loop] at ok
      rw [vsnprintfLoop]
      by_cases full : osioPrintfBufferSz ≤ m.iOut
      · rw [if_pos full] at ok ⊢
        cases ok
        rfl
      rw [if_neg full] at ok ⊢
      by_cases conversion : m.last = chr '%'
      · rw [if_pos conversion] at ok ⊢
        obtain ⟨mid, converted, ok⟩ := bind_ok ok
        rw [convert_ok converted]
        exact ih ok
      rw [if_neg conversion] at ok ⊢
      by_cases literal : c ≠ chr '%'
      · rw [if_pos literal] at ok ⊢
        obtain ⟨mid, put, ok⟩ := bind_ok ok
        obtain ⟨cleared, stored, ok⟩ := bind_ok ok
        have same : cleared.toState = mid.toState := by
          rw [Memory.memsetItoa, Memory.storeItoa] at stored
          split at stored
          · cases stored
            rfl
          · cases stored
        have looped := ih ok
        rw [same] at looped
        rw [lift_ok put]
        exact looped
      · rw [if_neg literal] at ok ⊢
        exact ih ok

/-- A call that stays in bounds leaves what the scanner without `itoa_buf` leaves. -/
theorem vsnprintf_of_memory {stack : Nat → UInt8} {fmt : List UInt8} {args : List Arg}
    (ok : Memory.vsnprintf platform stack fmt args = .ok m) :
    vsnprintf platform fmt args = some m.toState := by
  obtain ⟨mid, cleared, same, _⟩ := laid_start stack args
  rw [Memory.vsnprintf, cleared] at ok
  have looped := loop_ok ok
  rwa [same] at looped

end Refinement

end MinputHop.Oldc
