import MinputHop.Program.Oldc

/-!
# What the fallback `vsnprintf` gets right

Two pieces of state outlive a conversion: the `%` that is still the last
character behind `%%`, and the flags of the last number.  The rendering is right
exactly for the formats in which neither of them can be seen.
-/

namespace MinputHop.Oldc

open FlatMemory

/-! ## The scanner at one directive -/

/-- The character that a directive ends with. -/
def Directive.letter : Directive → UInt8
  | .literal c => c
  | .percent => chr '%'
  | .string => chr 's'
  | .char => chr 'c'
  | .number _ conv => conv.letter

/-- The flags that a directive sets. -/
def Directive.isLong : Directive → Bool
  | .number long _ => long
  | _ => false

def Directive.isUnsigned : Directive → Bool
  | .number _ .u => true
  | _ => false

def Directive.radix : Directive → Nat
  | .number _ .x => 16
  | _ => 10

/-- The type that the code asks for, by the flags that are set. -/
def Directive.asked (specLong specUnsigned : Bool) : Directive → ArgType
  | .string => .string
  | .number _ .x => if specLong then .unsignedLong else .unsigned
  | .number _ _ =>
      match specLong, specUnsigned with
      | false, false => .int
      | false, true => .unsigned
      | true, false => .long
      | true, true => .unsignedLong
  | _ => .int

/-- The state in which a directive asks for its argument. -/
def Directive.begun (directive : Directive) (st : State) : State :=
  { st with
    specLong := st.specLong || directive.isLong
    specUnsigned := st.specUnsigned || directive.isUnsigned
    last := directive.letter }

def Directive.request (directive : Directive) (st : State) : ArgType :=
  directive.asked (directive.begun st).specLong (directive.begun st).specUnsigned

/-- The type is right when no flag is left over that matters. -/
theorem request_number_iff (st : State) (long : Bool) (conv : Conv) :
    (Directive.number long conv).type? = some ((Directive.number long conv).request st) ↔
      (st.specLong = true → long = true) ∧ (st.specUnsigned = true → conv ≠ .d) := by
  obtain ⟨_, _, specLong, specUnsigned, _, _, _⟩ := st
  cases specLong <;> cases specUnsigned <;> cases long <;> cases conv <;>
    simp [Directive.request, Directive.begun, Directive.asked, Directive.type?, Directive.isLong,
      Directive.isUnsigned]

section Scanner

variable {platform : Platform} {rest : List UInt8} {st st' : State} {c : UInt8}

theorem vsnprintfLoop_break (full : osioPrintfBufferSz ≤ st.iOut) :
    vsnprintfLoop platform (c :: rest) st = some st := by
  rw [vsnprintfLoop, if_pos full]

theorem vsnprintfLoop_convert (room : st.iOut < osioPrintfBufferSz) (open' : st.last = chr '%') :
    vsnprintfLoop platform (c :: rest) st =
      (convert platform c rest.length st).bind (vsnprintfLoop platform rest) := by
  rw [vsnprintfLoop, if_neg (Nat.not_le_of_lt room), if_pos open']

theorem vsnprintfLoop_plain (room : st.iOut < osioPrintfBufferSz) (closed : st.last ≠ chr '%')
    (notPercent : c ≠ chr '%') :
    vsnprintfLoop platform (c :: rest) st =
      (putc c { st with specLong := false, specUnsigned := false, last := c }).bind
        (vsnprintfLoop platform rest) := by
  rw [vsnprintfLoop, if_neg (Nat.not_le_of_lt room), if_neg closed, if_pos notPercent]

theorem vsnprintfLoop_open (room : st.iOut < osioPrintfBufferSz) (closed : st.last ≠ chr '%') :
    vsnprintfLoop platform (chr '%' :: rest) st =
      vsnprintfLoop platform rest { st with last := chr '%' } := by
  rw [vsnprintfLoop, if_neg (Nat.not_le_of_lt room), if_neg closed, if_neg (not_not.mpr rfl)]

/-- Behind the `%`, a directive is one conversion, with the flag of its `l` set. -/
theorem vsnprintfLoop_spelling {directive : Directive} (notLiteral : ∀ c, directive ≠ .literal c)
    (room : st.iOut < osioPrintfBufferSz) (open' : st.last = chr '%') :
    vsnprintfLoop platform (directive.spelling ++ rest) st =
      (convert platform directive.letter rest.length
        { st with specLong := st.specLong || directive.isLong }).bind
          (vsnprintfLoop platform rest) := by
  have noLong : { st with specLong := st.specLong || false } = st := by rw [Bool.or_false]
  cases directive with
  | literal c => exact absurd rfl (notLiteral c)
  | percent | string | char =>
      change _ = (convert _ _ _ { st with specLong := st.specLong || false }).bind _
      rw [noLong]
      exact vsnprintfLoop_convert room open'
  | number long conv =>
      cases long with
      | false =>
          change _ = (convert _ _ _ { st with specLong := st.specLong || false }).bind _
          rw [noLong]
          exact vsnprintfLoop_convert room open'
      | true =>
          change _ = (convert _ _ _ { st with specLong := st.specLong || true }).bind _
          rw [Bool.or_true]
          exact (vsnprintfLoop_convert room open').trans (vsnprintfLoop_convert room open')

theorem Arg.as?_type (platform : Platform) (arg : Arg) : arg.as? platform arg.type = some arg := by
  cases arg <;> rfl

theorem vaArg_reads {type : ArgType} {left : Nat} {value : Arg}
    (read : vaArg platform type left st = some (value, st')) :
    st'.reads = st.reads ++ [(left, type)] := by
  rw [vaArg] at read
  cases given : st.args with
  | nil =>
      rw [given] at read
      cases read
  | cons arg args =>
      rw [given] at read
      obtain ⟨_, _, same⟩ := Option.map_eq_some_iff.mp read
      obtain ⟨_, rfl⟩ := Prod.mk.inj same
      rfl

theorem putc_reads (put : putc c st = some st') : st'.reads = st.reads := by
  rw [putc] at put
  split at put
  · exact Option.some.inj put ▸ rfl
  · cases put

theorem strcat_reads {text : List UInt8} (put : strcat text st = some st') :
    st'.reads = st.reads := by
  rw [strcat] at put
  split at put
  · exact Option.some.inj put ▸ rfl
  · cases put

theorem print_reads {type : ArgType} {radix left : Nat}
    (ran : print platform type radix left st = some st') :
    st'.reads = st.reads ++ [(left, type)] := by
  obtain ⟨⟨value, mid⟩, read, put⟩ := Option.bind_eq_some_iff.mp ran
  rw [strcat_reads put, vaArg_reads read]

theorem printChar_reads {left : Nat}
    (ran : ((vaArg platform .int left st).bind fun (value, st) => putc value.char st) = some st') :
    st'.reads = st.reads ++ [(left, .int)] := by
  obtain ⟨⟨value, mid⟩, read, put⟩ := Option.bind_eq_some_iff.mp ran
  rw [putc_reads put, vaArg_reads read]

/-- What a conversion that takes an argument does. -/
theorem convert_letter {directive : Directive} {type : ArgType} (takes : directive.type? = some type)
    (left : Nat) (st : State) :
    convert platform directive.letter left
        { st with specLong := st.specLong || directive.isLong } =
      if directive = .char then
        (vaArg platform .int left (directive.begun st)).bind fun (value, st) => putc value.char st
      else print platform (directive.request st) directive.radix left (directive.begun st) := by
  obtain ⟨_, _, specLong, specUnsigned, _, _, _⟩ := st
  cases directive with
  | literal | percent => cases takes
  | string | char => cases specLong <;> cases specUnsigned <;> rfl
  | number long conv =>
      rw [if_neg Directive.noConfusion]
      cases long <;> cases conv <;> cases specLong <;> cases specUnsigned <;> rfl

/-- It asks for the type that the flags name. -/
theorem convert_reads {directive : Directive} {type : ArgType}
    (takes : directive.type? = some type) {left : Nat}
    (ran : convert platform directive.letter left
      { st with specLong := st.specLong || directive.isLong } = some st') :
    st'.reads = st.reads ++ [(left, directive.request st)] := by
  rw [convert_letter takes] at ran
  split at ran
  · next char =>
      subst char
      have reads := printChar_reads ran
      exact reads
  · have reads := print_reads ran
    exact reads

theorem piece_eq_text {directive : Directive} (notChar : directive ≠ .char) (arg : Arg) :
    directive.piece arg = arg.text directive.radix := by
  cases directive with
  | char => exact absurd rfl notChar
  | literal | percent | string => rfl
  | number long conv => cases conv <;> rfl

theorem vaArg_type {arg : Arg} {args : List Arg} (given : st.args = arg :: args) (left : Nat) :
    vaArg platform arg.type left st =
      some (arg, { st with args := args, reads := st.reads ++ [(left, arg.type)] }) := by
  rw [vaArg, given]
  dsimp only
  rw [Arg.as?_type, Option.map_some]

/-- Asked for its type, an argument is rendered, if there is room. -/
theorem convert_token {directive : Directive} {arg : Arg} {args : List Arg} {out : List UInt8}
    (takes : directive.type? = some arg.type) (right : directive.request st = arg.type)
    (given : st.args = arg :: args) (written : Written out st.buffer st.iOut)
    (notNul : directive = .char → arg.char ≠ 0) (room : out.length < osioPrintfBufferSz)
    (left : Nat) :
    (osioPrintfBufferSz < out.length + (directive.piece arg).length ∧
      convert platform directive.letter left
        { st with specLong := st.specLong || directive.isLong } = none) ∨
    ∃ buffer iOut, convert platform directive.letter left
        { st with specLong := st.specLong || directive.isLong } =
          some { directive.begun st with
            args := args
            reads := st.reads ++ [(left, arg.type)]
            buffer := buffer
            iOut := iOut } ∧
      Written (out ++ directive.piece arg) buffer iOut := by
  rw [convert_letter takes, right]
  have read := @vaArg_type platform (directive.begun st) arg args given left
  by_cases char : directive = .char
  · subst char
    have type : ArgType.int = arg.type := Option.some.inj takes
    rw [if_pos rfl, type, read, Option.bind_some]
    obtain ⟨buffer, put, written'⟩ := @putc_written out
      { Directive.char.begun st with args := args, reads := st.reads ++ [(left, arg.type)] } written
      arg.char (notNul rfl) room
    exact .inr ⟨buffer, _, put, written'⟩
  · rw [if_neg char, print, read, Option.bind_some, piece_eq_text char]
    rcases @strcat_written out (arg.text directive.radix)
        { directive.begun st with args := args, reads := st.reads ++ [(left, arg.type)] } written
        (arg.text_noNul _) with beyond | ⟨buffer, put, written'⟩
    · exact .inl beyond
    · exact .inr ⟨buffer, _, put, written'⟩

/-- A conversion reads one argument, or puts out a `%`, or puts out nothing. -/
theorem convert_cases {left : Nat} (ran : convert platform c left st = some st') :
    (∃ type, st'.reads = st.reads ++ [(left, type)]) ∨
      (c = chr '%' ∧ putc c { st with last := c } = some st') ∨
      ∃ last specLong, st' = { st with last := last, specLong := specLong } := by
  have print' : ∀ {last specUnsigned type radix}, print platform type radix left
      { st with last := last, specUnsigned := specUnsigned } = some st' →
      st'.reads = st.reads ++ [(left, type)] := by
    intro last specUnsigned type radix ran
    exact @print_reads platform { st with last := last, specUnsigned := specUnsigned } st' type radix left ran
  unfold convert at ran
  split_ifs at ran
  · exact .inr (.inr ⟨st.last, true, (Option.some.inj ran).symm⟩)
  · exact .inl ⟨_, print' ran⟩
  · exact .inl ⟨_, print' ran⟩
  · exact .inl ⟨_, print' ran⟩
  · exact .inl ⟨_, print' ran⟩
  · exact .inl ⟨_, print' ran⟩
  · exact .inl ⟨.int, @printChar_reads platform { st with last := c } st' left ran⟩
  · next percent => exact .inr (.inl ⟨percent, ran⟩)
  · exact .inr (.inr ⟨chr '%', st.specLong, (Option.some.inj ran).symm⟩)
  · exact .inr (.inr ⟨c, st.specLong, (Option.some.inj ran).symm⟩)

theorem convert_reads_start {left : Nat} (ran : convert platform c left st = some st') :
    st.reads <+: st'.reads := by
  rcases convert_cases ran with ⟨_, reads⟩ | ⟨_, put⟩ | ⟨_, _, rfl⟩
  · exact reads ▸ List.prefix_append _ _
  · exact putc_reads put ▸ List.prefix_refl _
  · exact List.prefix_refl _

/-- What was read is not forgotten. -/
theorem vsnprintfLoop_reads {fmt : List UInt8} (ran : vsnprintfLoop platform fmt st = some st') :
    st.reads <+: st'.reads := by
  induction fmt generalizing st with
  | nil => exact Option.some.inj ran ▸ List.prefix_refl _
  | cons c rest ih =>
      rw [vsnprintfLoop] at ran
      split_ifs at ran
      · exact Option.some.inj ran ▸ List.prefix_refl _
      · obtain ⟨mid, converted, later⟩ := Option.bind_eq_some_iff.mp ran
        exact (convert_reads_start converted).trans (ih later)
      · obtain ⟨mid, put, later⟩ := Option.bind_eq_some_iff.mp ran
        have same := putc_reads put
        exact same ▸ ih later
      · have later := ih ran
        exact later

/-- What a `%` that starts a directive puts out itself, if the last character
still is a `%`. -/
def escape (open' : Bool) : List UInt8 := if open' then [chr '%'] else []

theorem escape_closed {last : UInt8} (closed : last ≠ chr '%') :
    escape (decide (last = chr '%')) = [] := by
  rw [decide_eq_false closed]
  rfl

theorem vsnprintfLoop_percent {out : List UInt8} (written : Written out st.buffer st.iOut)
    (room : out.length < osioPrintfBufferSz) :
    ∃ buffer iOut, vsnprintfLoop platform (chr '%' :: rest) st =
        vsnprintfLoop platform rest
          { st with last := chr '%', buffer := buffer, iOut := iOut } ∧
      Written (out ++ escape (decide (st.last = chr '%'))) buffer iOut := by
  have inside : st.iOut < osioPrintfBufferSz := by rwa [written.iOut_eq]
  by_cases open' : st.last = chr '%'
  · obtain ⟨buffer, put, written'⟩ := @putc_written out { st with last := chr '%' } written
      (chr '%') (by decide) room
    refine ⟨buffer, _, ?_, by rw [decide_eq_true open']; exact written'⟩
    rw [vsnprintfLoop_convert inside open', show convert platform (chr '%') rest.length st =
      putc (chr '%') { st with last := chr '%' } from rfl, put, Option.bind_some]
  · refine ⟨st.buffer, st.iOut, vsnprintfLoop_open inside open', ?_⟩
    rw [decide_eq_false open', escape, if_neg Bool.false_ne_true, List.append_nil]
    exact written

end Scanner

/-! ## Formats that are rendered -/

theorem letter_ne_percent {directive : Directive} {type : ArgType}
    (takes : directive.type? = some type) : directive.letter ≠ chr '%' := by
  cases directive with
  | literal | percent => cases takes
  | string | char => decide
  | number long conv =>
      rw [Directive.letter]
      cases conv <;> decide

theorem text_of_takes {directive : Directive} {type : ArgType}
    (takes : directive.type? = some type) :
    directive.text = chr '%' :: directive.spelling ∧ ∀ c, directive ≠ .literal c := by
  cases directive with
  | literal => cases takes
  | percent | string | char | number => exact ⟨rfl, nofun⟩

/-- A directive that takes an argument takes the first one. -/
theorem standard_token {directive : Directive} {type : ArgType} {rest : List Directive}
    {args : List Arg} {out : List UInt8} (takes : directive.type? = some type)
    (rendered : standard (directive :: rest) args = some out) :
    ∃ arg args' later, args = arg :: args' ∧ arg.type = type ∧ (directive = .char → arg.char ≠ 0) ∧
      standard rest args' = some later ∧ out = directive.piece arg ++ later := by
  have general : ∀ arg args', args = arg :: args' →
      (if directive.type? = some arg.type ∧ (directive = .char → arg.char ≠ 0) then
        (standard rest args').map (directive.piece arg ++ ·) else none) = some out →
      ∃ arg args' later, args = arg :: args' ∧ arg.type = type ∧
        (directive = .char → arg.char ≠ 0) ∧ standard rest args' = some later ∧
        out = directive.piece arg ++ later := by
    intro arg args' given found
    split at found
    · next both =>
        obtain ⟨later, behind, rfl⟩ := Option.map_eq_some_iff.mp found
        exact ⟨arg, args', later, given, Option.some.inj (both.1.symm.trans takes), both.2, behind,
          rfl⟩
    · cases found
  cases directive with
  | literal | percent => cases takes
  | string | char | number =>
      cases args with
      | nil => cases rendered
      | cons arg args' => exact general arg args' rfl rendered

theorem sound_token {directive : Directive} {type : ArgType} {rest : List Directive} {st : State}
    (takes : directive.type? = some type) :
    Sound st.specLong st.specUnsigned (directive :: rest) ↔ directive.request st = type ∧
      Sound (directive.begun st).specLong (directive.begun st).specUnsigned rest := by
  cases directive with
  | literal | percent => cases takes
  | string | char =>
      obtain rfl := Option.some.inj takes
      simp [Sound, Directive.request, Directive.begun, Directive.asked, Directive.isLong,
        Directive.isUnsigned]
  | number long conv =>
      have right : (Directive.number long conv).request st = type ↔
          (st.specLong = true → long = true) ∧ (st.specUnsigned = true → conv ≠ .d) := by
        rw [← request_number_iff st long conv, takes, Option.some.injEq, eq_comm]
      have unsigned : (Directive.number long conv).isUnsigned = decide (conv = .u) := by
        cases conv <;> rfl
      rw [right, Sound, and_assoc, Directive.begun, unsigned]
      rfl

theorem Plain.literal {c : UInt8} {rest : List Directive} (plain : Plain (.literal c :: rest)) :
    c ≠ chr '%' ∧ c ≠ 0 := by
  obtain ⟨notPercent, notNul⟩ := plain _ List.mem_cons_self
  exact ⟨mt (congrArg Directive.literal) notPercent, mt (congrArg Directive.literal) notNul⟩

theorem Plain.rest {directive : Directive} {rest : List Directive}
    (plain : Plain (directive :: rest)) : Plain rest :=
  fun other member => plain other (List.mem_cons_of_mem _ member)

theorem properReads_token {directive : Directive} {type : ArgType} (rest : List Directive)
    (takes : directive.type? = some type) :
    properReads (directive :: rest) = ((formatText rest).length, type) :: properReads rest := by
  rw [properReads, takes]
  rfl

section OneDirective

variable {platform : Platform} {rest : List UInt8} {st : State} {out : List UInt8}

theorem literal_step {c : UInt8} (written : Written out st.buffer st.iOut)
    (room : out.length < osioPrintfBufferSz) (closed : st.last ≠ chr '%') (notPercent : c ≠ chr '%')
    (notNul : c ≠ 0) :
    ∃ buffer iOut, vsnprintfLoop platform (c :: rest) st =
        vsnprintfLoop platform rest
          { st with
            specLong := false, specUnsigned := false, last := c, buffer := buffer, iOut := iOut } ∧
      Written (out ++ [c]) buffer iOut := by
  have inside : st.iOut < osioPrintfBufferSz := by rwa [written.iOut_eq]
  obtain ⟨buffer, put, behind⟩ := @putc_written out
    { st with specLong := false, specUnsigned := false, last := c } written c notNul room
  refine ⟨buffer, _, ?_, behind⟩
  rw [vsnprintfLoop_plain inside closed notPercent, put, Option.bind_some]

/-- Behind `%%`, the last character is a `%` in any case. -/
theorem percent_step (written : Written out st.buffer st.iOut)
    (room : (out ++ escape (decide (st.last = chr '%'))).length < osioPrintfBufferSz) :
    ∃ buffer iOut, vsnprintfLoop platform (chr '%' :: chr '%' :: rest) st =
        vsnprintfLoop platform rest
          { st with last := chr '%', buffer := buffer, iOut := iOut } ∧
      Written (out ++ escape (decide (st.last = chr '%')) ++ [chr '%']) buffer iOut := by
  rw [List.length_append] at room
  have inside : out.length < osioPrintfBufferSz := by omega
  obtain ⟨buffer, iOut, opened, behind⟩ :=
    @vsnprintfLoop_percent platform (chr '%' :: rest) st out written inside
  rw [opened]
  obtain ⟨buffer', iOut', doubled, behind'⟩ := @vsnprintfLoop_percent platform rest
    { st with last := chr '%', buffer := buffer, iOut := iOut } _ behind
    (by rwa [List.length_append])
  exact ⟨buffer', iOut', doubled, behind'⟩

/-- A directive that takes an argument comes to its conversion. -/
theorem token_step {directive : Directive} {type : ArgType}
    (takes : directive.type? = some type) (written : Written out st.buffer st.iOut)
    (room : (out ++ escape (decide (st.last = chr '%'))).length < osioPrintfBufferSz) :
    ∃ buffer iOut, vsnprintfLoop platform (directive.text ++ rest) st =
        (convert platform directive.letter rest.length
          { st with
            last := chr '%', buffer := buffer, iOut := iOut
            specLong := st.specLong || directive.isLong }).bind (vsnprintfLoop platform rest) ∧
      Written (out ++ escape (decide (st.last = chr '%'))) buffer iOut := by
  obtain ⟨spelled, notLiteral⟩ := text_of_takes takes
  have inside : out.length < osioPrintfBufferSz := by
    rw [List.length_append] at room
    omega
  obtain ⟨buffer, iOut, opened, behind⟩ :=
    @vsnprintfLoop_percent platform (directive.spelling ++ rest) st out written inside
  refine ⟨buffer, iOut, ?_, behind⟩
  rw [spelled, List.cons_append, opened]
  exact @vsnprintfLoop_spelling platform rest
    { st with last := chr '%', buffer := buffer, iOut := iOut } directive notLiteral
    (by rwa [behind.iOut_eq]) rfl

end OneDirective

/-- A directive that takes no argument is a literal or `%%`. -/
theorem takes_cases (directive : Directive) :
    (∃ c, directive = .literal c) ∨ directive = .percent ∨ ∃ type, directive.type? = some type := by
  cases directive with
  | literal c => exact .inl ⟨c, rfl⟩
  | percent => exact .inr (.inl rfl)
  | string | char => exact .inr (.inr ⟨_, rfl⟩)
  | number long conv => cases long <;> cases conv <;> exact .inr (.inr ⟨_, rfl⟩)

theorem standard_nil {args : List Arg} {text : List UInt8} (rendered : standard [] args = some text) :
    args = [] ∧ text = [] := by
  cases args with
  | nil => exact ⟨rfl, (Option.some.inj rendered).symm⟩
  | cons arg args => cases rendered

theorem formatText_cons (directive : Directive) (rest : List Directive) :
    formatText (directive :: rest) = directive.text ++ formatText rest := rfl

/-- A sound format is rendered behind what is there, with every argument read. -/
theorem vsnprintfLoop_sound {platform : Platform} {directives : List Directive} {st : State}
    {out text : List UInt8} (plain : Plain directives)
    (sound : Sound st.specLong st.specUnsigned directives) (closed : st.last ≠ chr '%')
    (rendered : standard directives st.args = some text)
    (written : Written out st.buffer st.iOut)
    (room : out.length + text.length < osioPrintfBufferSz) :
    ∃ st', vsnprintfLoop platform (formatText directives) st = some st' ∧ st'.args = [] ∧
      st'.reads = st.reads ++ properReads directives ∧
      Written (out ++ text) st'.buffer st'.iOut := by
  induction directives generalizing st out text with
  | nil =>
      obtain ⟨used, rfl⟩ := standard_nil rendered
      refine ⟨st, rfl, used, (List.append_nil _).symm, ?_⟩
      rwa [List.append_nil]
  | cons directive rest ih =>
      have inside : out.length < osioPrintfBufferSz := by omega
      have unescaped := escape_closed closed
      rcases takes_cases directive with ⟨c, rfl⟩ | rfl | ⟨type, takes⟩
      · obtain ⟨notPercent, notNul⟩ := plain.literal
        obtain ⟨later, behind, rfl⟩ := Option.map_eq_some_iff.mp rendered
        obtain ⟨buffer, iOut, step, written'⟩ := @literal_step platform (formatText rest) st out c
          written inside closed notPercent notNul
        rw [List.length_cons] at room
        obtain ⟨st', ran, used, reads, writtenEnd⟩ := @ih
          { st with
            specLong := false, specUnsigned := false, last := c, buffer := buffer, iOut := iOut }
          (out ++ [c]) later plain.rest sound notPercent behind written'
          (by rw [List.length_append, List.length_singleton]; omega)
        refine ⟨st', step.trans ran, used, reads, ?_⟩
        rwa [List.append_assoc] at writtenEnd
      · obtain rfl : rest = [] := sound
        obtain ⟨later, behind, rfl⟩ := Option.map_eq_some_iff.mp rendered
        obtain ⟨used, rfl⟩ := standard_nil behind
        obtain ⟨buffer, iOut, step, written'⟩ := @percent_step platform [] st out written
          (by rwa [unescaped, List.append_nil])
        rw [unescaped, List.append_nil] at written'
        exact ⟨_, step, used, (List.append_nil _).symm, written'⟩
      · obtain ⟨arg, args, later, given, rfl, notNul, behind, rfl⟩ := standard_token takes rendered
        obtain ⟨right, soundRest⟩ := (sound_token takes).mp sound
        obtain ⟨buffer, iOut, step, written'⟩ := @token_step platform (formatText rest) st out
          directive _ takes written (by rwa [unescaped, List.append_nil])
        rw [unescaped, List.append_nil] at written'
        rw [List.length_append] at room
        rcases @convert_token platform { st with last := chr '%', buffer := buffer, iOut := iOut }
            directive arg args out takes right given written' notNul inside (formatText rest).length
          with ⟨beyond, _⟩ | ⟨buffer', iOut', converted, writtenPiece⟩
        · omega
        obtain ⟨st', ran, used, reads, writtenEnd⟩ := @ih
          { directive.begun { st with last := chr '%', buffer := buffer, iOut := iOut } with
            args := args
            reads := st.reads ++ [((formatText rest).length, arg.type)]
            buffer := buffer'
            iOut := iOut' } (out ++ directive.piece arg) later plain.rest soundRest
          (letter_ne_percent takes) behind writtenPiece (by rw [List.length_append]; omega)
        refine ⟨st', ?_, used, ?_, ?_⟩
        · rw [formatText_cons, step, converted]
          exact ran
        · rw [reads, properReads_token rest takes, List.append_assoc]
          rfl
        · rwa [List.append_assoc] at writtenEnd

/-! ## Formats that are not rendered -/

/-- What is put out when every argument is read in its own conversion.  A `%` that
is still the last character costs the next literal, or is put out again. -/
inductive Emits : Bool → List Directive → List Arg → List UInt8 → Prop where
  | nil (open' : Bool) (args : List Arg) : Emits open' [] args []
  | literal {rest : List Directive} {args : List Arg} {text : List UInt8} (c : UInt8)
      (later : Emits false rest args text) : Emits false (.literal c :: rest) args (c :: text)
  | lost {open' : Bool} {rest : List Directive} {args : List Arg} {text : List UInt8} (c : UInt8)
      (later : Emits open' rest args text) : Emits true (.literal c :: rest) args text
  | percent {rest : List Directive} {args : List Arg} {text : List UInt8} (open' : Bool)
      (later : Emits true rest args text) :
      Emits open' (.percent :: rest) args (escape open' ++ chr '%' :: text)
  | token {directive : Directive} {arg : Arg} {rest : List Directive} {args : List Arg}
      {text : List UInt8} (open' : Bool) (takes : directive.type? = some arg.type)
      (later : Emits false rest args text) :
      Emits open' (directive :: rest) (arg :: args) (escape open' ++ (directive.piece arg ++ text))

/-- What stands in front of a common beginning can be moved behind it. -/
theorem append_shift {α : Type*} {front text moved text' : List α}
    (same : front ++ text = moved ++ (front ++ text')) :
    ∃ moved', moved'.Perm moved ∧ text = moved' ++ text' := by
  rw [← List.append_assoc] at same
  rcases List.append_eq_append_iff.mp same with ⟨moved', split, rest⟩ | ⟨beyond, split, rest⟩
  · have perm : (front ++ moved).Perm (front ++ moved') :=
      split ▸ List.perm_append_comm
    exact ⟨moved', ((List.perm_append_left_iff front).mp perm).symm, rest⟩
  · have lengths := congrArg List.length split
    simp only [List.length_append] at lengths
    obtain rfl : moved = [] := List.length_eq_zero_iff.mp (by omega)
    obtain rfl : beyond = [] := List.length_eq_zero_iff.mp (by omega)
    exact ⟨[], List.Perm.refl _, rest.symm⟩

theorem cons_ne_append {α : Type*} {x : α} {front text text' : List α} (absent : x ∉ front)
    (some' : front ≠ []) : x :: text ≠ front ++ text' := by
  intro same
  cases front with
  | nil => exact some' rfl
  | cons y front =>
      obtain ⟨rfl, _⟩ := List.cons.inj same
      exact absent List.mem_cons_self

theorem escape_eq (open' : Bool) : escape open' = List.replicate open'.toNat (chr '%') := by
  cases open' with
  | true => rfl
  | false => rfl

section Lost

variable {open' : Bool} {directives : List Directive} {args : List Arg} {text out : List UInt8}

/-- A lost literal is missed. -/
theorem Emits.ne_lost (emitted : Emits open' directives args text)
    (rendered : standard directives args = some out) {lost : List UInt8}
    (plain : Plain directives) (noPercent : chr '%' ∉ lost) (some' : lost ≠ []) :
    text ≠ lost ++ out := by
  induction emitted generalizing out lost with
  | nil open' args =>
      obtain ⟨_, rfl⟩ := standard_nil rendered
      intro same
      rw [List.append_nil] at same
      exact some' same.symm
  | literal c later ih =>
      obtain ⟨out', behind, rfl⟩ := Option.map_eq_some_iff.mp rendered
      intro same
      obtain ⟨lost', perm, same'⟩ := @append_shift _ [c] _ lost out' same
      refine ih behind plain.rest (mt perm.mem_iff.mp noPercent) ?_ same'
      rintro rfl
      exact some' perm.nil_eq.symm
  | lost c later ih =>
      obtain ⟨out', behind, rfl⟩ := Option.map_eq_some_iff.mp rendered
      intro same
      refine @ih out' behind (lost ++ [c]) plain.rest ?_ (List.concat_ne_nil c lost) ?_
      · intro member
        rcases List.mem_append.mp member with member | member
        · exact noPercent member
        · exact plain.literal.1 (List.mem_singleton.mp member).symm
      · rw [same, List.append_assoc]
        rfl
  | percent open' later ih =>
      cases open' with
      | true => exact cons_ne_append noPercent some'
      | false => exact cons_ne_append noPercent some'
  | @token directive _ _ _ _ open' takes later ih =>
      obtain ⟨_, _, out', same, _, _, behind, rfl⟩ := standard_token takes rendered
      obtain ⟨rfl, rfl⟩ := List.cons.inj same
      cases open' with
      | true => exact cons_ne_append noPercent some'
      | false =>
          intro same
          obtain ⟨lost', perm, same'⟩ := @append_shift _ (directive.piece _) _ lost out' same
          refine ih behind plain.rest (mt perm.mem_iff.mp noPercent) ?_ same'
          rintro rfl
          exact some' perm.nil_eq.symm

/-- A `%` that was put out again is too much. -/
theorem Emits.ne_extra (emitted : Emits open' directives args text)
    (rendered : standard directives args = some out) (plain : Plain directives) (extra : Nat) :
    out ≠ List.replicate (extra + 1) (chr '%') ++ text := by
  induction emitted generalizing out extra with
  | nil open' args =>
      obtain ⟨_, rfl⟩ := standard_nil rendered
      exact nofun
  | literal c later ih =>
      obtain ⟨out', behind, rfl⟩ := Option.map_eq_some_iff.mp rendered
      intro same
      obtain ⟨same', _⟩ := List.cons.inj same
      exact plain.literal.1 same'
  | lost c later ih =>
      obtain ⟨out', behind, rfl⟩ := Option.map_eq_some_iff.mp rendered
      intro same
      obtain ⟨same', _⟩ := List.cons.inj same
      exact plain.literal.1 same'
  | @percent _ _ text open' later ih =>
      obtain ⟨out', behind, rfl⟩ := Option.map_eq_some_iff.mp rendered
      intro same
      rw [← List.append_assoc, escape_eq, List.replicate_append_replicate] at same
      obtain ⟨moved, perm, same'⟩ := @append_shift _ [chr '%'] out' _ text same
      obtain rfl := List.perm_replicate.mp perm
      rw [Nat.add_right_comm] at same'
      exact ih behind plain.rest _ same'
  | @token directive arg _ _ text open' takes later ih =>
      obtain ⟨_, _, out', same, _, _, behind, rfl⟩ := standard_token takes rendered
      obtain ⟨rfl, rfl⟩ := List.cons.inj same
      intro same
      rw [← List.append_assoc, escape_eq, List.replicate_append_replicate] at same
      obtain ⟨moved, perm, same'⟩ := @append_shift _ (directive.piece arg) out' _ text same
      obtain rfl := List.perm_replicate.mp perm
      rw [Nat.add_right_comm] at same'
      exact ih behind plain.rest _ same'

end Lost

/-- Behind a `%` that is still the last character, nothing comes out right. -/
theorem Emits.eq_nil {directives : List Directive} {args : List Arg} {text : List UInt8}
    (emitted : Emits true directives args text) (rendered : standard directives args = some text)
    (plain : Plain directives) : directives = [] := by
  cases emitted with
  | nil => rfl
  | lost c later =>
      obtain ⟨out', behind, missed⟩ := Option.map_eq_some_iff.mp rendered
      have notPercent := plain.literal.1
      have noPercent : chr '%' ∉ [c] := mt List.mem_singleton.mp notPercent.symm
      exact absurd missed.symm (later.ne_lost behind plain.rest noPercent (List.cons_ne_nil c []))
  | @percent _ _ text _ later =>
      obtain ⟨out', behind, same⟩ := Option.map_eq_some_iff.mp rendered
      obtain ⟨_, same'⟩ := List.cons.inj same
      exact absurd same' (later.ne_extra behind plain.rest 0)
  | @token directive arg _ _ text _ takes later =>
      obtain ⟨_, _, out', given, _, _, behind, same⟩ := standard_token takes rendered
      obtain ⟨rfl, rfl⟩ := List.cons.inj given
      obtain ⟨moved, perm, same'⟩ :=
        @append_shift _ (directive.piece arg) out' [chr '%'] text same.symm
      obtain rfl := List.perm_singleton.mp perm
      exact absurd same' (later.ne_extra behind plain.rest 0)

/-- Every `%%` is the last directive. -/
def PercentLast : List Directive → Prop
  | [] => True
  | .percent :: rest => rest = []
  | _ :: rest => PercentLast rest

theorem percentLast_token {directive : Directive} {type : ArgType} (rest : List Directive)
    (takes : directive.type? = some type) :
    PercentLast (directive :: rest) = PercentLast rest := by
  cases directive with
  | literal | percent => cases takes
  | string | char | number => rfl

/-- So a rendering that comes out right has no `%%` before its end. -/
theorem Emits.percentLast {directives : List Directive} {args : List Arg} {text : List UInt8}
    (emitted : Emits false directives args text) (rendered : standard directives args = some text)
    (plain : Plain directives) : PercentLast directives := by
  induction directives generalizing args text with
  | nil => trivial
  | cons directive rest ih =>
      cases emitted with
      | literal c later =>
          obtain ⟨out', behind, same⟩ := Option.map_eq_some_iff.mp rendered
          obtain ⟨_, rfl⟩ := List.cons.inj same
          exact ih later behind plain.rest
      | percent _ later =>
          obtain ⟨out', behind, same⟩ := Option.map_eq_some_iff.mp rendered
          obtain ⟨_, rfl⟩ := List.cons.inj same
          exact later.eq_nil behind plain.rest
      | @token _ arg _ _ _ _ takes later =>
          obtain ⟨_, _, out', given, _, _, behind, same⟩ := standard_token takes rendered
          obtain ⟨rfl, rfl⟩ := List.cons.inj given
          have same' : _ = out' := List.append_cancel_left
            (show directive.piece arg ++ _ = directive.piece arg ++ out' from same)
          rw [percentLast_token rest takes]
          exact ih later (same' ▸ behind) plain.rest

section Right

variable {platform : Platform} {directives rest : List Directive} {st st' : State}

/-- Where the arguments of the rest are read, less of the format is left. -/
theorem properReads_lt (rest : List Directive) :
    ∀ read ∈ properReads rest, read.1 < (formatText rest).length := by
  induction rest with
  | nil => exact nofun
  | cons directive rest ih =>
      intro read member
      have shorter : (formatText rest).length < (formatText (directive :: rest)).length := by
        rw [formatText_cons, List.length_append]
        have : 0 < directive.text.length := by
          cases directive <;> exact Nat.zero_lt_succ _
        omega
      rcases List.mem_append.mp member with here | later
      · cases takes : directive.type? with
        | none =>
            rw [takes] at here
            cases here
        | some type =>
            rw [takes] at here
            obtain rfl := List.mem_singleton.mp here
            exact shorter
      · exact (ih read later).trans shorter

/-- No argument is read at a character of its own. -/
theorem not_stray {left : Nat} {type : ArgType} {reads : List (Nat × ArgType)}
    (same : reads ++ [(left, type)] <+: reads ++ properReads rest)
    (left_eq : left = (formatText rest).length) : False := by
  obtain ⟨behind, split⟩ := same
  rw [List.append_assoc, List.append_cancel_left_eq] at split
  have member : (left, type) ∈ properReads rest := split ▸ List.mem_cons_self
  exact absurd (properReads_lt rest _ member) (left_eq ▸ Nat.lt_irrefl _)

theorem Written.inside {fmt out : List UInt8} (written : Written out st.buffer st.iOut)
    (ran : vsnprintfLoop platform fmt st = some st')
    (short : (cString (window st'.buffer.cells 0 st'.buffer.size)).length < osioPrintfBufferSz) :
    out.length < osioPrintfBufferSz := by
  by_contra full
  rw [Nat.not_lt, ← written.iOut_eq] at full
  obtain rfl : st = st' := by
    cases fmt with
    | nil => exact Option.some.inj ran
    | cons c rest => exact Option.some.inj ((vsnprintfLoop_break full).symm.trans ran)
  rw [written.string_eq, ← written.iOut_eq] at short
  exact absurd short (Nat.not_lt_of_le full)

theorem Written.inside_escape {fmt out : List UInt8} (written : Written out st.buffer st.iOut)
    (ran : vsnprintfLoop platform (chr '%' :: fmt) st = some st')
    (short : (cString (window st'.buffer.cells 0 st'.buffer.size)).length < osioPrintfBufferSz) :
    (out ++ escape (decide (st.last = chr '%'))).length < osioPrintfBufferSz := by
  obtain ⟨buffer, iOut, opened, behind⟩ :=
    @vsnprintfLoop_percent platform fmt st out written (written.inside ran short)
  exact behind.inside (opened.symm.trans ran) short

/-- A run that reads every argument in its own conversion. -/
theorem vsnprintfLoop_right {out text : List UInt8} (plain : Plain directives)
    (rendered : standard directives st.args = some text) (written : Written out st.buffer st.iOut)
    (ran : vsnprintfLoop platform (formatText directives) st = some st')
    (reads : st'.reads = st.reads ++ properReads directives)
    (short : (cString (window st'.buffer.cells 0 st'.buffer.size)).length < osioPrintfBufferSz) :
    ∃ emitted, Emits (decide (st.last = chr '%')) directives st.args emitted ∧
      Written (out ++ emitted) st'.buffer st'.iOut ∧
      (st.last ≠ chr '%' → PercentLast directives →
        Sound st.specLong st.specUnsigned directives) := by
  induction directives generalizing st out text with
  | nil =>
      obtain rfl := Option.some.inj ran
      refine ⟨[], .nil _ _, ?_, fun _ _ => trivial⟩
      rwa [List.append_nil]
  | cons directive rest ih =>
      rcases takes_cases directive with ⟨c, rfl⟩ | rfl | ⟨type, takes⟩
      · obtain ⟨notPercent, notNul⟩ := plain.literal
        obtain ⟨later, behind, rfl⟩ := Option.map_eq_some_iff.mp rendered
        have room := written.inside ran short
        by_cases open' : st.last = chr '%'
        · -- It is lost, and could only have read an argument that is not its own.
          have inside : st.iOut < osioPrintfBufferSz := by rwa [written.iOut_eq]
          obtain ⟨mid, converted, ran⟩ : ∃ mid, convert platform c (formatText rest).length st = some mid ∧
              vsnprintfLoop platform (formatText rest) mid = some st' :=
            Option.bind_eq_some_iff.mp ((vsnprintfLoop_convert inside open').symm.trans ran)
          rcases convert_cases converted with ⟨type, stray⟩ | ⟨percent, _⟩ | ⟨last, specLong, rfl⟩
          · have start := vsnprintfLoop_reads ran
            rw [stray, reads] at start
            exact (@not_stray rest _ _ _ start rfl).elim
          · exact absurd percent notPercent
          · obtain ⟨emitted, emits, written', _⟩ := @ih { st with last := last, specLong := specLong }
              out later plain.rest behind written ran reads
            refine ⟨emitted, ?_, written', fun closed => absurd open' closed⟩
            rw [decide_eq_true open']
            exact .lost c emits
        · obtain ⟨buffer, iOut, step, written'⟩ := @literal_step platform (formatText rest) st out c
            written room open' notPercent notNul
          obtain ⟨emitted, emits, writtenEnd, sound⟩ := @ih
            { st with
              specLong := false, specUnsigned := false, last := c, buffer := buffer, iOut := iOut }
            (out ++ [c]) later plain.rest behind written' (step.symm.trans ran) reads
          rw [decide_eq_false notPercent] at emits
          refine ⟨c :: emitted, ?_, ?_, fun _ last => sound notPercent last⟩
          · rw [decide_eq_false open']
            exact .literal c emits
          · rwa [List.append_assoc] at writtenEnd
      · obtain ⟨later, behind, rfl⟩ := Option.map_eq_some_iff.mp rendered
        obtain ⟨buffer, iOut, step, written'⟩ := @percent_step platform (formatText rest) st out
          written (written.inside_escape ran short)
        obtain ⟨emitted, emits, writtenEnd, _⟩ := @ih
          { st with last := chr '%', buffer := buffer, iOut := iOut } _ later plain.rest behind written'
          (step.symm.trans ran) reads
        refine ⟨escape (decide (st.last = chr '%')) ++ chr '%' :: emitted, .percent _ emits, ?_,
          fun _ last => last⟩
        rwa [List.append_assoc, List.append_assoc] at writtenEnd
      · obtain ⟨arg, args, later, given, rfl, notNul, behind, rfl⟩ := standard_token takes rendered
        have ran' : vsnprintfLoop platform (chr '%' :: (directive.spelling ++ formatText rest)) st =
            some st' := by
          rwa [formatText_cons, (text_of_takes takes).1] at ran
        obtain ⟨buffer, iOut, step, written'⟩ := @token_step platform (formatText rest) st out
          directive _ takes written (written.inside_escape ran' short)
        obtain ⟨mid, converted, ran⟩ := Option.bind_eq_some_iff.mp (step.symm.trans ran)
        have request := @convert_reads platform { st with last := chr '%', buffer := buffer, iOut := iOut }
          mid directive _ takes _ converted
        have right : directive.request st = arg.type := by
          have start := vsnprintfLoop_reads ran
          rw [request, reads, properReads_token rest takes] at start
          have both := (List.prefix_append_right_inj _).mp start
          exact (Prod.mk.inj (List.cons_prefix_cons.mp both).1).2
        rcases @convert_token platform { st with last := chr '%', buffer := buffer, iOut := iOut }
            directive arg args _ takes right given written' notNul (written.inside_escape ran' short)
            (formatText rest).length
          with ⟨_, beyond⟩ | ⟨buffer', iOut', converted', writtenPiece⟩
        · exact absurd (beyond.symm.trans converted) nofun
        obtain rfl := Option.some.inj (converted'.symm.trans converted)
        obtain ⟨emitted, emits, writtenEnd, sound⟩ := @ih
          { directive.begun { st with last := chr '%', buffer := buffer, iOut := iOut } with
            args := args
            reads := st.reads ++ [((formatText rest).length, arg.type)]
            buffer := buffer'
            iOut := iOut' } _ later plain.rest behind writtenPiece ran
          (by rw [reads, properReads_token rest takes, List.append_assoc]; rfl)
        have closed := letter_ne_percent takes
        have emits' : Emits (decide (directive.letter = chr '%')) rest args emitted := emits
        rw [decide_eq_false closed] at emits'
        refine ⟨escape (decide (st.last = chr '%')) ++ (directive.piece arg ++ emitted), ?_, ?_, ?_⟩
        · rw [given]
          exact .token _ takes emits'
        · rwa [List.append_assoc, List.append_assoc] at writtenEnd
        · intro _ last
          rw [percentLast_token rest takes] at last
          exact (sound_token takes).mpr ⟨right, sound closed last⟩

end Right

/-! ## The result -/

theorem written_start (args : List Arg) : Written [] (start args).buffer (start args).iOut where
  size_eq := rfl
  cells_eq := (blit_nil _ _).symm
  noNul := nofun
  short := Nat.zero_lt_succ _
  iOut_eq := rfl

theorem start_closed (args : List Arg) : (start args).last ≠ chr '%' :=
  show (0 : UInt8) ≠ chr '%' by decide

/-- A format is rendered right exactly when `%%` comes last in it and no number is
read with flags left over from another. -/
theorem vsnprintf_iff {platform : Platform} {directives : List Directive} {args : List Arg}
    {out : List UInt8} (plain : Plain directives) (rendered : standard directives args = some out)
    (short : out.length < osioPrintfBufferSz) :
    Renders platform directives args out ↔ Sound false false directives := by
  constructor
  · rintro ⟨st, ran, _, reads, string⟩
    obtain ⟨emitted, emits, written, sound⟩ := vsnprintfLoop_right plain rendered (written_start args)
      ran reads (by rwa [string])
    obtain rfl : out = emitted := string.symm.trans written.string_eq
    exact sound (start_closed args) (emits.percentLast rendered plain)
  · intro sound
    obtain ⟨st, ran, used, reads, written⟩ := vsnprintfLoop_sound plain sound (start_closed args)
      rendered (written_start args) (by rwa [List.length_nil, Nat.zero_add])
    exact ⟨st, ran, used, reads, written.string_eq⟩

theorem vsnprintf_iff_numbers :
    Renders .unix [.number false .d, .literal (chr ' '), .number true .x, .percent]
      [.int (-3), .unsignedLong 10] [chr '-', chr '3', chr ' ', chr 'a', chr '%'] :=
  (vsnprintf_iff (by decide) rfl (by decide)).mpr ⟨nofun, nofun, nofun, nofun, rfl⟩

/-- Behind `%%`, the `a` is taken for a conversion. -/
theorem not_always_renders :
    ¬ ∀ (platform : Platform) (directives : List Directive) (args : List Arg) (out : List UInt8),
      Plain directives → standard directives args = some out → out.length < osioPrintfBufferSz →
        Renders platform directives args out := by
  intro always
  obtain ⟨st, ran, _, _, string⟩ := always .win16 [.percent, .literal (chr 'a')] []
    [chr '%', chr 'a'] (by decide) rfl (by decide)
  obtain ⟨buffer, iOut, step, written⟩ := @percent_step .win16 [chr 'a'] _ []
    (written_start []) (by decide)
  have room : iOut < osioPrintfBufferSz := by
    rw [written.iOut_eq]
    decide
  have stopped := (ran.symm.trans step).trans (vsnprintfLoop_convert room rfl)
  obtain rfl := Option.some.inj stopped
  exact absurd (written.string_eq.symm.trans string) (by decide)

end MinputHop.Oldc
