import MinputHop.Program.Language

/-!
# Integers on hosts of either byte order

The formatter reverses the memory of an integer on every host, while the macros
that read one swap only where `SYNPROTO_ENDIAN` is not defined.  The two undo
each other on a little-endian host; on a big-endian one they do so only for
integers whose bytes read the same from both ends.
-/

namespace MinputHop

open FlatMemory

/-- An integer token with its argument. -/
abbrev Field := IntWidth × Int

/-- The format of a list of integer tokens. -/
def fieldFormat (fields : List Field) : List Directive := fields.map fun field => .int field.1

def fieldArgs (fields : List Field) : List VaArg := fields.map fun field => .int field.2

/-- The fields in network order, one after another. -/
def fieldBytes (fields : List Field) : List UInt8 :=
  (fields.map fun field => networkOrder field.1.bytes field.2).flatten

/-- `synproto_exval_8`, `_16` or `_32`, into an unsigned variable of that width. -/
def exval (build : Build) (buffer : Nat → UInt8) (offset : Nat) : IntWidth → Nat
  | .one => (synprotoExval8 buffer offset).toNat
  | .two => (synprotoExval16 build buffer offset).toNat
  | .four => (synprotoExval32 build buffer offset).toNat

/-- Fields of these widths read back, each behind the ones before it. -/
def readFields (build : Build) (buffer : Nat → UInt8) : Nat → List IntWidth → List Field
  | _, [] => []
  | offset, width :: rest =>
      (width, (exval build buffer offset width : Int)) ::
        readFields build buffer (offset + width.bytes) rest

/-- The formatter writes the fields in network order, and each is read back
modulo its width. -/
def WritesNetworkOrder (build : Build) (fields : List Field) : Prop :=
  ∀ bufSz, ∃ st', synprotoVprintf build.order bufSz (formatText (fieldFormat fields))
      (fieldArgs fields) = some st' ∧ st'.args = [] ∧
    ∀ base cells,
      window (applyStores base cells st'.stores) base st'.outPos = fieldBytes fields ∧
      readFields build (applyStores base cells st'.stores) base (fields.map Prod.fst) =
        fields.map fun field => (field.1, field.2 % 256 ^ field.1.bytes)

/-- Fields read out of a buffer and written again give the same bytes. -/
def Reproduces (build : Build) (buffer : Nat → UInt8) (offset : Nat) (widths : List IntWidth) :
    Prop :=
  ∀ bufSz, ∃ st', synprotoVprintf build.order bufSz
      (formatText (fieldFormat (readFields build buffer offset widths)))
      (fieldArgs (readFields build buffer offset widths)) = some st' ∧ st'.args = [] ∧
    ∀ base cells, window (applyStores base cells st'.stores) base st'.outPos =
      window buffer offset (widths.map IntWidth.bytes).sum

/-- The integer reads the same from both ends. -/
def Symmetric (field : Field) : Prop :=
  (networkOrder field.1.bytes field.2).reverse = networkOrder field.1.bytes field.2

/-! ## Writing -/

@[simp] theorem length_networkOrder (width : Nat) (n : Int) :
    (networkOrder width n).length = width :=
  BigEndian.length_encode width _

@[simp] theorem length_intText (order : ByteOrder) (width : Nat) (n : Int) :
    (intText order width n).length = width := by
  rw [intText, List.length_reverse, length_bytes]

/-- Network order is what the formatter puts out, except for lopsided integers on
a big-endian host. -/
theorem intText_eq_iff (order : ByteOrder) (field : Field) :
    intText order field.1.bytes field.2 = networkOrder field.1.bytes field.2 ↔
      order = .little ∨ Symmetric field := by
  cases order with
  | little => exact iff_of_true (intText_eq_networkOrder _ _) (.inl rfl)
  | big =>
      constructor
      · exact .inr
      · rintro (same | symmetric)
        · exact absurd same nofun
        · exact symmetric

theorem clean_fieldFormat (fields : List Field) : Clean false (fieldFormat fields) := by
  induction fields with
  | nil => trivial
  | cons field rest ih => exact ih

theorem render_fieldFormat (order : ByteOrder) (fields : List Field) :
    render order (fieldFormat fields) (fieldArgs fields) =
      some ((fields.map fun field => intText order field.1.bytes field.2).flatten, []) := by
  induction fields with
  | nil => rfl
  | cons field rest ih =>
      rw [fieldFormat, List.map_cons, ← fieldFormat, fieldArgs, List.map_cons, ← fieldArgs, render,
        ih]
      rfl

/-- Pieces of the same lengths are the same one by one if they are the same in a row. -/
theorem flatten_map_eq_iff {α : Type} {f g : α → List UInt8}
    (sameLength : ∀ a, (f a).length = (g a).length) (l : List α) :
    (l.map f).flatten = (l.map g).flatten ↔ ∀ a ∈ l, f a = g a := by
  induction l with
  | nil => exact iff_of_true rfl (List.forall_mem_nil _)
  | cons a l ih =>
      rw [List.map_cons, List.map_cons, List.flatten_cons, List.flatten_cons, List.forall_mem_cons,
        ← ih]
      constructor
      · intro same
        exact List.append_inj same (sameLength a)
      · rintro ⟨first, rest⟩
        rw [first, rest]

theorem flatten_intText_eq_iff (order : ByteOrder) (fields : List Field) :
    (fields.map fun field => intText order field.1.bytes field.2).flatten = fieldBytes fields ↔
      order = .little ∨ ∀ field ∈ fields, Symmetric field := by
  rw [fieldBytes, flatten_map_eq_iff (fun field => by simp)]
  constructor
  · intro each
    by_cases little : order = .little
    · exact .inl little
    · exact .inr fun field member =>
        ((intText_eq_iff order field).mp (each field member)).resolve_left little
  · rintro (little | symmetric) field member
    · exact (intText_eq_iff order field).mpr (.inl little)
    · exact (intText_eq_iff order field).mpr (.inr (symmetric field member))

/-- What a call of the formatter leaves in memory. -/
theorem synprotoVprintf_fields (order : ByteOrder) (fields : List Field) (bufSz : Nat) :
    ∃ st', synprotoVprintf order bufSz (formatText (fieldFormat fields)) (fieldArgs fields) =
        some st' ∧ st'.args = [] ∧
      ∀ base cells, window (applyStores base cells st'.stores) base st'.outPos =
        (fields.map fun field => intText order field.1.bytes field.2).flatten := by
  obtain ⟨st', ran, writes, used⟩ := synprotoVprintf_render bufSz (clean_fieldFormat fields)
    (render_fieldFormat order fields)
  refine ⟨st', ran, used, fun base cells => ?_⟩
  have length := writes.outPos_eq.trans (Nat.zero_add _)
  have stored := writes.stores_eq base cells
  change _ = blit cells (base + 0) _ at stored
  rw [length, stored, Nat.add_zero, window_blit]

/-! ## Reading -/

/-- The macros read network order, at every width. -/
theorem exval_eq {build : Build} (matched : build.Matched) (buffer : Nat → UInt8) (offset : Nat)
    (width : IntWidth) :
    exval build buffer offset width = BigEndian.value (window buffer offset width.bytes) := by
  cases width with
  | one => simp [exval, synprotoExval8, IntWidth.bytes, window, BigEndian.value]
  | two => exact toNat_synprotoExval16 matched buffer offset
  | four => exact toNat_synprotoExval32 matched buffer offset

/-- A field read and put in network order gives its bytes. -/
theorem networkOrder_exval {build : Build} (matched : build.Matched) (buffer : Nat → UInt8)
    (offset : Nat) (width : IntWidth) :
    networkOrder width.bytes (exval build buffer offset width) =
      window buffer offset width.bytes := by
  have written := BigEndian.encode_value (window buffer offset width.bytes)
  have nonneg : ∀ n m : Nat, ((n : Int) % 256 ^ m).toNat = n % 256 ^ m := by
    intro n m
    norm_cast
  rw [length_window] at written
  rw [networkOrder, nonneg, BigEndian.encode_mod, exval_eq matched, written]

theorem fieldBytes_readFields {build : Build} (matched : build.Matched) (buffer : Nat → UInt8)
    (offset : Nat) (widths : List IntWidth) :
    fieldBytes (readFields build buffer offset widths) =
      window buffer offset (widths.map IntWidth.bytes).sum := by
  induction widths generalizing offset with
  | nil => rfl
  | cons width rest ih =>
      have later := ih (offset + width.bytes)
      rw [fieldBytes] at later
      rw [readFields, fieldBytes, List.map_cons, List.flatten_cons, later, List.map_cons,
        List.sum_cons, window_add, networkOrder_exval matched]

/-- Network order spells the number modulo its width. -/
theorem value_networkOrder (width : Nat) (n : Int) :
    (BigEndian.value (networkOrder width n) : Int) = n % 256 ^ width := by
  have modulus : (0 : Int) < 256 ^ width := Int.pow_pos (by decide)
  have nonneg := Int.emod_nonneg n (Int.ne_of_gt modulus)
  have below : (n % 256 ^ width).toNat < 256 ^ width := by
    rw [Int.toNat_lt nonneg]
    exact_mod_cast Int.emod_lt_of_pos n modulus
  rw [networkOrder, BigEndian.value_encode_of_lt below, Int.toNat_of_nonneg nonneg]

/-- Fields that lie in memory in network order are read modulo their widths. -/
theorem readFields_of_bytes {build : Build} (matched : build.Matched) {buffer : Nat → UInt8}
    {offset length : Nat} {fields : List Field}
    (there : window buffer offset length = fieldBytes fields) :
    readFields build buffer offset (fields.map Prod.fst) =
      fields.map fun field => (field.1, field.2 % 256 ^ field.1.bytes) := by
  induction fields generalizing offset length with
  | nil => rfl
  | cons field rest ih =>
      have total := congrArg List.length there
      rw [fieldBytes, List.map_cons, List.flatten_cons] at there total
      rw [length_window, List.length_append, length_networkOrder] at total
      obtain rfl : length = field.1.bytes + (fieldBytes rest).length := total
      rw [window_add] at there
      obtain ⟨first, later⟩ := List.append_inj there (by rw [length_window, length_networkOrder])
      have value : (exval build buffer offset field.1 : Int) = field.2 % 256 ^ field.1.bytes := by
        rw [exval_eq matched, first, value_networkOrder]
      rw [List.map_cons, List.map_cons, readFields, value, ih later]

/-! ## Both together -/

theorem writesNetworkOrder_iff {build : Build} (matched : build.Matched) (fields : List Field) :
    WritesNetworkOrder build fields ↔
      build.order = .little ∨ ∀ field ∈ fields, Symmetric field := by
  rw [← flatten_intText_eq_iff]
  constructor
  · intro writes
    obtain ⟨st', ran, _, written⟩ := writes 0
    obtain ⟨st, ran', _, stored⟩ := synprotoVprintf_fields build.order fields 0
    cases ran.symm.trans ran'
    exact (stored 0 fun _ => 0).symm.trans (written 0 fun _ => 0).1
  · intro same bufSz
    obtain ⟨st', ran, used, stored⟩ := synprotoVprintf_fields build.order fields bufSz
    refine ⟨st', ran, used, fun base cells => ?_⟩
    have there := (stored base cells).trans same
    exact ⟨there, readFields_of_bytes matched there⟩

theorem reproduces_iff {build : Build} (matched : build.Matched) (buffer : Nat → UInt8)
    (offset : Nat) (widths : List IntWidth) :
    Reproduces build buffer offset widths ↔
      build.order = .little ∨ ∀ field ∈ readFields build buffer offset widths, Symmetric field := by
  rw [← flatten_intText_eq_iff, fieldBytes_readFields matched]
  constructor
  · intro reproduces
    obtain ⟨st', ran, _, written⟩ := reproduces 0
    obtain ⟨st, ran', _, stored⟩ := synprotoVprintf_fields build.order
      (readFields build buffer offset widths) 0
    cases ran.symm.trans ran'
    exact (stored 0 fun _ => 0).symm.trans (written 0 fun _ => 0)
  · intro same bufSz
    obtain ⟨st', ran, used, stored⟩ := synprotoVprintf_fields build.order
      (readFields build buffer offset widths) bufSz
    exact ⟨st', ran, used, fun base cells => (stored base cells).trans same⟩

/-- The encoder and the decoder agree exactly on little-endian hosts and on
integers that read the same from both ends. -/
theorem hostOrder_iff {build : Build} (matched : build.Matched) (fields : List Field)
    (buffer : Nat → UInt8) (offset : Nat) (widths : List IntWidth) :
    WritesNetworkOrder build fields ∧ Reproduces build buffer offset widths ↔
      build.order = .little ∨
        (∀ field ∈ fields, Symmetric field) ∧
          ∀ field ∈ readFields build buffer offset widths, Symmetric field := by
  rw [writesNetworkOrder_iff matched, reproduces_iff matched, ← or_and_left]

/-! ### One field on a big-endian host -/

theorem hostOrder_iff_big :
    WritesNetworkOrder ⟨.big, true⟩ [(.two, 257)] ∧
        Reproduces ⟨.big, true⟩ (fun _ => 1) 0 [.two, .four] ↔
      (⟨.big, true⟩ : Build).order = .little ∨
        (∀ field ∈ [((.two, 257) : Field)], Symmetric field) ∧
          ∀ field ∈ readFields ⟨.big, true⟩ (fun _ => 1) 0 [.two, .four], Symmetric field :=
  hostOrder_iff (by rfl) _ _ _ _

/-- The number 1 in two bytes is read back as 256. -/
theorem hostOrder_not_always :
    ¬∀ (build : Build) (fields : List Field) (buffer : Nat → UInt8) (offset : Nat)
      (widths : List IntWidth), build.Matched →
      WritesNetworkOrder build fields ∧ Reproduces build buffer offset widths := by
  intro always
  obtain ⟨writes, _⟩ := always ⟨.big, true⟩ [(.two, 1)] (fun _ => 0) 0 [] rfl
  obtain ⟨st', ran, _, written⟩ := writes 16
  have stored : (synprotoVprintf .big 16 (formatText [.int .two]) [.int 1]).map
      VprintfState.stores = some [(1, 0), (0, 1)] := by decide
  have length : (synprotoVprintf .big 16 (formatText [.int .two]) [.int 1]).map
      VprintfState.outPos = some 2 := by decide
  change synprotoVprintf .big 16 (formatText [.int .two]) [.int 1] = some st' at ran
  rw [ran, Option.map_some, Option.some.injEq] at stored length
  have bytes := (written 0 fun _ => 0).1
  rw [stored, length] at bytes
  exact absurd bytes (by decide)

end MinputHop
