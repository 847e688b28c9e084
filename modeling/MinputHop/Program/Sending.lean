import MinputHop.Program.OutputBounds
import MinputHop.Program.Reassembly

/-!
# What `synproto_send` puts in front of a payload

The header is written into the first four bytes of the buffer that the formatter
filled from the fifth on.  So what is sent is a number and the output of the
formatter, for every format that is read to its end; but of a forced size the
code takes over only that there is one.
-/

namespace MinputHop

open FlatMemory Framing

/-! ## What is sent -/

/-- The number that goes in front of a payload, as it is documented. -/
def documentedSize (forceSz : UInt8) (payload : List UInt8) : Nat :=
  if forceSz ≠ 0 then forceSz.toNat else payload.length

/-- The one call sends a header and the output. -/
theorem synprotoSend_frame {fmt : String} {args : List VaArg} {st : VprintfState}
    (ran : synprotoVprintf makefileBuild.order (sockbufSz - 4) (ascii fmt) args = some st)
    (small : 4 + st.outPos < 2 ^ 32) (sockfd : Int) (forceSz : UInt8) (s : Sys) :
    (synprotoSend sockfd forceSz fmt args s).2.calls = s.calls ++
      [.send sockfd
        (BigEndian.encode 4 (if forceSz ≠ 0 then 4 else st.output.length) ++ st.output)] := by
  rw [synprotoSend_formatted ran small]
  cases st.invalidToken with
  | none => exact ((Follows.refl s).call rfl).calls_eq
  | some token => exact ((Follows.refl s).log.call rfl).calls_eq

/-- A call sends what is documented: the formatter's output behind its header,
all of it from inside of the buffer; and to a receiver a forced size within the
payload is the size of the first frame. -/
def Frames (fmt : String) (args : List VaArg) (forceSz : UInt8) : Prop :=
  ∃ st, synprotoVprintf makefileBuild.order (sockbufSz - 4) (ascii fmt) args = some st ∧
    (∀ store ∈ st.stores, 4 + store.1 < sockbufSz + 1) ∧
    ∀ sockfd s, ∃ bytes,
      (synprotoSend sockfd forceSz fmt args s).2.calls = s.calls ++ [.send sockfd bytes] ∧
      bytes = BigEndian.encode 4 (documentedSize forceSz st.output) ++ st.output ∧
      (forceSz ≠ 0 → forceSz.toNat ≤ st.output.length →
        wireCode.next? bytes =
          some (lengthPrefixed (st.output.take forceSz.toNat), st.output.drop forceSz.toNat))

/-- A receiver cuts off as many bytes as the header says. -/
theorem next?_encode {payload : List UInt8} {size : Nat} (within : size ≤ payload.length)
    (short : size < 2 ^ 32) :
    wireCode.next? (BigEndian.encode 4 size ++ payload) =
      some (lengthPrefixed (payload.take size), payload.drop size) := by
  have taken : (payload.take size).length = size := List.length_take_of_le within
  have frame : wireCode.IsFrame (lengthPrefixed (payload.take size)) :=
    isFrame_lengthPrefixed (by rw [taken]; exact short)
  have split : BigEndian.encode 4 size ++ payload =
      lengthPrefixed (payload.take size) ++ payload.drop size := by
    rw [lengthPrefixed, taken, List.append_assoc, List.take_append_drop]
  rw [split]
  exact frame.next?_append _

theorem Frames.fits {fmt : String} {args : List VaArg} {forceSz : UInt8}
    (frames : Frames fmt args forceSz) :
    ∃ size, formatSize? (ascii fmt) args = some size ∧ 4 + size ≤ sockbufSz + 1 := by
  obtain ⟨st, ran, inside, _⟩ := frames
  obtain ⟨asks, stored⟩ := formatSize?_of_synprotoVprintf ran
  refine ⟨st.outPos, asks, ?_⟩
  by_contra beyond
  rw [sockbufSz] at inside beyond
  obtain ⟨store, member, last⟩ := stored.every (st.outPos - 1) (Nat.zero_le _) (by omega)
  have below := inside store member
  omega

/-- A header of 4 is right for one size only. -/
theorem Frames.forced {fmt : String} {args : List VaArg} {forceSz : UInt8}
    (frames : Frames fmt args forceSz) : forceSz = 0 ∨ forceSz = 4 := by
  by_cases zero : forceSz = 0
  · exact .inl zero
  right
  obtain ⟨size, asks, fits⟩ := frames.fits
  obtain ⟨st, ran, _, sends⟩ := frames
  rw [(formatSize?_of_synprotoVprintf ran).1, Option.some_inj] at asks
  rw [sockbufSz] at fits
  obtain ⟨bytes, calls, framed, _⟩ := sends 0 defaultSetup
  have sent := synprotoSend_frame ran (by omega) 0 forceSz defaultSetup
  rw [sent, framed, documentedSize, if_pos zero, if_pos zero] at calls
  have same := List.append_cancel_left calls
  rw [List.cons.injEq, Event.send.injEq, List.append_left_inj] at same
  have header := congrArg BigEndian.value same.1.2
  have short : forceSz.toNat < 256 ^ 4 := Nat.lt_trans forceSz.toNat_lt (by decide)
  rw [BigEndian.value_encode_of_lt (by decide), BigEndian.value_encode_of_lt short] at header
  exact UInt8.toNat_inj.mp header.symm

theorem Frames.of_fits {fmt : String} {args : List VaArg} {forceSz : UInt8} {size : Nat}
    (sizes : forceSz = 0 ∨ forceSz = 4) (asks : formatSize? (ascii fmt) args = some size)
    (fits : 4 + size ≤ sockbufSz + 1) : Frames fmt args forceSz := by
  obtain ⟨st, ran, length, stored⟩ :=
    synprotoVprintf_size asks makefileBuild.order (sockbufSz - 4)
  refine ⟨st, ran, fun store member => ?_, fun sockfd s => ?_⟩
  · have below := stored.below store member
    omega
  · rw [sockbufSz] at fits
    have header : (if forceSz ≠ 0 then 4 else st.output.length) =
        documentedSize forceSz st.output := by
      rcases sizes with rfl | rfl <;> rfl
    have sent := synprotoSend_frame ran (by omega) sockfd forceSz s
    rw [header] at sent
    refine ⟨_, sent, rfl, fun forced within => ?_⟩
    rw [documentedSize, if_pos forced]
    exact next?_encode within (Nat.lt_trans forceSz.toNat_lt (by decide))

/-- What is documented is sent exactly when no other size than 4 is forced, and
what the format asks for with its arguments fits behind the header. -/
theorem frames_iff (fmt : String) (args : List VaArg) (forceSz : UInt8) :
    Frames fmt args forceSz ↔
      (forceSz = 0 ∨ forceSz = 4) ∧
        ∃ size, formatSize? (ascii fmt) args = some size ∧ 4 + size ≤ sockbufSz + 1 := by
  constructor
  · exact fun frames => ⟨frames.forced, frames.fits⟩
  · exact fun ⟨sizes, _, asks, fits⟩ => .of_fits sizes asks fits

/-- The keepalive reply with another size forced on it. -/
theorem frames_not_always :
    ¬∀ (directives : List Directive) (fmt : String) (args : List VaArg) (out : List UInt8)
      (forceSz : UInt8), ascii fmt = formatText directives → LiteralsPlain directives →
      documented directives args = some out → out.length ≤ sockbufSz - 4 →
      Frames fmt args forceSz := by
  intro always
  have frames := always keepaliveFormat "CALV%4iCNOP" [.int 4]
    (ascii "CALV" ++ [0, 0, 0, 4] ++ ascii "CNOP") 8 (by decide)
    (by unfold LiteralsPlain; decide) (by decide) (by decide)
  exact absurd frames.forced (by decide)

/-- A documented format that the formatter reads right asks for what is documented. -/
theorem formatSize?_of_documented {directives : List Directive} {args : List VaArg}
    {out : List UInt8} (clean : Clean false directives)
    (given : documented directives args = some out) :
    formatSize? (formatText directives) args = some out.length := by
  obtain ⟨st', ran, writes, _⟩ :=
    synprotoVprintf_render (sockbufSz - 4) clean (render_of_documented given)
  have length : st'.outPos = out.length := writes.outPos_eq.trans (Nat.zero_add _)
  rw [← length]
  exact (formatSize?_of_synprotoVprintf ran).1

/-- So on those only the forced size decides. -/
theorem Frames.iff_of_documented {directives : List Directive} {fmt : String} {args : List VaArg}
    {out : List UInt8} (text : ascii fmt = formatText directives) (clean : Clean false directives)
    (given : documented directives args = some out) (short : out.length ≤ sockbufSz - 4)
    (forceSz : UInt8) : Frames fmt args forceSz ↔ forceSz = 0 ∨ forceSz = 4 := by
  have asks : formatSize? (ascii fmt) args = some out.length := by
    rw [text]
    exact formatSize?_of_documented clean given
  have fits : 4 + out.length ≤ sockbufSz + 1 := by
    rw [sockbufSz] at short ⊢
    omega
  exact ⟨Frames.forced, fun sizes => .of_fits sizes asks fits⟩

end MinputHop
