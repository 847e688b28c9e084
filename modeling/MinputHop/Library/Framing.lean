import Mathlib.Algebra.GroupWithZero.Nat
import Mathlib.Data.List.Infix
import Mathlib.Tactic.Common

/-!
# Streams of self-announcing frames

A frame starts with a header of fixed length from which its whole size can be
read.  A stream is any concatenation of frames, and it may be cut anywhere on
its way to the receiver.  The receiver keeps what it has not delivered yet and
cuts frames off its front; `Faithful` says that nothing but the frames of the
stream, in order, can come out of it.
-/

namespace Framing

variable {α : Type*}

/-- How a receiver finds the size of the frame in front of it. -/
structure Code (α : Type*) where
  /-- Number of symbols that have to be there before the size can be read. -/
  header : Nat
  header_pos : 0 < header
  /-- Announced size of the whole frame, header included. -/
  size : List α → Nat
  size_take : ∀ buf, size (buf.take header) = size buf

namespace Code

variable (code : Code α)

/-- A frame has a complete header that announces the true size. -/
structure IsFrame (frame : List α) : Prop where
  header_le : code.header ≤ frame.length
  size_eq : code.size frame = frame.length

/-- Cut the frame in front off a buffer, if all of it is there. -/
def next? (buf : List α) : Option (List α × List α) :=
  if code.header ≤ buf.length ∧ code.size buf ≤ buf.length then
    some (buf.take (code.size buf), buf.drop (code.size buf))
  else none

/-- Cut frames off until nothing is left; fails on a remainder. -/
def decodeWithin : Nat → List α → Option (List (List α))
  | _, [] => some []
  | 0, _ :: _ => none
  | fuel + 1, buf@(_ :: _) =>
      match code.next? buf with
      | none => none
      | some (frame, rest) => (decodeWithin fuel rest).map (List.cons frame)

/-- All frames of a buffer that consists of complete frames. -/
def decode (buf : List α) : Option (List (List α)) := code.decodeWithin buf.length buf

variable {code}

theorem IsFrame.length_pos {frame : List α} (isFrame : code.IsFrame frame) : 0 < frame.length :=
  Nat.lt_of_lt_of_le code.header_pos isFrame.header_le

/-- Prefixes of one list agree on what both of them contain. -/
theorem take_eq_take_of_start {first second : List α} (start : first <+: second) {k : Nat}
    (within : k ≤ first.length) : first.take k = second.take k := by
  obtain ⟨rest, rfl⟩ := start
  exact (List.take_append_of_le_length within).symm

/-- A buffer with a complete header announces the size of the frame it starts in. -/
theorem IsFrame.size_of_start {frame rest buf : List α} (isFrame : code.IsFrame frame)
    (start : buf <+: frame ++ rest) (complete : code.header ≤ buf.length) :
    code.size buf = frame.length := by
  have sameHeader : buf.take code.header = frame.take code.header := by
    rw [take_eq_take_of_start start complete,
      List.take_append_of_le_length isFrame.header_le]
  rw [← code.size_take buf, sameHeader, code.size_take, isFrame.size_eq]

/-- The receiver cuts off the frame in front, whatever follows it. -/
theorem IsFrame.next?_append {frame : List α} (isFrame : code.IsFrame frame) (rest : List α) :
    code.next? (frame ++ rest) = some (frame, rest) := by
  have complete : code.header ≤ (frame ++ rest).length := by
    rw [List.length_append]
    exact Nat.le_add_right_of_le isFrame.header_le
  have announced : code.size (frame ++ rest) = frame.length :=
    isFrame.size_of_start (List.prefix_refl _) complete
  rw [Code.next?, if_pos ⟨complete, by rw [announced]; simp⟩, announced]
  simp

theorem decodeWithin_flatten {frames : List (List α)}
    (isFrame : ∀ frame ∈ frames, code.IsFrame frame) {fuel : Nat}
    (enough : frames.flatten.length ≤ fuel) :
    code.decodeWithin fuel frames.flatten = some frames := by
  induction frames generalizing fuel with
  | nil => simp [Code.decodeWithin]
  | cons frame frames ih =>
      have first := isFrame frame List.mem_cons_self
      have others : ∀ other ∈ frames, code.IsFrame other :=
        fun other member => isFrame other (List.mem_cons_of_mem _ member)
      have positive := first.length_pos
      rw [List.flatten_cons] at enough ⊢
      rw [List.length_append] at enough
      obtain ⟨symbol, tail, shape⟩ := List.exists_cons_of_length_pos
        (l := frame ++ frames.flatten) (by rw [List.length_append]; omega)
      cases fuel with
      | zero => omega
      | succ fuel =>
          have cut := first.next?_append frames.flatten
          rw [shape] at cut ⊢
          rw [Code.decodeWithin, cut]
          dsimp only
          rw [ih others (by omega), Option.map_some]

/-- A concatenation of frames decodes completely, into those frames. -/
theorem decode_flatten {frames : List (List α)}
    (isFrame : ∀ frame ∈ frames, code.IsFrame frame) :
    code.decode frames.flatten = some frames :=
  decodeWithin_flatten isFrame (Nat.le_refl _)

end Code

/-! ## Positions in a stream -/

/-- Where pieces of these lengths start, laid end to end from an offset on. -/
def starts : Nat → List Nat → List Nat
  | _, [] => []
  | off, length :: rest => off :: starts (off + length) rest

theorem length_mul_le_sum {lengths : List Nat} {least : Nat}
    (long : ∀ length ∈ lengths, least ≤ length) : lengths.length * least ≤ lengths.sum := by
  induction lengths with
  | nil => rw [List.length_nil, Nat.zero_mul]; exact Nat.zero_le _
  | cons length rest ih =>
      have here := long length List.mem_cons_self
      have others := ih fun other member => long other (List.mem_cons_of_mem _ member)
      rw [List.length_cons, List.sum_cons, Nat.add_mul, Nat.one_mul]
      omega

/-- Every piece lies between the first offset and the end of the last piece. -/
theorem starts_bounds {off start : Nat} {lengths : List Nat} {least : Nat}
    (long : ∀ length ∈ lengths, least ≤ length) (member : start ∈ starts off lengths) :
    off ≤ start ∧ start + least ≤ off + lengths.sum := by
  induction lengths generalizing off with
  | nil => exact absurd member List.not_mem_nil
  | cons length rest ih =>
      have here := long length List.mem_cons_self
      rw [List.sum_cons]
      rcases List.mem_cons.mp member with rfl | later
      · omega
      · have bounds := ih (fun other mem => long other (List.mem_cons_of_mem _ mem)) later
        omega

/-- Pieces that are not empty start at different places, in order. -/
theorem starts_increasing {off : Nat} {lengths : List Nat}
    (positive : ∀ length ∈ lengths, 1 ≤ length) : (starts off lengths).Pairwise (· < ·) := by
  induction lengths generalizing off with
  | nil => exact .nil
  | cons length rest ih =>
      have here := positive length List.mem_cons_self
      have others : ∀ other ∈ rest, 1 ≤ other :=
        fun other mem => positive other (List.mem_cons_of_mem _ mem)
      refine .cons (fun start member => ?_) (ih others)
      have bounds := starts_bounds others member
      omega

/-- What a receiver got, what it handed on, and what it still holds.  Nothing
is lost or made up in between. -/
structure Receiver (α : Type*) where
  received : List α
  delivered : List (List α)
  pending : List α
  split : received = delivered.flatten ++ pending

namespace Receiver

/-- A receiver at the start of a stream. -/
def fresh : Receiver α := ⟨[], [], [], rfl⟩

/-- Symbols arrive at the back. -/
def receive (receiver : Receiver α) (data : List α) : Receiver α where
  received := receiver.received ++ data
  delivered := receiver.delivered
  pending := receiver.pending ++ data
  split := by rw [receiver.split, List.append_assoc]

/-- The first `k` symbols held are handed on as one frame. -/
def deliver (receiver : Receiver α) (k : Nat) : Receiver α where
  received := receiver.received
  delivered := receiver.delivered ++ [receiver.pending.take k]
  pending := receiver.pending.drop k
  split := by
    rw [receiver.split, List.flatten_append, List.flatten_singleton, List.append_assoc,
      List.take_append_drop]

/-- On every stream of admissible frames, exactly a prefix of the frames of
the stream has been delivered. -/
def Faithful (Admissible : List α → Prop) (receiver : Receiver α) : Prop :=
  ∀ frames : List (List α), (∀ frame ∈ frames, Admissible frame) →
    receiver.received <+: frames.flatten → receiver.delivered <+: frames

variable {Admissible : List α → Prop} {receiver : Receiver α}

theorem faithful_fresh : (fresh : Receiver α).Faithful Admissible :=
  fun _ _ _ => List.nil_prefix

theorem Faithful.receive (faithful : receiver.Faithful Admissible) (data : List α) :
    (receiver.receive data).Faithful Admissible :=
  fun frames admissible start =>
    faithful frames admissible ((List.prefix_append _ _).trans start)

/-- What is held starts with the frames that were not delivered yet. -/
theorem Faithful.pending_start (faithful : receiver.Faithful Admissible)
    {frames : List (List α)} (admissible : ∀ frame ∈ frames, Admissible frame)
    (start : receiver.received <+: frames.flatten) :
    ∃ rest, frames = receiver.delivered ++ rest ∧ receiver.pending <+: rest.flatten := by
  obtain ⟨rest, rfl⟩ := faithful frames admissible start
  refine ⟨rest, rfl, ?_⟩
  rw [receiver.split, List.flatten_append] at start
  exact (List.prefix_append_right_inj _).mp start

/-- Delivering the announced size keeps the receiver faithful. -/
theorem Faithful.deliver {code : Code α} (faithful : receiver.Faithful Admissible)
    (isFrame : ∀ frame, Admissible frame → code.IsFrame frame) {k : Nat}
    (some : receiver.pending ≠ []) (within : k ≤ receiver.pending.length)
    (announced : ∀ frame rest, Admissible frame → receiver.pending <+: frame ++ rest →
      code.header ≤ receiver.pending.length ∧ k = code.size receiver.pending) :
    (receiver.deliver k).Faithful Admissible := by
  intro frames admissible start
  obtain ⟨rest, rfl, held⟩ := faithful.pending_start admissible start
  cases rest with
  | nil => exact absurd (List.prefix_nil.mp held) some
  | cons frame rest =>
      have first : Admissible frame := admissible frame (by simp)
      rw [List.flatten_cons] at held
      obtain ⟨complete, size⟩ := announced frame _ first held
      rw [(isFrame frame first).size_of_start held complete] at size
      have front : receiver.pending.take k = frame := by
        rw [Code.take_eq_take_of_start held within, size]
        exact List.take_left
      change receiver.delivered ++ [receiver.pending.take k] <+: _
      rw [front]
      exact ⟨rest, by simp⟩

/-- A frame that arrived completely and was not delivered leaves the frame in
front of what is held complete. -/
theorem Faithful.complete_front {code : Code α} (faithful : receiver.Faithful Admissible)
    (isFrame : ∀ frame, Admissible frame → code.IsFrame frame) {frames : List (List α)}
    (admissible : ∀ frame ∈ frames, Admissible frame)
    (start : receiver.received <+: frames.flatten) {m : Nat} (inside : m < frames.length)
    (complete : (frames.take (m + 1)).flatten.length ≤ receiver.received.length)
    (undelivered : receiver.delivered.length ≤ m) :
    code.header ≤ receiver.pending.length ∧
      code.size receiver.pending ≤ receiver.pending.length := by
  obtain ⟨rest, rfl, held⟩ := faithful.pending_start admissible start
  cases rest with
  | nil =>
      rw [List.append_nil] at inside
      exact absurd inside (Nat.not_lt_of_le undelivered)
  | cons frame rest =>
      have first : code.IsFrame frame := isFrame frame (admissible frame (by simp))
      have front : receiver.delivered ++ [frame] <+:
          (receiver.delivered ++ frame :: rest).take (m + 1) := by
        rw [List.prefix_take_iff, List.length_append, List.length_singleton]
        exact ⟨⟨rest, by simp⟩, Nat.succ_le_succ undelivered⟩
      have length := front.flatten.length_le
      rw [List.flatten_append, List.flatten_singleton, List.length_append] at length
      have total := congrArg List.length receiver.split
      rw [List.length_append] at total
      have header := first.header_le
      have whole : frame.length ≤ receiver.pending.length := by omega
      rw [List.flatten_cons] at held
      rw [first.size_of_start held (Nat.le_trans header whole)]
      exact ⟨Nat.le_trans header whole, whole⟩

end Receiver

end Framing
