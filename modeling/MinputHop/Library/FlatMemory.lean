import Mathlib.Data.List.Induction
import Mathlib.Logic.Function.Basic
import Mathlib.Tactic.Common

/-!
# Flat memory

Cells counted from the base address of one block.  The cells go on past the
block, so a write outside it is represented; whether it happened is decided by
comparing the written range with the size of the block.
-/

namespace FlatMemory

variable {α : Type*}

/-- One allocation: the number of cells really allocated, and the cells seen
from its base address. -/
structure Block (α : Type*) where
  size : Nat
  cells : Nat → α

/-- The `length` cells from `off` on. -/
def window (cells : Nat → α) (off : Nat) : Nat → List α
  | 0 => []
  | length + 1 => cells off :: window cells (off + 1) length

/-- Write a list of cells from `off` on, as `memcpy` does. -/
def blit (cells : Nat → α) (off : Nat) (data : List α) : Nat → α :=
  fun i => if off ≤ i then data[i - off]?.getD (cells i) else cells i

/-- Change the size of a block.  The common part is kept; the cells past it
are whatever the allocator left there. -/
def Block.resize (block : Block α) (size : Nat) (left : Nat → α) : Block α where
  size := size
  cells := fun i => if i < min block.size size then block.cells i else left i

/-- What a resize leaves that returns no block: the old one, or where the new size is 0
the cells of a block that was freed. -/
def Block.refuse (block : Block α) (size : Nat) : Block α where
  size := if size = 0 then 0 else block.size
  cells := block.cells

theorem Block.refuse_of_ne_zero (block : Block α) {size : Nat} (some : size ≠ 0) :
    block.refuse size = block := by
  rw [refuse, if_neg some]

/-! ## Windows -/

@[simp] theorem window_zero (cells : Nat → α) (off : Nat) : window cells off 0 = [] := rfl

theorem window_succ (cells : Nat → α) (off length : Nat) :
    window cells off (length + 1) = cells off :: window cells (off + 1) length := rfl

@[simp] theorem length_window (cells : Nat → α) (off length : Nat) :
    (window cells off length).length = length := by
  induction length generalizing off with
  | zero => rfl
  | succ length ih => rw [window_succ, List.length_cons, ih]

theorem getElem?_window (cells : Nat → α) (off : Nat) {length i : Nat} (inside : i < length) :
    (window cells off length)[i]? = some (cells (off + i)) := by
  induction length generalizing off i with
  | zero => exact absurd inside (Nat.not_lt_zero i)
  | succ length ih =>
      cases i with
      | zero => rfl
      | succ i =>
          rw [window_succ, List.getElem?_cons_succ, ih _ (by omega)]
          congr 2
          omega

/-- A window depends on its own cells only. -/
theorem window_congr {first second : Nat → α} {off off' length : Nat}
    (agree : ∀ i < length, first (off + i) = second (off' + i)) :
    window first off length = window second off' length := by
  apply List.ext_getElem?
  intro i
  by_cases inside : i < length
  · rw [getElem?_window first off inside, getElem?_window second off' inside, agree i inside]
  · rw [List.getElem?_eq_none (by simpa using inside),
      List.getElem?_eq_none (by simpa using inside)]

/-- Equal windows have equal cells. -/
theorem cell_of_window_eq {first second : Nat → α} {off off' length i : Nat}
    (same : window first off length = window second off' length) (inside : i < length) :
    first (off + i) = second (off' + i) := by
  have read := congrArg (fun cells : List α => cells[i]?) same
  simpa only [getElem?_window first off inside, getElem?_window second off' inside,
    Option.some.injEq] using read

theorem window_add (cells : Nat → α) (off m n : Nat) :
    window cells off (m + n) = window cells off m ++ window cells (off + m) n := by
  induction m generalizing off with
  | zero => simp
  | succ m ih =>
      rw [Nat.add_right_comm, window_succ, window_succ, ih, List.cons_append,
        Nat.add_assoc off 1 m, Nat.add_comm 1 m]

theorem take_window (cells : Nat → α) (off : Nat) {k length : Nat} (within : k ≤ length) :
    (window cells off length).take k = window cells off k := by
  obtain ⟨rest, rfl⟩ := Nat.exists_eq_add_of_le within
  rw [window_add, List.take_append_of_le_length (by simp), List.take_of_length_le (by simp)]

theorem drop_window (cells : Nat → α) (off : Nat) {k length : Nat} (within : k ≤ length) :
    (window cells off length).drop k = window cells (off + k) (length - k) := by
  obtain ⟨rest, rfl⟩ := Nat.exists_eq_add_of_le within
  rw [window_add, List.drop_append_of_le_length (by simp), List.drop_of_length_le (by simp),
    List.nil_append, Nat.add_sub_cancel_left]

/-! ## Writes -/

@[simp] theorem blit_nil (cells : Nat → α) (off : Nat) : blit cells off [] = cells := by
  funext i
  simp [blit]

theorem blit_inside (cells : Nat → α) {off i : Nat} {data : List α} (inside : i < data.length) :
    blit cells off data (off + i) = data[i] := by
  simp [blit, inside]

theorem blit_before (cells : Nat → α) {off i : Nat} (data : List α) (before : i < off) :
    blit cells off data i = cells i := by
  simp [blit, Nat.not_le_of_lt before]

theorem blit_after (cells : Nat → α) {off i : Nat} {data : List α}
    (after : off + data.length ≤ i) : blit cells off data i = cells i := by
  have missing : data[i - off]? = none := List.getElem?_eq_none (by omega)
  simp [blit, missing]

/-- Writing one cell after the data already written extends the data. -/
theorem update_blit (cells : Nat → α) (off : Nat) (data : List α) (last : α) :
    Function.update (blit cells off data) (off + data.length) last =
      blit cells off (data ++ [last]) := by
  funext i
  by_cases here : i = off + data.length
  · subst here
    simp [blit]
  · rw [Function.update_of_ne here]
    rcases Nat.lt_or_ge i off with before | behind
    · rw [blit_before _ _ before, blit_before _ _ before]
    · rcases Nat.lt_or_ge i (off + data.length) with inside | after
      · obtain ⟨k, rfl⟩ := Nat.exists_eq_add_of_le behind
        have left : k < data.length := by omega
        rw [blit_inside cells left, blit_inside cells (by simp; omega)]
        exact (List.getElem_append_left left).symm
      · rw [blit_after cells after, blit_after cells (by simp; omega)]

/-- Two writes end to end are one write. -/
theorem blit_blit (cells : Nat → α) (off : Nat) (first second : List α) :
    blit (blit cells off first) (off + first.length) second = blit cells off (first ++ second) := by
  induction second using List.reverseRecOn with
  | nil => simp
  | append_singleton second last ih =>
      have edge : off + first.length + second.length = off + (first ++ second).length := by
        rw [List.length_append, Nat.add_assoc]
      rw [← update_blit, ih, edge, update_blit, List.append_assoc]

/-- What was written can be read back. -/
theorem window_blit (cells : Nat → α) (off : Nat) (data : List α) :
    window (blit cells off data) off data.length = data := by
  apply List.ext_getElem?
  intro i
  by_cases inside : i < data.length
  · rw [getElem?_window _ off inside, blit_inside cells inside, List.getElem?_eq_getElem inside]
  · rw [List.getElem?_eq_none (by simpa using inside), List.getElem?_eq_none (by omega)]

/-- A write does not touch the cells in front of it. -/
theorem window_blit_before (cells : Nat → α) {from' length off : Nat} (data : List α)
    (before : from' + length ≤ off) :
    window (blit cells off data) from' length = window cells from' length :=
  window_congr fun _ inside => blit_before cells data (by omega)

/-- Appending at the end of a window extends the window by the appended data. -/
theorem window_append_blit (cells : Nat → α) (length : Nat) (data : List α) :
    window (blit cells length data) 0 (length + data.length) =
      window cells 0 length ++ data := by
  rw [window_add, Nat.zero_add, window_blit, window_blit_before cells data (by omega)]

/-- Growing a block keeps every window inside the old size. -/
theorem window_resize (block : Block α) (size : Nat) (left : Nat → α) {off length : Nat}
    (old : off + length ≤ block.size) (new : off + length ≤ size) :
    window (block.resize size left).cells off length = window block.cells off length :=
  window_congr fun i inside => if_pos (by omega)

/-! ## Moving cells down -/

/-- The first `count` steps of the loop that copies cell `j + by'` to cell `j`. -/
def copyDown (by' : Nat) : Nat → (Nat → α) → Nat → α
  | 0, cells => cells
  | count + 1, cells =>
      Function.update (copyDown by' count cells) count (copyDown by' count cells (count + by'))

theorem copyDown_apply (by' count : Nat) (cells : Nat → α) (i : Nat) :
    copyDown by' count cells i = if i < count then cells (i + by') else cells i := by
  induction count generalizing i with
  | zero => rfl
  | succ count ih =>
      rw [copyDown]
      by_cases here : i = count
      · subst here
        rw [Function.update_self, ih, if_neg (by omega), if_pos (by omega)]
      · rw [Function.update_of_ne here, ih]
        by_cases below : i < count
        · rw [if_pos below, if_pos (by omega)]
        · rw [if_neg below, if_neg (by omega)]

/-- Moving the rest of a window down removes its front. -/
theorem window_copyDown (cells : Nat → α) {by' length : Nat} (within : by' ≤ length) :
    window (copyDown by' (length - by') cells) 0 (length - by') =
      (window cells 0 length).drop by' := by
  rw [drop_window cells 0 within]
  apply window_congr
  intro i inside
  rw [copyDown_apply, if_pos (by omega)]
  congr 1
  omega

end FlatMemory
