import Mathlib.Tactic.Common
import Mathlib.Tactic.Ring

/-!
# Big-endian byte strings

Fixed-width natural numbers written most significant byte first, and the
reading that inverts the writing.  Both round trips are exact up to the width,
so the integer fields of any protocol in network order can be checked against
them.
-/

namespace BigEndian

/-- The `width` low bytes of a number, most significant first. -/
def encode : Nat → Nat → List UInt8
  | 0, _ => []
  | width + 1, n => UInt8.ofNat (n / 256 ^ width) :: encode width n

/-- The number that a byte string spells, most significant byte first. -/
def value (bytes : List UInt8) : Nat := bytes.foldl (fun n byte => n * 256 + byte.toNat) 0

@[simp] theorem length_encode (width n : Nat) : (encode width n).length = width := by
  induction width with
  | zero => rfl
  | succ width ih => rw [encode, List.length_cons, ih]

@[simp] theorem value_nil : value [] = 0 := rfl

/-- A number read so far counts for as many digits as follow it. -/
theorem foldl_digits (n : Nat) (bytes : List UInt8) :
    bytes.foldl (fun n byte => n * 256 + byte.toNat) n = n * 256 ^ bytes.length + value bytes := by
  induction bytes generalizing n with
  | nil => simp
  | cons byte rest ih =>
      rw [value, List.foldl_cons, List.foldl_cons, ih, ih (0 * 256 + byte.toNat), List.length_cons]
      ring

theorem value_cons (byte : UInt8) (rest : List UInt8) :
    value (byte :: rest) = byte.toNat * 256 ^ rest.length + value rest := by
  rw [value, List.foldl_cons, foldl_digits, Nat.zero_mul, Nat.zero_add]

/-- A byte string spells a number below its width. -/
theorem value_lt (bytes : List UInt8) : value bytes < 256 ^ bytes.length := by
  induction bytes with
  | nil => exact Nat.one_pos
  | cons byte rest ih =>
      have top : byte.toNat * 256 ^ rest.length ≤ 255 * 256 ^ rest.length :=
        Nat.mul_le_mul_right _ (Nat.le_of_lt_succ byte.toNat_lt)
      rw [value_cons, List.length_cons, Nat.pow_succ]
      omega

/-- Reading back a written number gives it modulo the width. -/
theorem value_encode (width n : Nat) : value (encode width n) = n % 256 ^ width := by
  induction width with
  | zero => rw [encode, value_nil, Nat.pow_zero, Nat.mod_one]
  | succ width ih =>
      have digit : (UInt8.ofNat (n / 256 ^ width)).toNat = n / 256 ^ width % 256 :=
        UInt8.toNat_ofNat'
      rw [encode, value_cons, ih, length_encode, digit, Nat.mod_pow_succ]
      ring

theorem value_encode_of_lt {width n : Nat} (small : n < 256 ^ width) :
    value (encode width n) = n := by
  rw [value_encode, Nat.mod_eq_of_lt small]

/-- Multiples of the width are not written. -/
theorem encode_add_mul (width n k : Nat) : encode width (n + k * 256 ^ width) = encode width n := by
  induction width generalizing k with
  | zero => rfl
  | succ width ih =>
      have shifted : n + k * 256 ^ (width + 1) = n + k * 256 * 256 ^ width := by ring
      have digit : (n + k * 256 * 256 ^ width) / 256 ^ width = n / 256 ^ width + k * 256 :=
        Nat.add_mul_div_right _ _ (Nat.pow_pos (by decide))
      have low : UInt8.ofNat (n / 256 ^ width + k * 256) = UInt8.ofNat (n / 256 ^ width) := by
        apply UInt8.toNat_inj.mp
        simp only [UInt8.toNat_ofNat']
        omega
      rw [shifted, encode, encode, ih, digit, low]

/-- Only the number modulo the width is written. -/
theorem encode_mod (width n : Nat) : encode width (n % 256 ^ width) = encode width n := by
  conv_rhs => rw [← Nat.mod_add_div n (256 ^ width), Nat.mul_comm, encode_add_mul]

/-- Writing what was read reproduces the bytes. -/
theorem encode_value (bytes : List UInt8) : encode bytes.length (value bytes) = bytes := by
  induction bytes with
  | nil => rfl
  | cons byte rest ih =>
      have top : (byte.toNat * 256 ^ rest.length + value rest) / 256 ^ rest.length =
          byte.toNat := by
        rw [Nat.add_comm, Nat.add_mul_div_right _ _ (Nat.pow_pos (by decide)),
          Nat.div_eq_of_lt (value_lt rest), Nat.zero_add]
      rw [List.length_cons, encode, value_cons, top, UInt8.ofNat_toNat, Nat.add_comm,
        encode_add_mul, ih]

/-- Equally long byte strings that spell the same number are the same. -/
theorem value_injective {first second : List UInt8} (sameLength : first.length = second.length)
    (sameValue : value first = value second) : first = second := by
  rw [← encode_value first, ← encode_value second, sameLength, sameValue]

end BigEndian
