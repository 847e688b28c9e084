import MinputHop.Library.BigEndian
import MinputHop.Library.FlatMemory

/-!
# Byte order

The macros of `synproto.h` that pull an integer out of a packet: a load in the
order of the host, followed by a swap unless `SYNPROTO_ENDIAN` is defined.  On
the two hosts whose setting of `SYNPROTO_ENDIAN` fits, the macros read network
order.
-/

namespace MinputHop

open FlatMemory

inductive ByteOrder where
  | little
  | big
  deriving DecidableEq

/-- The memory of an integer variable of `width` bytes. -/
def ByteOrder.bytes (order : ByteOrder) (width : Nat) (n : Int) : List UInt8 :=
  match order with
  | .little => (BigEndian.encode width (n % 256 ^ width).toNat).reverse
  | .big => BigEndian.encode width (n % 256 ^ width).toNat

/-- The value of an unsigned variable with these bytes in memory. -/
def ByteOrder.load (order : ByteOrder) (bytes : List UInt8) : Nat :=
  match order with
  | .little => BigEndian.value bytes.reverse
  | .big => BigEndian.value bytes

/-- What the code is compiled for: the byte order of the host, and whether the
macro `SYNPROTO_ENDIAN` is defined. -/
structure Build where
  order : ByteOrder
  synprotoEndian : Bool
  deriving DecidableEq

/-- Every target of the Makefile is little-endian, without `SYNPROTO_ENDIAN`. -/
def makefileBuild : Build := ⟨.little, false⟩

/-- `SYNPROTO_ENDIAN` is defined on big-endian hosts only. -/
def Build.Matched (build : Build) : Prop := build.synprotoEndian = (build.order == .big)

theorem makefileBuild_matched : makefileBuild.Matched := rfl

/-! ## The swapping macros -/

def swap32 (build : Build) (num : UInt32) : UInt32 :=
  if build.synprotoEndian then num
  else ((num >>> 24) &&& (0xff : UInt32)) ||| ((num <<< 8) &&& (0xff0000 : UInt32)) |||
    ((num >>> 8) &&& (0xff00 : UInt32)) ||| ((num <<< 24) &&& (0xff000000 : UInt32))

def swap16 (build : Build) (num : UInt16) : UInt16 :=
  if build.synprotoEndian then num else (num >>> 8) ||| (num <<< 8)

def synprotoExval32 (build : Build) (buffer : Nat → UInt8) (offset : Nat) : UInt32 :=
  swap32 build (UInt32.ofNat (build.order.load (window buffer offset 4)))

def synprotoExval16 (build : Build) (buffer : Nat → UInt8) (offset : Nat) : UInt16 :=
  swap16 build (UInt16.ofNat (build.order.load (window buffer offset 2)))

def synprotoExval8 (buffer : Nat → UInt8) (offset : Nat) : UInt8 := buffer offset

/-! ## What they read -/

/-- Masking one byte of a number keeps that byte in place. -/
theorem and_byte_mask (n k : Nat) : n &&& 255 * 2 ^ k = n / 2 ^ k % 256 * 2 ^ k := by
  apply Nat.eq_of_testBit_eq
  intro i
  rw [Nat.testBit_and, Nat.testBit_mul_two_pow, Nat.testBit_mul_two_pow,
    show 255 = 2 ^ 8 - 1 from rfl, show 256 = 2 ^ 8 from rfl, Nat.testBit_two_pow_sub_one,
    Nat.testBit_mod_two_pow, ← Nat.shiftRight_eq_div_pow, Nat.testBit_shiftRight]
  by_cases above : k ≤ i
  · simp [above, Bool.and_comm]
  · simp [above]

/-- Bytes in different places are put together by `|`. -/
theorem or_bytes {a b c d : Nat} (hb : b < 256) (hc : c < 256) (hd : d < 256) :
    ((d ||| b * 2 ^ 16) ||| c * 2 ^ 8) ||| a * 2 ^ 24 =
      a * 2 ^ 24 + b * 2 ^ 16 + c * 2 ^ 8 + d := by
  have low := Nat.two_pow_add_eq_or_of_lt (i := 8) (b := d) (by omega) (a * 2 ^ 16 + b * 2 ^ 8 + c)
  have mid := Nat.two_pow_add_eq_or_of_lt (i := 16) (b := c * 2 ^ 8) (by omega) (a * 2 ^ 8 + b)
  have high := Nat.two_pow_add_eq_or_of_lt (i := 24) (b := b * 2 ^ 16) (by omega) a
  rw [show 2 ^ 8 * (a * 2 ^ 16 + b * 2 ^ 8 + c) = a * 2 ^ 24 + b * 2 ^ 16 + c * 2 ^ 8 by omega]
    at low
  rw [show 2 ^ 16 * (a * 2 ^ 8 + b) = a * 2 ^ 24 + b * 2 ^ 16 by omega] at mid
  rw [Nat.mul_comm (2 ^ 24) a] at high
  rw [low, mid, high, Nat.or_comm _ (a * 2 ^ 24), Nat.or_comm d, Nat.or_assoc, Nat.or_comm d,
    ← Nat.or_assoc, ← Nat.or_assoc]

/-- The digits of a number put together from four bytes. -/
theorem four_digits {a b c d : Nat} (ha : a < 256) (hb : b < 256) (hc : c < 256) (hd : d < 256) :
    let n := a * 2 ^ 24 + b * 2 ^ 16 + c * 2 ^ 8 + d
    n < 2 ^ 32 ∧ n % 256 = d ∧ n / 2 ^ 8 % 256 = c ∧ n / 2 ^ 16 % 256 = b ∧ n / 2 ^ 24 = a := by
  simp only [Nat.reducePow]
  refine ⟨?_, ?_, ?_, ?_, ?_⟩ <;> omega

/-- The macro reverses the four bytes of a number. -/
theorem toNat_swap32_little (num : UInt32) :
    (swap32 makefileBuild num).toNat =
      num.toNat % 256 * 2 ^ 24 + num.toNat / 2 ^ 8 % 256 * 2 ^ 16 +
        num.toNat / 2 ^ 16 % 256 * 2 ^ 8 + num.toNat / 2 ^ 24 := by
  have bound := num.toNat_lt
  have first : num.toNat / 2 ^ 24 % 256 = num.toNat / 2 ^ 24 := Nat.mod_eq_of_lt (by omega)
  have second : num.toNat * 2 ^ 8 % 2 ^ 32 / 2 ^ 16 % 256 = num.toNat / 2 ^ 8 % 256 := by omega
  have third : num.toNat / 2 ^ 8 / 2 ^ 8 % 256 = num.toNat / 2 ^ 16 % 256 := by omega
  have fourth : num.toNat * 2 ^ 24 % 2 ^ 32 / 2 ^ 24 % 256 = num.toNat % 256 := by
    rw [show 2 ^ 32 = 2 ^ 8 * 2 ^ 24 from rfl, Nat.mul_mod_mul_right,
      Nat.mul_div_cancel _ (Nat.pow_pos (by decide))]
    exact Nat.mod_mod _ 256
  have masked : (swap32 makefileBuild num).toNat =
      ((num.toNat / 2 ^ 24 &&& 255 * 2 ^ 0 |||
        num.toNat * 2 ^ 8 % 2 ^ 32 &&& 255 * 2 ^ 16) |||
        num.toNat / 2 ^ 8 &&& 255 * 2 ^ 8) |||
        num.toNat * 2 ^ 24 % 2 ^ 32 &&& 255 * 2 ^ 24 := by
    simp [swap32, makefileBuild, Nat.shiftLeft_eq, Nat.shiftRight_eq_div_pow]
  rw [masked, and_byte_mask, and_byte_mask, and_byte_mask, and_byte_mask, second, third, fourth,
    Nat.pow_zero, Nat.div_one, Nat.mul_one, first]
  exact or_bytes (by omega) (by omega) (by omega)

/-- The macro swaps the two bytes of a number. -/
theorem toNat_swap16_little (num : UInt16) :
    (swap16 makefileBuild num).toNat = num.toNat % 256 * 2 ^ 8 + num.toNat / 2 ^ 8 := by
  have bound := num.toNat_lt
  have shifted : num.toNat * 2 ^ 8 % 2 ^ 16 = 2 ^ 8 * (num.toNat % 256) := by omega
  have joined := Nat.two_pow_add_eq_or_of_lt (i := 8) (b := num.toNat / 2 ^ 8) (by omega)
    (num.toNat % 256)
  have masked : (swap16 makefileBuild num).toNat =
      num.toNat / 2 ^ 8 ||| num.toNat * 2 ^ 8 % 2 ^ 16 := by
    simp [swap16, makefileBuild, Nat.shiftLeft_eq, Nat.shiftRight_eq_div_pow]
  rw [masked, shifted, Nat.or_comm, ← joined, Nat.mul_comm]

/-- A build that matches its host is the Makefile's or a big-endian one. -/
theorem Build.Matched.cases {build : Build} (matched : build.Matched) :
    build = makefileBuild ∨ build = ⟨.big, true⟩ := by
  obtain ⟨order, endian⟩ := build
  cases order <;> cases matched
  · exact .inl rfl
  · exact .inr rfl

/-- `synproto_exval_32` reads network order, on either host. -/
theorem toNat_synprotoExval32 {build : Build} (matched : build.Matched)
    (buffer : Nat → UInt8) (offset : Nat) :
    (synprotoExval32 build buffer offset).toNat = BigEndian.value (window buffer offset 4) := by
  have bound := BigEndian.value_lt (window buffer offset 4)
  rw [length_window, show 256 ^ 4 = 2 ^ 32 from rfl] at bound
  rcases matched.cases with rfl | rfl
  · have b0 := (buffer offset).toNat_lt
    have b1 := (buffer (offset + 1)).toNat_lt
    have b2 := (buffer (offset + 1 + 1)).toNat_lt
    have b3 := (buffer (offset + 1 + 1 + 1)).toNat_lt
    obtain ⟨small, first, second, third, fourth⟩ := four_digits b3 b2 b1 b0
    have loaded : (UInt32.ofNat (makefileBuild.order.load (window buffer offset 4))).toNat =
        (buffer (offset + 1 + 1 + 1)).toNat * 2 ^ 24 + (buffer (offset + 1 + 1)).toNat * 2 ^ 16 +
          (buffer (offset + 1)).toNat * 2 ^ 8 + (buffer offset).toNat := by
      refine UInt32.toNat_ofNat'.trans ((congrArg (· % 2 ^ 32) ?_).trans (Nat.mod_eq_of_lt small))
      simp only [makefileBuild, ByteOrder.load, window, List.reverse_cons, List.reverse_nil,
        List.nil_append, List.cons_append, BigEndian.value, List.foldl_cons, List.foldl_nil]
      omega
    rw [synprotoExval32, toNat_swap32_little, loaded, first, second, third, fourth]
    simp only [window, BigEndian.value, List.foldl_cons, List.foldl_nil]
    omega
  · rw [synprotoExval32, swap32, if_pos rfl, UInt32.toNat_ofNat', ByteOrder.load,
      Nat.mod_eq_of_lt bound]

/-- `synproto_exval_16` reads network order, on either host. -/
theorem toNat_synprotoExval16 {build : Build} (matched : build.Matched)
    (buffer : Nat → UInt8) (offset : Nat) :
    (synprotoExval16 build buffer offset).toNat = BigEndian.value (window buffer offset 2) := by
  have bound := BigEndian.value_lt (window buffer offset 2)
  rw [length_window, show 256 ^ 2 = 2 ^ 16 from rfl] at bound
  rcases matched.cases with rfl | rfl
  · have b0 := (buffer offset).toNat_lt
    have b1 := (buffer (offset + 1)).toNat_lt
    have loaded : (UInt16.ofNat (makefileBuild.order.load (window buffer offset 2))).toNat =
        (buffer (offset + 1)).toNat * 2 ^ 8 + (buffer offset).toNat := by
      rw [UInt16.toNat_ofNat']
      simp only [makefileBuild, ByteOrder.load, window, List.reverse_cons, List.reverse_nil,
        List.nil_append, List.cons_append, BigEndian.value, List.foldl_cons, List.foldl_nil]
      omega
    rw [synprotoExval16, toNat_swap16_little, loaded]
    simp only [window, BigEndian.value, List.foldl_cons, List.foldl_nil]
    omega
  · rw [synprotoExval16, swap16, if_pos rfl, UInt16.toNat_ofNat', ByteOrder.load,
      Nat.mod_eq_of_lt bound]

end MinputHop
