import Mathlib.Algebra.GroupWithZero.Nat
import Mathlib.Data.List.Induction
import WireSchema.Wire.Numeric

/-!
# Words and their bytes

Big-endian bytes and the words they spell determine each other: a word of a numeric kind is read
back from its bytes, and bytes of the right number are the bytes of the word they spell. A length is
rounded up by a mask that clears the two lowest bits of a word.
-/
namespace WireSchema

open Wire

namespace Wire

theorem ofBigEndian_bigEndian (width n : Nat) :
    ofBigEndian (bigEndian width n) = n % 256 ^ width := by
  induction width generalizing n with
  | zero => simp [bigEndian, ofBigEndian, Nat.mod_one]
  | succ width ih =>
    rw [bigEndian, ofBigEndian_append_singleton, ih, Nat.pow_succ, Nat.mul_comm (256 ^ width) 256,
      Nat.mod_mul]
    simp [Nat.mul_comm, Nat.add_comm]

theorem ofBigEndian_lt (bytes : List UInt8) : ofBigEndian bytes < 256 ^ bytes.length := by
  induction bytes using List.reverseRecOn with
  | nil => simp [ofBigEndian]
  | append_singleton bytes b ih =>
    have hb : b.toNat < 256 := b.toNat_lt
    rw [ofBigEndian_append_singleton, List.length_append, List.length_singleton, Nat.pow_succ]
    omega

theorem bigEndian_ofBigEndian {width : Nat} {bytes : List UInt8} (h : bytes.length = width) :
    bigEndian width (ofBigEndian bytes) = bytes := by
  subst h
  induction bytes using List.reverseRecOn with
  | nil => rfl
  | append_singleton bytes b ih =>
    have hb : b.toNat < 256 := b.toNat_lt
    have hdiv : (ofBigEndian bytes * 256 + b.toNat) / 256 = ofBigEndian bytes := by omega
    have hmod : (ofBigEndian bytes * 256 + b.toNat) % 256 = b.toNat := by omega
    rw [ofBigEndian_append_singleton, List.length_append, List.length_singleton, bigEndian, hdiv,
      hmod, ih, UInt8.ofNat_toNat]

theorem and_not_three {m : Nat} (h : m < 2 ^ 64) : m &&& (2 ^ 64 - 4) = m / 4 * 4 := by
  apply Nat.eq_of_testBit_eq
  intro i
  rw [Nat.testBit_and, show 2 ^ 64 - 4 = 2 ^ 64 - (3 + 1) from rfl,
    Nat.testBit_two_pow_sub_succ (by decide), show m / 4 * 4 = m / 2 ^ 2 * 2 ^ 2 from rfl,
    Nat.testBit_mul_two_pow, Nat.testBit_div_two_pow]
  by_cases hi : i < 64
  · by_cases h2 : 2 ≤ i
    · have h3 : Nat.testBit 3 i = false :=
        Nat.testBit_lt_two_pow (Nat.lt_of_lt_of_le (by decide : 3 < 2 ^ 2)
          (Nat.pow_le_pow_right (by decide) h2))
      simp [hi, h2, h3, Nat.sub_add_cancel h2]
    · have low : i = 0 ∨ i = 1 := by omega
      rcases low with rfl | rfl <;> simp [Nat.testBit]
  · have hm : m.testBit i = false :=
      Nat.testBit_lt_two_pow (Nat.lt_of_lt_of_le h (Nat.pow_le_pow_right (by decide) (by omega)))
    simp [hi, hm, show 2 ≤ i by omega, Nat.sub_add_cancel (show 2 ≤ i by omega)]

theorem toNat_paddedLength {n : UInt64} (h : n.toNat + 3 < 2 ^ 64) :
    (paddedLength n).toNat = n.toNat + paddingAfter n.toNat := by
  have sum : (n + 3).toNat = n.toNat + 3 := by
    rw [UInt64.toNat_add]
    exact Nat.mod_eq_of_lt h
  have mask : (~~~(3 : UInt64)).toNat = 2 ^ 64 - 4 := by decide
  rw [paddedLength, UInt64.toNat_and, sum, mask, and_not_three h, paddingAfter]
  split <;> omega

end Wire

namespace Numeric

theorem toBits_lt (n : Numeric) (w : n.Word) : n.toBits w < 256 ^ n.width := by
  cases n with
  | int8 => exact w.toUInt8.toNat_lt
  | uint8 => exact UInt8.toNat_lt w
  | int16 => exact w.toUInt16.toNat_lt
  | uint16 => exact UInt16.toNat_lt w
  | int32 => exact w.toUInt32.toNat_lt
  | uint32 => exact UInt32.toNat_lt w
  | int64 => exact w.toUInt64.toNat_lt
  | uint64 => exact UInt64.toNat_lt w
  | float32 => exact w.bits.toNat_lt
  | float64 => exact w.bits.toNat_lt

theorem toBits_ofBits (n : Numeric) {b : Nat} (h : b < 256 ^ n.width) :
    n.toBits (n.ofBits b) = b := by
  have hmod : b % 256 ^ n.width = b := Nat.mod_eq_of_lt h
  cases n <;> exact hmod

theorem bytes_ofBits (n : Numeric) {bytes : List UInt8} (h : bytes.length = n.width) :
    n.bytes (n.ofBits (ofBigEndian bytes)) = bytes := by
  have hlt : ofBigEndian bytes < 256 ^ n.width := h ▸ ofBigEndian_lt bytes
  rw [Numeric.bytes, n.toBits_ofBits hlt, bigEndian_ofBigEndian h]

end Numeric
end WireSchema
