import WireSchema.Proofs.Binary.Conversion
import WireSchema.Value.Basic

/-!
# Numbers and their words

A number that fits a kind is the value of the word it is encoded as, except that single precision
rounds. A word of a kind is the word of its value, except that a single that is not a number becomes
quiet.
-/
namespace WireSchema.Numeric

open Binary

/-- What a number becomes when it is encoded and decoded: only single precision changes it. -/
def normalize : Numeric → Value → Value
  | .float32, .float x => .float x.narrow.widen
  | _, v => v

/-- The word of the value of a word: only single precision changes it. -/
def recode : (n : Numeric) → n.Word → n.Word
  | .float32, w => w.widen.narrow
  | .int8, w | .uint8, w | .int16, w | .uint16, w | .int32, w | .uint32, w | .int64, w
  | .uint64, w | .float64, w => w

theorem holds_iff {n : Numeric} {v low high : Int} (h : n.range? = some (low, high)) :
    n.holds v ↔ low ≤ v ∧ v ≤ high := by
  simp [holds, h]

section Integers

theorem toInt64_toInt8 {v : Int64} (h : holds .int8 v.toInt) : v.toInt8.toInt64 = v := by
  have hv := (holds_iff rfl).mp h
  rw [← Int64.toInt_inj, Int8.toInt_toInt64, Int64.toInt_toInt8]
  apply Int.bmod_eq_of_le <;> simp [width] at hv ⊢ <;> omega

theorem toInt64_toInt16 {v : Int64} (h : holds .int16 v.toInt) : v.toInt16.toInt64 = v := by
  have hv := (holds_iff rfl).mp h
  rw [← Int64.toInt_inj, Int16.toInt_toInt64, Int64.toInt_toInt16]
  apply Int.bmod_eq_of_le <;> simp [width] at hv ⊢ <;> omega

theorem toInt64_toInt32 {v : Int64} (h : holds .int32 v.toInt) : v.toInt32.toInt64 = v := by
  have hv := (holds_iff rfl).mp h
  rw [← Int64.toInt_inj, Int32.toInt_toInt64, Int64.toInt_toInt32]
  apply Int.bmod_eq_of_le <;> simp [width] at hv ⊢ <;> omega

theorem toUInt64_toUInt8 {v : UInt64} (h : holds .uint8 v.toNat) : v.toUInt8.toUInt64 = v := by
  have hv := (holds_iff rfl).mp h
  rw [← UInt64.toNat_inj, UInt8.toNat_toUInt64, UInt64.toNat_toUInt8]
  simp [width] at hv
  omega

theorem toUInt64_toUInt16 {v : UInt64} (h : holds .uint16 v.toNat) : v.toUInt16.toUInt64 = v := by
  have hv := (holds_iff rfl).mp h
  rw [← UInt64.toNat_inj, UInt16.toNat_toUInt64, UInt64.toNat_toUInt16]
  simp [width] at hv
  omega

theorem toUInt64_toUInt32 {v : UInt64} (h : holds .uint32 v.toNat) : v.toUInt32.toUInt64 = v := by
  have hv := (holds_iff rfl).mp h
  rw [← UInt64.toNat_inj, UInt32.toNat_toUInt64, UInt64.toNat_toUInt32]
  simp [width] at hv
  omega

end Integers

theorem toValue_of_ofValue? {n : Numeric} {v : Value} {w : n.Word} (h : n.ofValue? v = some w) :
    n.toValue w = n.normalize v := by
  cases n <;> cases v <;>
    simp only [ofValue?, reduceCtorEq, Option.ite_none_right_eq_some, Option.some.injEq] at h
  case int8.int v => exact h.2 ▸ congrArg Value.int (toInt64_toInt8 h.1)
  case int16.int v => exact h.2 ▸ congrArg Value.int (toInt64_toInt16 h.1)
  case int32.int v => exact h.2 ▸ congrArg Value.int (toInt64_toInt32 h.1)
  case uint8.uint v => exact h.2 ▸ congrArg Value.uint (toUInt64_toUInt8 h.1)
  case uint16.uint v => exact h.2 ▸ congrArg Value.uint (toUInt64_toUInt16 h.1)
  case uint32.uint v => exact h.2 ▸ congrArg Value.uint (toUInt64_toUInt32 h.1)
  all_goals exact h ▸ rfl

theorem ofValue?_toValue (n : Numeric) (w : n.Word) :
    n.ofValue? (n.toValue w) = some (n.recode w) := by
  cases n with
  | int8 =>
    have hv : holds .int8 w.toInt := (holds_iff rfl).mpr (by
      have := Int8.le_toInt w
      have := Int8.toInt_lt w
      simp [width]
      omega)
    simp [ofValue?, toValue, recode, hv]
  | int16 =>
    have hv : holds .int16 w.toInt := (holds_iff rfl).mpr (by
      have := Int16.le_toInt w
      have := Int16.toInt_lt w
      simp [width]
      omega)
    simp [ofValue?, toValue, recode, hv]
  | int32 =>
    have hv : holds .int32 w.toInt := (holds_iff rfl).mpr (by
      have := Int32.le_toInt w
      have := Int32.toInt_lt w
      simp [width]
      omega)
    simp [ofValue?, toValue, recode, hv]
  | uint8 =>
    have hv : holds .uint8 w.toNat := (holds_iff rfl).mpr (by
      have := UInt8.toNat_lt w
      simp [width]
      omega)
    simp [ofValue?, toValue, recode, hv]
  | uint16 =>
    have hv : holds .uint16 w.toNat := (holds_iff rfl).mpr (by
      have := UInt16.toNat_lt w
      simp [width]
      omega)
    simp [ofValue?, toValue, recode, hv]
  | uint32 =>
    have hv : holds .uint32 w.toNat := (holds_iff rfl).mpr (by
      have := UInt32.toNat_lt w
      simp [width]
      omega)
    simp [ofValue?, toValue, recode, hv]
  | int64 | uint64 | float32 | float64 => rfl

theorem recode_of_ofValue? {n : Numeric} {v : Value} {w : n.Word} (h : n.ofValue? v = some w) :
    n.recode w = w := by
  cases n with
  | float32 =>
    cases v with
    | float x =>
      obtain rfl : x.narrow = w := Option.some.inj h
      exact narrow_widen_narrow x
    | _ => cases h
  | _ => rfl

/-- A single that is not a number. -/
def IsSingleNaN : (n : Numeric) → n.Word → Prop
  | .float32, w => w.isNaN
  | _, _ => False

theorem recode_eq {n : Numeric} {w : n.Word} (h : ¬ n.IsSingleNaN w) : n.recode w = w := by
  cases n with
  | float32 => exact narrow_widen (by simpa [IsSingleNaN] using h)
  | _ => rfl

theorem normalize_toValue (n : Numeric) (w : n.Word) : n.normalize (n.toValue w) = n.toValue w := by
  cases n with
  | float32 => exact congrArg Value.float (widen_narrow_widen w)
  | _ => rfl

end WireSchema.Numeric
