import Mathlib.Tactic.SplitIfs
import WireSchema.Proofs.Wire.Word
import WireSchema.Wire.Shape

/-!
# What writing comes to

A writer that does not fail comes to the concatenation of its blocks. These are the bytes that a
sink without limits stores. Every shape of the wire has one equation here that says when writing it
succeeds and with which bytes.
-/
namespace WireSchema.Wire

instance decidableEqExcept {ε α : Type} [DecidableEq ε] [DecidableEq α] : DecidableEq (Except ε α)
  | .error e, .error e' => decidable_of_iff (e = e') (by rw [Except.error.injEq])
  | .ok a, .ok a' => decidable_of_iff (a = a') (by rw [Except.ok.injEq])
  | .error _, .ok _ => isFalse nofun
  | .ok _, .error _ => isFalse nofun

/-- The wire form of a blob: its length, the data, and zeros up to a multiple of four. -/
def blobForm (data : List UInt8) : List UInt8 :=
  bigEndian 4 data.length ++ (data ++ List.replicate (paddingAfter data.length) 0)

theorem utf8_of_ofUtf8? {data : List UInt8} {s : String} (h : ofUtf8? data = some s) :
    utf8 s = data := by
  unfold ofUtf8? String.fromUTF8? at h
  split_ifs at h with hvalid
  obtain rfl := Option.some.inj h
  rfl

theorem length_blobForm (data : List UInt8) :
    (blobForm data).length = 4 + (data.length + paddingAfter data.length) := by
  simp [blobForm]

theorem blobSize_eq {length : Nat} (h : length ≤ maxLength) :
    blobSize length = 4 + (length + paddingAfter length) := by
  have hm : maxLength = 2 ^ 32 - 1 := rfl
  have hn : (UInt64.ofNat length).toNat = length := UInt64.toNat_ofNat_of_lt' (by
    show length < 2 ^ 64
    omega)
  rw [blobSize, toNat_paddedLength (by rw [hn]; omega), hn]

namespace Output

@[simp] theorem result_done : done.result = .ok [] := rfl

@[simp] theorem result_block (bytes : List UInt8) : (block bytes).result = .ok bytes := by
  simp [result, block, Output.bytes]

@[simp] theorem result_fail (e : WireError) : (fail e).result = .error e := rfl

theorem result_eq_ok_iff {o : Output} {bytes : List UInt8} :
    o.result = .ok bytes ↔ o.failure = none ∧ o.bytes = bytes := by
  unfold result
  cases o.failure <;> simp

@[simp] theorem append_done (o : Output) : o ++ done = o := by
  cases ho : o.failure with
  | none =>
    rw [append_of_failure_none done ho]
    simp [done, ← ho]
  | some e => rw [append_of_failure_some done ho]

theorem result_append (a b : Output) :
    (a ++ b).result = a.result.bind fun x => b.result.map (x ++ ·) := by
  cases ha : a.failure with
  | none =>
    rw [append_of_failure_none b ha]
    cases hb : b.failure <;> simp [result, ha, hb, Output.bytes, Except.bind, Except.map]
  | some e =>
    rw [append_of_failure_some b ha]
    simp [result, ha, Except.bind]

theorem result_append_eq_ok_iff {a b : Output} {bytes : List UInt8} :
    (a ++ b).result = .ok bytes ↔
      ∃ x y, a.result = .ok x ∧ b.result = .ok y ∧ bytes = x ++ y := by
  rw [result_append]
  cases a.result with
  | error e => simp [Except.bind]
  | ok x =>
    cases b.result with
    | error e => simp [Except.bind, Except.map]
    | ok y => simp [Except.bind, Except.map, eq_comm]

@[simp] theorem result_bool (b : Bool) : (bool b).result = .ok (bigEndian 4 b.toNat) :=
  result_block _

@[simp] theorem result_number (n : Numeric) (w : n.Word) : (number n w).result = .ok (n.bytes w) :=
  result_block _

theorem result_padded (data : List UInt8) :
    (padded data).result = .ok (data ++ List.replicate (paddingAfter data.length) 0) := by
  rw [padded, result_append]
  by_cases h : data.length % 4 = 0 <;> simp [h, paddingAfter, Except.bind, Except.map]

theorem result_blob_eq_ok_iff {data bytes : List UInt8} :
    (blob data).result = .ok bytes ↔ data.length ≤ maxLength ∧ bytes = blobForm data := by
  unfold blob
  split_ifs with h
  · rw [result_append, result_padded]
    simp [word, blobForm, h, Except.bind, Except.map, eq_comm]
  · simp [h]

theorem result_count_eq_ok_iff {n : Nat} {bytes : List UInt8} :
    (count n).result = .ok bytes ↔ n ≤ maxLength ∧ bytes = bigEndian 4 n := by
  unfold count
  split_ifs with h
  · simp [word, h, eq_comm]
  · simp [h]

end Output

namespace Sink

theorem acceptAll_of_room_none (stored : List UInt8) (blocks : List (List UInt8)) :
    (Sink.mk none stored).acceptAll blocks = (.ok (), ⟨none, stored ++ blocks.flatten⟩) := by
  induction blocks generalizing stored with
  | nil => simp [acceptAll]
  | cons block blocks ih => simp [acceptAll, accept, ih]

theorem drain_of_room_none {o : Output} {bytes : List UInt8} (h : o.result = .ok bytes)
    (stored : List UInt8) :
    (Sink.mk none stored).drain o = (.ok (), ⟨none, stored ++ bytes⟩) := by
  obtain ⟨hfailure, rfl⟩ := Output.result_eq_ok_iff.mp h
  rw [drain, acceptAll_of_room_none]
  simp only [hfailure, Output.bytes]

/-- A sink without limits that was empty ends up with exactly the result of the writer. -/
theorem drain_unbounded_eq_ok_iff {o : Output} {bytes : List UInt8} :
    unbounded.drain o = (.ok (), ⟨none, bytes⟩) ↔ o.result = .ok bytes := by
  have ha : unbounded.acceptAll o.blocks = (.ok (), ⟨none, o.bytes⟩) :=
    acceptAll_of_room_none [] o.blocks
  unfold drain Output.result
  rw [ha]
  cases o.failure <;> simp

/-- A sink without limits takes everything that does not fail by itself. -/
theorem drain_unbounded_ok_iff {o : Output} :
    (unbounded.drain o).1 = .ok () ↔ ∃ bytes, o.result = .ok bytes := by
  have ha : unbounded.acceptAll o.blocks = (.ok (), ⟨none, o.bytes⟩) :=
    acceptAll_of_room_none [] o.blocks
  unfold drain Output.result
  rw [ha]
  cases o.failure <;> simp

end Sink
end WireSchema.Wire
