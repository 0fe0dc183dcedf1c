import WireSchema.Proofs.Wire.Decoder

/-!
# Padding, rounded, written and read

A length is rounded up by a mask on words of 64 bits, while data is written and read with the zeros
that its remainder asks for. Up to the greatest length that can be rounded the three come to the
same number of bytes, the least multiple of four that holds the data.
-/
namespace WireSchema.Wire

section Rounding

variable {n : UInt64} (h : n.toNat + 3 < 2 ^ 64)
include h

theorem four_dvd_paddedLength : 4 ∣ (paddedLength n).toNat := by
  rw [toNat_paddedLength h, paddingAfter]
  split <;> omega

theorem le_paddedLength : n.toNat ≤ (paddedLength n).toNat := by
  rw [toNat_paddedLength h]
  exact Nat.le_add_right _ _

theorem paddedLength_le {m : Nat} (hdvd : 4 ∣ m) (hle : n.toNat ≤ m) :
    (paddedLength n).toNat ≤ m := by
  rw [toNat_paddedLength h, paddingAfter]
  split <;> omega

end Rounding

namespace Decoder

theorem take_of_le {n : Nat} {input : List UInt8} (h : n ≤ input.length) :
    take n input = (.ok (input.take n), input.drop n) := if_pos h

theorem take_of_lt {n : Nat} {input : List UInt8} (h : input.length < n) :
    take n input = (.error .unexpectedEof, input) := if_neg (Nat.not_le_of_lt h)

/-- Data and padding are taken one after the other: without the data nothing is consumed, and
without the padding the data alone. -/
theorem run_padded (n : Nat) (input : List UInt8) :
    padded n input =
      if input.length < n then (.error .unexpectedEof, input)
      else if input.length < n + paddingAfter n then (.error .unexpectedEof, input.drop n)
      else (.ok (input.take n), input.drop (n + paddingAfter n)) := by
  rw [padded_eq, run_bind]
  split_ifs with hdata hpadding
  · rw [take_of_lt hdata]
  · have hrest : (input.drop n).length < paddingAfter n := by
      rw [List.length_drop]
      omega
    rw [take_of_le (Nat.le_of_not_lt hdata)]
    simp only [run_bind, take_of_lt hrest]
  · have hrest : paddingAfter n ≤ (input.drop n).length := by
      rw [List.length_drop]
      omega
    rw [take_of_le (Nat.le_of_not_lt hdata)]
    simp only [run_bind, take_of_le hrest, run_pure, List.drop_drop]

/-- Exactly what is as long as the data and its padding is read. -/
theorem padded_ok_iff {n : Nat} {input : List UInt8} :
    (∃ data, (padded n input).1 = .ok data) ↔ n + paddingAfter n ≤ input.length := by
  rw [run_padded]
  split_ifs with hdata hpadding <;> simp <;> omega

theorem padded_of_le {n : Nat} {input : List UInt8} (h : n + paddingAfter n ≤ input.length) :
    padded n input = (.ok (input.take n), input.drop (n + paddingAfter n)) := by
  rw [run_padded, if_neg (by omega), if_neg (by omega)]

end Decoder

/-- For every length that can be rounded up, rounding gives the least multiple of four that is not
below it, data of this length is written as itself and zeros up to that multiple, and is read if
that many bytes are there, of which it then is the front. -/
theorem padding_computations_agree (n : UInt64) (h : n.toNat + 3 < 2 ^ 64) :
    (4 ∣ (paddedLength n).toNat ∧ n.toNat ≤ (paddedLength n).toNat ∧
      ∀ m, 4 ∣ m → n.toNat ≤ m → (paddedLength n).toNat ≤ m) ∧
    (∀ data : List UInt8, data.length = n.toNat → ∃ zeros : List UInt8,
      (∀ b ∈ zeros, b = 0) ∧ (data ++ zeros).length = (paddedLength n).toNat ∧
      ∀ stored, (Sink.mk none stored).drain (.padded data) =
        (.ok (), ⟨none, stored ++ (data ++ zeros)⟩)) ∧
    ∀ input : List UInt8,
      ((∃ data, (Decoder.padded n.toNat input).1 = .ok data) ↔
        (paddedLength n).toNat ≤ input.length) ∧
      ((paddedLength n).toNat ≤ input.length → Decoder.padded n.toNat input =
        (.ok (input.take n.toNat), input.drop (paddedLength n).toNat)) := by
  refine ⟨⟨four_dvd_paddedLength h, le_paddedLength h, fun m => paddedLength_le h⟩, ?_, ?_⟩
  · intro data hdata
    refine ⟨List.replicate (paddingAfter data.length) 0, fun b => List.eq_of_mem_replicate, ?_, ?_⟩
    · rw [List.length_append, List.length_replicate, hdata, toNat_paddedLength h]
    · exact Sink.drain_of_room_none (Output.result_padded data)
  · intro input
    rw [toNat_paddedLength h]
    exact ⟨Decoder.padded_ok_iff, Decoder.padded_of_le⟩

/-- The greatest length that can be rounded up, and five bytes of data: they are written as eight,
and cannot be read from seven. -/
theorem padding_computations_agree_five :
    (18446744073709551612 : UInt64).toNat + 3 < 2 ^ 64 ∧
    (∀ m, 4 ∣ m → 18446744073709551612 ≤ m → (paddedLength 18446744073709551612).toNat ≤ m) ∧
    (Sink.mk none [9]).drain (.padded [1, 2, 3, 4, 5]) =
      (.ok (), ⟨none, [9, 1, 2, 3, 4, 5, 0, 0, 0]⟩) ∧
    Decoder.padded 5 [1, 2, 3, 4, 5, 6, 7, 8, 9] = (.ok [1, 2, 3, 4, 5], [9]) ∧
    ¬ ∃ data, (Decoder.padded 5 [1, 2, 3, 4, 5, 6, 7]).1 = .ok data := by
  have hlimit : (18446744073709551612 : UInt64).toNat + 3 < 2 ^ 64 := by decide
  have hfive : (paddedLength 5).toNat = 8 := by decide
  obtain ⟨⟨-, -, hleast⟩, -, -⟩ := padding_computations_agree 18446744073709551612 hlimit
  obtain ⟨-, hwrite, hread⟩ := padding_computations_agree 5 (by decide)
  refine ⟨hlimit, hleast, ?_, ?_, ?_⟩
  · obtain ⟨zeros, hzero, hlength, hdrain⟩ := hwrite [1, 2, 3, 4, 5] rfl
    have hthree : zeros.length = 3 := by
      rw [hfive, List.length_append] at hlength
      exact Nat.add_left_cancel hlength
    obtain rfl : zeros = List.replicate 3 0 := List.eq_replicate_iff.mpr ⟨hthree, hzero⟩
    exact hdrain [9]
  · exact (hread [1, 2, 3, 4, 5, 6, 7, 8, 9]).2 (by decide)
  · exact fun hok => absurd ((hread [1, 2, 3, 4, 5, 6, 7]).1.mp hok) (by decide)

end WireSchema.Wire
