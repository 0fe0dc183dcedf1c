import Mathlib.Tactic.Ring
import WireSchema.Binary.Float

/-!
# Conversions between the precisions

Every single is the value of some double, so widening is exact and narrowing takes it back. What is
not a number stays so: it becomes quiet once and then no conversion changes it any more.

A finite magnitude is written as `a * hidden + q` with `q < 2 * hidden`, where `hidden ≤ q` unless
`a = 0`. It then denotes `q * 2 ^ a` units.
-/
namespace WireSchema.Binary

theorem roundDiv_mul_left (q : Nat) {den : Nat} (h : 0 < den) : roundDiv (q * den) den = q := by
  simp [roundDiv, Nat.mul_div_cancel q h, h]

namespace Format

variable {f : Format}

theorem hidden_pos : 0 < f.hidden := Nat.two_pow_pos _

theorem unitsPerOne_pos : 0 < f.unitsPerOne := Nat.two_pow_pos _

theorem units_add {a q : Nat} (hq : q < 2 * f.hidden) (ha : a = 0 ∨ f.hidden ≤ q) :
    f.units (a * f.hidden + q) = q * 2 ^ a := by
  have hpos : 0 < f.hidden := hidden_pos
  unfold units
  dsimp only
  by_cases hh : f.hidden ≤ q
  · -- The hidden bit of `q` carries into the exponent.
    obtain ⟨r, rfl⟩ := Nat.exists_eq_add_of_le hh
    have hr : r < f.hidden := by omega
    have hsplit : a * f.hidden + (f.hidden + r) = r + (a + 1) * f.hidden := by ring
    rw [hsplit, Nat.add_mul_div_right _ _ hpos, Nat.add_mul_mod_self_right, Nat.div_eq_of_lt hr,
      Nat.mod_eq_of_lt hr]
    simp
  · obtain rfl : a = 0 := ha.resolve_right hh
    have hlt : q < f.hidden := Nat.lt_of_not_le hh
    simp [Nat.div_eq_of_lt hlt, Nat.mod_eq_of_lt hlt]

theorem exists_eq_add (g : Nat) :
    ∃ a q, g = a * f.hidden + q ∧ q < 2 * f.hidden ∧ (a = 0 ∨ f.hidden ≤ q) := by
  have hpos : 0 < f.hidden := hidden_pos
  have hmod : g % f.hidden < f.hidden := Nat.mod_lt g hpos
  have hdiv : f.hidden * (g / f.hidden) + g % f.hidden = g := Nat.div_add_mod g f.hidden
  cases hd : g / f.hidden with
  | zero => exact ⟨0, g % f.hidden, by rw [hd] at hdiv; omega, by omega, .inl rfl⟩
  | succ a =>
    refine ⟨a, f.hidden + g % f.hidden, ?_, by omega, .inr (Nat.le_add_right _ _)⟩
    rw [hd] at hdiv
    calc g = f.hidden * (a + 1) + g % f.hidden := hdiv.symm
      _ = a * f.hidden + (f.hidden + g % f.hidden) := by ring

/-- Doubling a number that has few enough digits keeps it in the form of a magnitude. -/
theorem exists_units_eq {k : Nat} (hk : k < 2 * f.hidden) (j : Nat) :
    ∃ a q, q * 2 ^ a = k * 2 ^ j ∧ q < 2 * f.hidden ∧ (a = 0 ∨ f.hidden ≤ q) := by
  induction j with
  | zero => exact ⟨0, k, rfl, hk, .inl rfl⟩
  | succ j ih =>
    obtain ⟨a, q, heq, hq, ha⟩ := ih
    have hstep : k * 2 ^ (j + 1) = q * 2 ^ a * 2 := by rw [heq]; ring
    by_cases hh : f.hidden ≤ q
    · exact ⟨a + 1, q, by rw [hstep]; ring, hq, .inr hh⟩
    · obtain rfl : a = 0 := ha.resolve_right hh
      exact ⟨0, 2 * q, by rw [hstep]; ring, by omega, .inl rfl⟩

theorem log2_sub_fractionBits {a q : Nat} (hq : q < 2 * f.hidden) (ha : a = 0 ∨ f.hidden ≤ q) :
    Nat.log2 (q * 2 ^ a) - f.fractionBits = a := by
  have hlt : q < 2 ^ (f.fractionBits + 1) := by
    rw [Nat.pow_succ, Nat.mul_comm]
    exact hq
  by_cases hh : f.hidden ≤ q
  · have hne : q * 2 ^ a ≠ 0 :=
      Nat.mul_ne_zero (Nat.ne_of_gt (Nat.lt_of_lt_of_le hidden_pos hh)) (Nat.two_pow_pos a).ne'
    have hlog : Nat.log2 (q * 2 ^ a) = f.fractionBits + a := by
      rw [Nat.log2_eq_iff hne]
      constructor
      · rw [Nat.pow_add]
        exact Nat.mul_le_mul_right _ hh
      · calc q * 2 ^ a < 2 ^ (f.fractionBits + 1) * 2 ^ a :=
              Nat.mul_lt_mul_of_pos_right hlt (Nat.two_pow_pos a)
          _ = 2 ^ (f.fractionBits + a + 1) := by ring
    omega
  · obtain rfl : a = 0 := ha.resolve_right hh
    by_cases h0 : q = 0
    · simp [h0]
    · have hlog : Nat.log2 q < f.fractionBits + 1 := (Nat.log2_lt h0).mpr hlt
      simp only [Nat.pow_zero, Nat.mul_one]
      omega

/-- A quotient that a magnitude denotes is rounded to that magnitude. -/
theorem nearest_eq {num den a q : Nat} (hden : 0 < den) (hq : q < 2 * f.hidden)
    (ha : a = 0 ∨ f.hidden ≤ q) (h : num * f.unitsPerOne = q * 2 ^ a * den) :
    f.nearest num den = min (a * f.hidden + q) f.infinity := by
  have hshift : Nat.log2 (num * f.unitsPerOne / den) - f.fractionBits = a := by
    rw [h, Nat.mul_div_cancel _ hden, log2_sub_fractionBits hq ha]
  have hround : roundDiv (num * f.unitsPerOne) (den * Nat.pow 2 a) = q := by
    rw [h, Nat.pow_eq, show q * 2 ^ a * den = q * (den * 2 ^ a) by ring]
    exact roundDiv_mul_left q (Nat.mul_pos hden (Nat.two_pow_pos a))
  simp only [nearest, hshift, hround]

end Format

namespace Binary32

variable (x : Binary32)

theorem ofParts_isNegative_magnitude : ofParts x.isNegative x.magnitude = x := by
  have hb : x.bits.toNat < 2 ^ 32 := x.bits.toNat_lt
  have hsum : (if x.isNegative then 0x80000000 + x.magnitude else x.magnitude) =
      x.bits.toNat := by
    simp only [isNegative, magnitude, decide_eq_true_eq]
    split_ifs <;> omega
  cases x
  simp only [ofParts, hsum, UInt32.ofNat_toNat]

variable {negative : Bool} {m : Nat} (h : m < 2 ^ 31)
include h

theorem toNat_bits_ofParts :
    (ofParts negative m).bits.toNat = if negative then 2 ^ 31 + m else m := by
  simp only [ofParts, UInt32.toNat_ofNat']
  split_ifs <;> omega

theorem isNegative_ofParts : (ofParts negative m).isNegative = negative := by
  simp only [isNegative, toNat_bits_ofParts h]
  cases negative with
  | false => simpa using h
  | true => simp

theorem magnitude_ofParts : (ofParts negative m).magnitude = m := by
  simp only [magnitude, toNat_bits_ofParts h]
  split_ifs <;> omega

end Binary32

namespace Binary64

variable {negative : Bool} {m : Nat} (h : m < 2 ^ 63)
include h

theorem toNat_bits_ofParts :
    (ofParts negative m).bits.toNat = if negative then 2 ^ 63 + m else m := by
  simp only [ofParts, UInt64.toNat_ofNat']
  split_ifs <;> omega

theorem isNegative_ofParts : (ofParts negative m).isNegative = negative := by
  simp only [isNegative, toNat_bits_ofParts h]
  cases negative with
  | false => simpa using h
  | true => simp

theorem magnitude_ofParts : (ofParts negative m).magnitude = m := by
  simp only [magnitude, toNat_bits_ofParts h]
  split_ifs <;> omega

end Binary64

section Finite

-- The wider format counts in units that are smaller by `2 ^ d`.
variable {d : Nat} (hd : binary64.scale = d + binary32.scale)
include hd

theorem unitsPerOne_binary64 : binary64.unitsPerOne = 2 ^ d * binary32.unitsPerOne := by
  rw [Format.unitsPerOne, Format.unitsPerOne, hd, Nat.pow_eq, Nat.pow_eq, Nat.pow_add]

/-- A finite magnitude of the narrower format is one of the wider format as well. -/
theorem exists_wider {m : Nat} (hm : m < binary32.infinity) :
    ∃ w < binary64.infinity, binary64.nearest (binary32.units m) binary32.unitsPerOne = w ∧
      binary64.units w = binary32.units m * 2 ^ d := by
  obtain ⟨a, q, rfl, hq, ha⟩ := Format.exists_eq_add (f := binary32) m
  have hunits : binary32.units (a * binary32.hidden + q) = q * 2 ^ a := Format.units_add hq ha
  have h32 : binary32.hidden = 2 ^ 23 := rfl
  have h64 : binary64.hidden = 2 ^ 52 := rfl
  have hinf32 : binary32.infinity = 255 * 2 ^ 23 := rfl
  have hinf64 : binary64.infinity = 2047 * 2 ^ 52 := rfl
  obtain ⟨b, r, heq, hr, hb⟩ :=
    Format.exists_units_eq (f := binary64) (show q < 2 * binary64.hidden by omega) (a + d)
  -- The exponents of the wider format go on beyond those that are needed.
  have hfin : b * binary64.hidden + r < binary64.infinity := by
    rcases hb with rfl | hb
    · omega
    have hlt : 2 ^ (52 + b) < 2 ^ (24 + (a + d)) := by
      calc 2 ^ (52 + b) = 2 ^ 52 * 2 ^ b := Nat.pow_add 2 52 b
        _ ≤ r * 2 ^ b := Nat.mul_le_mul_right _ (h64 ▸ hb)
        _ = q * 2 ^ (a + d) := heq
        _ < 2 ^ 24 * 2 ^ (a + d) := Nat.mul_lt_mul_of_pos_right (by omega) (Nat.two_pow_pos _)
        _ = 2 ^ (24 + (a + d)) := (Nat.pow_add 2 24 _).symm
    have hexp : 52 + b < 24 + (a + d) := (Nat.pow_lt_pow_iff_right (by decide : 1 < 2)).mp hlt
    have hd925 : d = 925 := by
      have : binary64.scale = 1074 := rfl
      have : binary32.scale = 149 := rfl
      omega
    have ha255 : a < 255 := by
      rw [h32, hinf32] at hm
      omega
    have hb1152 : b < 1152 := by omega
    have hmul : b * 2 ^ 52 ≤ 1152 * 2 ^ 52 := Nat.mul_le_mul_right _ hb1152.le
    rw [h64] at hr ⊢
    exact Nat.lt_of_lt_of_le (Nat.add_lt_add_of_le_of_lt hmul hr) (hinf64 ▸ by decide)
  refine ⟨b * binary64.hidden + r, hfin, ?_, ?_⟩
  · rw [Format.nearest_eq Format.unitsPerOne_pos hr hb, Nat.min_eq_left hfin.le]
    rw [hunits, heq, unitsPerOne_binary64 hd, Nat.pow_add]
    ring
  · rw [Format.units_add hr hb, heq, hunits, Nat.pow_add, Nat.mul_assoc]

theorem nearest_units_mul {w m : Nat} (hm : m < binary32.infinity)
    (h : binary64.units w = binary32.units m * 2 ^ d) :
    binary32.nearest (binary64.units w) binary64.unitsPerOne = m := by
  obtain ⟨a, q, rfl, hq, ha⟩ := Format.exists_eq_add (f := binary32) m
  rw [Format.nearest_eq Format.unitsPerOne_pos hq ha, Nat.min_eq_left hm.le]
  rw [h, Format.units_add hq ha, unitsPerOne_binary64 hd]
  ring

end Finite

theorem widen_payload_lt {p : Nat} (hp : p < 2 ^ 23) : p * 2 ^ 29 ||| 2 ^ 51 < 2 ^ 52 :=
  Nat.or_lt_two_pow (by omega) (by decide)

theorem narrow_payload_lt {p : Nat} (hp : p < 2 ^ 23) : p ||| 2 ^ 22 < 2 ^ 23 :=
  Nat.or_lt_two_pow hp (by decide)

theorem widen_payload_div (p : Nat) : (p * 2 ^ 29 ||| 2 ^ 51) / 2 ^ 29 = p ||| 2 ^ 22 := by
  have hq : 2 ^ 51 >>> 29 = 2 ^ 22 := by decide
  rw [← Nat.shiftRight_eq_div_pow, Nat.shiftRight_or_distrib, hq, Nat.shiftRight_eq_div_pow,
    Nat.mul_div_cancel _ (by decide)]

theorem widen_payload_quiet (p : Nat) :
    (p ||| 2 ^ 22) * 2 ^ 29 ||| 2 ^ 51 = p * 2 ^ 29 ||| 2 ^ 51 := by
  have hq : 2 ^ 22 <<< 29 = 2 ^ 51 := by decide
  rw [← Nat.shiftLeft_eq, Nat.shiftLeft_or_distrib, hq, Nat.shiftLeft_eq, Nat.or_assoc, Nat.or_self]

theorem widen_of_isNaN {x : Binary32} (hx : x.isNaN) :
    x.widen = .ofParts x.isNegative
      (binary64.infinity + (x.magnitude % 2 ^ 23 * 2 ^ 29 ||| 2 ^ 51)) := by
  rw [Binary32.widen, if_pos hx]
  rfl

theorem narrow_of_isNaN {y : Binary64} (hy : y.isNaN) :
    y.narrow = .ofParts y.isNegative
      (binary32.infinity + (y.magnitude % 2 ^ 52 / 2 ^ 29 ||| 2 ^ 22)) := by
  rw [Binary64.narrow, if_pos hy]
  rfl

/-- Narrowing takes back what widening did to a number. -/
theorem narrow_widen {x : Binary32} (hx : x.isNaN = false) : x.widen.narrow = x := by
  have hle : x.magnitude ≤ binary32.infinity := by simpa [Binary32.isNaN] using hx
  have hinf : binary64.infinity < 2 ^ 63 := by decide
  rcases Nat.lt_or_eq_of_le hle with hlt | heq
  · obtain ⟨w, hw, hnear, hunits⟩ := exists_wider (d := 925) rfl hlt
    have hwide : x.widen = .ofParts x.isNegative w := by
      rw [Binary32.widen, if_neg (by simp [hx]), if_neg (by simp [Binary32.isInfinite, hlt.ne]),
        hnear]
    have hw63 : w < 2 ^ 63 := hw.trans hinf
    rw [hwide, Binary64.narrow, Binary64.isNegative_ofParts hw63, Binary64.isNaN,
      Binary64.isInfinite, Binary64.magnitude_ofParts hw63, if_neg (by simp [hw.le]),
      if_neg (by simp [hw.ne]), nearest_units_mul rfl hlt hunits, x.ofParts_isNegative_magnitude]
  · have hwide : x.widen = .ofParts x.isNegative binary64.infinity := by
      rw [Binary32.widen, if_neg (by simp [hx]), if_pos (by simp [Binary32.isInfinite, heq])]
    rw [hwide, Binary64.narrow, Binary64.isNegative_ofParts hinf, Binary64.isNaN,
      Binary64.isInfinite, Binary64.magnitude_ofParts hinf, if_neg (by simp), if_pos (by simp),
      ← heq, x.ofParts_isNegative_magnitude]

theorem isNaN_ofParts_quiet {negative : Bool} {p : Nat} (hp : p < 2 ^ 23) :
    (Binary32.ofParts negative (binary32.infinity + (p ||| 2 ^ 22))).isNaN := by
  have hinf : binary32.infinity = 255 * 2 ^ 23 := rfl
  have hn := narrow_payload_lt hp
  have hn0 : 2 ^ 22 ≤ p ||| 2 ^ 22 := Nat.right_le_or
  rw [Binary32.isNaN, Binary32.magnitude_ofParts (by omega)]
  simp only [decide_eq_true_eq]
  omega

theorem payload_ofParts_quiet {negative : Bool} {p : Nat} (hp : p < 2 ^ 23) :
    (Binary32.ofParts negative (binary32.infinity + (p ||| 2 ^ 22))).magnitude % 2 ^ 23 =
      p ||| 2 ^ 22 := by
  have hinf : binary32.infinity = 255 * 2 ^ 23 := rfl
  have hn := narrow_payload_lt hp
  rw [Binary32.magnitude_ofParts (by omega)]
  omega

theorem isNegative_ofParts_quiet {negative : Bool} {p : Nat} (hp : p < 2 ^ 23) :
    (Binary32.ofParts negative (binary32.infinity + (p ||| 2 ^ 22))).isNegative = negative := by
  have hinf : binary32.infinity = 255 * 2 ^ 23 := rfl
  have hn := narrow_payload_lt hp
  exact Binary32.isNegative_ofParts (by omega)

/-- Widening and narrowing makes what is not a number quiet. -/
theorem narrow_widen_of_isNaN {x : Binary32} (hx : x.isNaN) :
    x.widen.narrow =
      .ofParts x.isNegative (binary32.infinity + (x.magnitude % 2 ^ 23 ||| 2 ^ 22)) := by
  have hp : x.magnitude % 2 ^ 23 < 2 ^ 23 := Nat.mod_lt _ (by decide)
  rw [widen_of_isNaN hx]
  generalize x.magnitude % 2 ^ 23 = p at hp
  have hinf : binary64.infinity = 2047 * 2 ^ 52 := rfl
  have hw := widen_payload_lt hp
  have hw0 : 2 ^ 51 ≤ p * 2 ^ 29 ||| 2 ^ 51 := Nat.right_le_or
  have hwlt : binary64.infinity + (p * 2 ^ 29 ||| 2 ^ 51) < 2 ^ 63 := by omega
  have hnan : (Binary64.ofParts x.isNegative
      (binary64.infinity + (p * 2 ^ 29 ||| 2 ^ 51))).isNaN := by
    rw [Binary64.isNaN, Binary64.magnitude_ofParts hwlt]
    simp only [decide_eq_true_eq]
    omega
  rw [narrow_of_isNaN hnan, Binary64.isNegative_ofParts hwlt, Binary64.magnitude_ofParts hwlt,
    hinf, Nat.mul_comm, Nat.mul_add_mod, Nat.mod_eq_of_lt hw, widen_payload_div, Nat.or_assoc,
    Nat.or_self]

/-- Converting a widened single once more changes nothing. -/
theorem widen_narrow_widen (x : Binary32) : x.widen.narrow.widen = x.widen := by
  cases hx : x.isNaN with
  | false => rw [narrow_widen hx]
  | true =>
    have hp : x.magnitude % 2 ^ 23 < 2 ^ 23 := Nat.mod_lt _ (by decide)
    rw [narrow_widen_of_isNaN hx, widen_of_isNaN (isNaN_ofParts_quiet hp),
      payload_ofParts_quiet hp, isNegative_ofParts_quiet hp, widen_payload_quiet, widen_of_isNaN hx]

theorem isNaN_narrow {y : Binary64} (hy : y.isNaN = false) : y.narrow.isNaN = false := by
  have hinf : binary32.infinity < 2 ^ 31 := by decide
  rw [Binary64.narrow, if_neg (by simp [hy])]
  split_ifs
  · rw [Binary32.isNaN, Binary32.magnitude_ofParts hinf]
    simp
  · have hle := nearest_le_infinity binary32 (binary64.units y.magnitude) binary64.unitsPerOne
    rw [Binary32.isNaN, Binary32.magnitude_ofParts (hle.trans_lt hinf)]
    simpa using hle

theorem narrow_widen_narrow (y : Binary64) : y.narrow.widen.narrow = y.narrow := by
  cases hy : y.isNaN with
  | false => exact narrow_widen (isNaN_narrow hy)
  | true =>
    have hp : y.magnitude % 2 ^ 52 / 2 ^ 29 < 2 ^ 23 := by omega
    rw [narrow_of_isNaN hy, narrow_widen_of_isNaN (isNaN_ofParts_quiet hp),
      payload_ofParts_quiet hp, isNegative_ofParts_quiet hp, Nat.or_assoc, Nat.or_self]

end WireSchema.Binary
