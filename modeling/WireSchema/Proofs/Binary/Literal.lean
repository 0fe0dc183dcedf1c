import Mathlib.Data.List.TakeWhile
import Mathlib.Tactic.DefEqTransformations
import WireSchema.Binary.Layout
import WireSchema.Proofs.Binary.Conversion
import WireSchema.Proofs.Text.Literal

/-!
# Floating-point literals

A finite double is written as a literal that has a fraction or an exponent, so it is never taken for
an integer. Of the shortest decimal only this is needed: it is zero for no positive magnitude,
unless none was found at all.
-/
namespace WireSchema

namespace Text

open Command

structure IsDigits (cs : List Char) : Prop where
  ne_nil : cs ≠ []
  all : ∀ c ∈ cs, c.isDigit

/-- Digits that may have a minus sign. -/
inductive IsIntegerLiteral : List Char → Prop
  | plain {ds : List Char} (h : IsDigits ds) : IsIntegerLiteral ds
  | minus {ds : List Char} (h : IsDigits ds) : IsIntegerLiteral ('-' :: ds)

/-- What follows the whole digits of a literal: a fraction, an exponent or both. -/
inductive IsFloatTail : List Char → Prop
  | fraction {ds : List Char} (h : IsDigits ds) : IsFloatTail ('.' :: ds)
  | exponent {es : List Char} (h : IsIntegerLiteral es) : IsFloatTail ('e' :: es)
  | both {ds es : List Char} (h : IsDigits ds) (h' : IsIntegerLiteral es) :
    IsFloatTail ('.' :: ds ++ 'e' :: es)

inductive IsUnsignedFloat : List Char → Prop
  | mk {ds tail : List Char} (h : IsDigits ds) (htail : IsFloatTail tail) :
    IsUnsignedFloat (ds ++ tail)

/-- A literal of a floating-point number, which may have a minus sign. -/
inductive IsFloatLiteral : List Char → Prop
  | plain {cs : List Char} (h : IsUnsignedFloat cs) : IsFloatLiteral cs
  | minus {cs : List Char} (h : IsUnsignedFloat cs) : IsFloatLiteral ('-' :: cs)

/-- A fraction after a zero. -/
theorem IsDigits.isUnsignedFloat {ds : List Char} (h : IsDigits ds) :
    IsUnsignedFloat ('0' :: '.' :: ds) := by
  have hzero : IsDigits ['0'] := ⟨by simp, by simp⟩
  exact .mk hzero (.fraction h)

theorem IsDigits.append {ds es : List Char} (h : IsDigits ds) (hes : ∀ c ∈ es, c.isDigit) :
    IsDigits (ds ++ es) :=
  ⟨by simp [h.ne_nil], List.forall_mem_append.mpr ⟨h.all, hes⟩⟩

theorem isDigits_toDigits (n : Nat) : IsDigits (Nat.toDigits 10 n) := by
  have hdigit : ∀ m < 10, m.digitChar.isDigit = true := by decide
  induction n using Nat.strongRecOn with
  | ind n ih =>
    by_cases hn : n < 10
    · rw [Nat.toDigits_of_lt_base hn]
      exact ⟨by simp, by simpa using hdigit n hn⟩
    · rw [Nat.toDigits_of_base_le (by decide) (Nat.le_of_not_lt hn)]
      exact (ih (n / 10) (by omega)).append (by simpa using hdigit _ (Nat.mod_lt n (by decide)))

theorem exists_digit_ne_zero {n : Nat} (hn : n ≠ 0) : ∃ c ∈ Nat.toDigits 10 n, c ≠ '0' := by
  have hdigit : ∀ m < 10, m ≠ 0 → m.digitChar ≠ '0' := by decide
  induction n using Nat.strongRecOn with
  | ind n ih =>
    by_cases hlt : n < 10
    · exact ⟨n.digitChar, by simp [Nat.toDigits_of_lt_base hlt], hdigit n hlt hn⟩
    · obtain ⟨c, hc, hne⟩ := ih (n / 10) (by omega) (by omega)
      rw [Nat.toDigits_of_base_le (by decide) (Nat.le_of_not_lt hlt)]
      exact ⟨c, List.mem_append_left _ hc, hne⟩

theorem isIntegerLiteral_toString (v : Int) : IsIntegerLiteral (toString v).toList := by
  cases v with
  | ofNat n =>
    rw [show (toString (Int.ofNat n)).toList = Nat.toDigits 10 n from Nat.toList_repr]
    exact .plain (isDigits_toDigits n)
  | negSucc n =>
    rw [show toString (Int.negSucc n) = "-" ++ toString (n + 1) from rfl, String.toList_append,
      show (toString (n + 1)).toList = Nat.toDigits 10 (n + 1) from Nat.toList_repr]
    exact .minus (isDigits_toDigits (n + 1))

theorem digit?_of_digits? {base n : Nat} {cs : List Char} (h : digits? base cs = some n) :
    ∀ c ∈ cs, digit? base c ≠ none := by
  have hall : ∀ {cs : List Char} {values : List Nat}, cs.mapM (digit? base) = some values →
      ∀ c ∈ cs, digit? base c ≠ none := by
    intro cs
    induction cs with
    | nil => simp
    | cons c cs ih =>
      intro values hvalues
      rw [List.mapM_cons] at hvalues
      obtain ⟨d, hd, hrest⟩ := Option.bind_eq_some_iff.mp hvalues
      obtain ⟨ds, hds, -⟩ := Option.bind_eq_some_iff.mp hrest
      exact List.forall_mem_cons.mpr ⟨by simp [hd], ih hds⟩
  obtain ⟨values, hvalues, -⟩ := Option.bind_eq_some_iff.mp h
  exact hall hvalues

theorem IsUnsignedFloat.digits?_eq_none {cs : List Char} (h : IsUnsignedFloat cs) :
    digits? 10 cs = none := by
  have hmark : ∃ c ∈ cs, digit? 10 c = none := by
    obtain ⟨-, htail⟩ := h
    cases htail with
    | fraction => exact ⟨'.', by simp, by decide⟩
    | exponent => exact ⟨'e', by simp, by decide⟩
    | both => exact ⟨'.', by simp, by decide⟩
  obtain ⟨c, hc, hnone⟩ := hmark
  cases hdigits : digits? 10 cs with
  | none => rfl
  | some n => exact absurd hnone (digit?_of_digits? hdigits c hc)

theorem IsUnsignedFloat.ne_minus {cs : List Char} (h : IsUnsignedFloat cs) (rest : List Char) :
    cs ≠ '-' :: rest := by
  obtain ⟨hdigits, -⟩ := h
  rename_i ds tail
  cases ds with
  | nil => exact absurd rfl hdigits.ne_nil
  | cons d ds =>
    intro hcs
    obtain rfl : d = '-' := (List.cons_eq_cons.mp hcs).1
    exact absurd (hdigits.all _ List.mem_cons_self) (by decide)

theorem IsFloatLiteral.integer?_eq_none {cs : List Char} (h : IsFloatLiteral cs) :
    integer? cs = none := by
  cases h with
  | minus h =>
    rw [integer?, h.digits?_eq_none]
    rfl
  | plain h =>
    unfold integer?
    split
    · exact absurd rfl (h.ne_minus _)
    · rw [h.digits?_eq_none]
      rfl

end Text

namespace Binary

open Text

namespace Layout

theorem isDigits_dropTrailingZeros {ds : List Char} (h : IsDigits ds) (hne : ∃ c ∈ ds, c ≠ '0') :
    IsDigits (dropTrailingZeros ds) := by
  unfold dropTrailingZeros
  constructor
  · intro hnil
    rw [List.reverse_eq_nil_iff, List.dropWhile_eq_nil_iff] at hnil
    obtain ⟨c, hc, hzero⟩ := hne
    exact hzero (by simpa using hnil c (List.mem_reverse.mpr hc))
  · intro c hc
    exact h.all c (List.mem_reverse.mp ((List.dropWhile_subset _) (List.mem_reverse.mp hc)))

theorem isDigit_zeros (n : Nat) : ∀ c ∈ zeros n, c.isDigit := by
  intro c hc
  rw [List.eq_of_mem_replicate hc]
  rfl

variable {l : Layout} {ds : List Char}

theorem isUnsignedFloat_positionalText (hl : l.keepsFraction = true) (h : IsDigits ds)
    (point : Int) : IsUnsignedFloat (l.positionalText ds point) := by
  unfold positionalText
  split_ifs with hpoint hinside
  · have hfraction : IsDigits (zeros (-point).toNat ++ ds) :=
      ⟨by simp [h.ne_nil], List.forall_mem_append.mpr ⟨isDigit_zeros _, h.all⟩⟩
    exact hfraction.isUnsignedFloat
  · -- The point stands between two digits.
    have hpos : 0 < point.toNat := by omega
    have hlt : point.toNat < ds.length := by omega
    refine .mk ⟨?_, fun c hc => h.all c (List.mem_of_mem_take hc)⟩
      (.fraction ⟨?_, fun c hc => h.all c (List.mem_of_mem_drop hc)⟩)
    · simp [List.take_eq_nil_iff, h.ne_nil]
      omega
    · simp [List.drop_eq_nil_iff]
      omega
  · exact .mk (h.append (isDigit_zeros _)) (.fraction ⟨by simp, by simp⟩)

theorem isUnsignedFloat_scientificText (h : IsDigits ds) (lead : Int) :
    IsUnsignedFloat (scientificText ds lead) := by
  have hlead := isIntegerLiteral_toString lead
  have hfirst : IsDigits (ds.take 1) :=
    ⟨by simp [List.take_eq_nil_iff, h.ne_nil], fun c hc => h.all c (List.mem_of_mem_take hc)⟩
  unfold scientificText
  dsimp only
  split_ifs with hempty
  · rw [List.append_nil]
    exact .mk hfirst (.exponent hlead)
  · have hrest : IsDigits (ds.drop 1) :=
      ⟨by simpa using hempty, fun c hc => h.all c (List.mem_of_mem_drop hc)⟩
    rw [List.append_assoc]
    exact .mk hfirst (.both hrest hlead)

theorem isUnsignedFloat_decimalText (hl : l.keepsFraction = true) {d : Decimal}
    (hd : d.digits ≠ 0) : IsUnsignedFloat (l.decimalText d) := by
  have hdigits := isDigits_dropTrailingZeros (isDigits_toDigits d.digits) (exists_digit_ne_zero hd)
  unfold decimalText
  dsimp only
  split_ifs
  · exact isUnsignedFloat_positionalText hl hdigits _
  · exact isUnsignedFloat_scientificText hdigits _

end Layout

theorem nearest_zero (f : Format) (den : Nat) : f.nearest 0 den = 0 := by
  simp [Format.nearest, roundDiv]

theorem readsBack_of_candidate? {magnitude count : Nat} {d : Decimal}
    (h : candidate? magnitude count = some d) : readsBack magnitude d = true := by
  -- The definition is opened before it is applied: unfolding it at its arguments would compute with
  -- the units of the format.
  generalize hf : candidate? = f at h
  delta candidate? at hf
  rw [← hf] at h
  beta_reduce at h
  extract_lets num den exponent num' den' below above at h
  cases hbelow : readsBack magnitude below with
  | false =>
    cases habove : readsBack magnitude above with
    | false =>
      rw [hbelow, habove] at h
      cases h
    | true =>
      rw [hbelow, habove] at h
      rw [← Option.some.inj h, habove]
  | true =>
    cases habove : readsBack magnitude above with
    | false =>
      rw [hbelow, habove] at h
      rw [← Option.some.inj h, hbelow]
    | true =>
      rw [hbelow, habove] at h
      rw [← Option.some.inj h]
      split_ifs
      · exact hbelow
      · exact habove

/-- Zero is read back as zero only. -/
theorem digits_ne_zero_of_readsBack {magnitude : Nat} {d : Decimal} (hm : magnitude ≠ 0)
    (h : readsBack magnitude d = true) : d.digits ≠ 0 := by
  intro hd
  have hratio : d.ratio.1 = 0 := by
    unfold Decimal.ratio
    split_ifs <;> simp [hd]
  rw [readsBack, hratio, nearest_zero, beq_iff_eq] at h
  exact hm h.symm

theorem shortest_cases {magnitude : Nat} (hm : magnitude ≠ 0) :
    (shortest magnitude).digits ≠ 0 ∨ shortest magnitude = ⟨0, 0⟩ := by
  unfold shortest
  cases hfound : (List.range 17).findSome? fun n => candidate? magnitude (n + 1) with
  | none => exact .inr rfl
  | some d =>
    obtain ⟨n, -, hd⟩ := List.exists_of_findSome?_eq_some hfound
    exact .inl (digits_ne_zero_of_readsBack hm (readsBack_of_candidate? hd))

theorem isUnsignedFloat_zero : IsUnsignedFloat ['0', '.', '0'] :=
  IsDigits.isUnsignedFloat ⟨by simp, by simp⟩

/-- A finite double is written as a floating-point literal. -/
theorem isFloatLiteral_text {x : Binary64} (h : x.isFinite) :
    IsFloatLiteral (literalLayout.text x).toList := by
  have hfinite : x.magnitude < binary64.infinity := by simpa [Binary64.isFinite] using h
  have hnumber : x.isNaN = false := by simp [Binary64.isNaN]; omega
  have hlimited : x.isInfinite = false := by simp [Binary64.isInfinite]; omega
  have hbody : ∃ body, IsUnsignedFloat body ∧ literalLayout.text x =
      (if x.isNegative then "-" else "") ++ String.ofList body := by
    unfold Layout.text
    simp only [hnumber, hlimited, Bool.false_eq_true, if_false]
    by_cases hzero : x.magnitude = 0
    · rw [if_pos hzero]
      exact ⟨_, isUnsignedFloat_zero, rfl⟩
    · rw [if_neg hzero]
      refine ⟨_, ?_, rfl⟩
      rcases shortest_cases hzero with hdigits | hnone
      · exact Layout.isUnsignedFloat_decimalText rfl hdigits
      · rw [hnone]
        exact isUnsignedFloat_zero
  obtain ⟨body, hunsigned, htext⟩ := hbody
  rw [htext, String.toList_append, String.toList_ofList]
  split_ifs
  · exact .minus hunsigned
  · exact .plain hunsigned

theorem roundDiv_le (num den : Nat) : roundDiv num den ≤ num / den + 1 := by
  unfold roundDiv
  dsimp only
  split_ifs <;> omega

/-- An integer of `k` bits needs no exponent above that of the next power of two. -/
theorem nearest_one_le {f : Format} {n k : Nat} (h : n < 2 ^ k) :
    f.nearest n 1 ≤ (k + f.scale - f.fractionBits + 2) * f.hidden := by
  have hscaled : n * f.unitsPerOne < 2 ^ (k + f.scale) := by
    rw [Nat.pow_add]
    exact Nat.mul_lt_mul_of_pos_right h Format.unitsPerOne_pos
  unfold Format.nearest
  dsimp only
  rw [Nat.div_one, Nat.one_mul, Nat.pow_eq]
  generalize n * f.unitsPerOne = scaled at hscaled ⊢
  have hlog : scaled.log2 ≤ k + f.scale := by
    by_cases hzero : scaled = 0
    · simp [hzero]
    · exact Nat.le_of_lt ((Nat.log2_lt hzero).mpr hscaled)
  have hshift : scaled.log2 - f.fractionBits ≤ k + f.scale - f.fractionBits :=
    Nat.sub_le_sub_right hlog _
  have hquotient : scaled / 2 ^ (scaled.log2 - f.fractionBits) < 2 * f.hidden := by
    apply Nat.div_lt_of_lt_mul
    calc scaled < 2 ^ (scaled.log2 + 1) := Nat.lt_log2_self
      _ ≤ 2 ^ (scaled.log2 - f.fractionBits + (f.fractionBits + 1)) :=
        Nat.pow_le_pow_right (by decide) (by omega)
      _ = 2 ^ (scaled.log2 - f.fractionBits) * (2 * f.hidden) := by
        rw [Nat.pow_add, Nat.pow_succ, Nat.mul_comm _ 2, Format.hidden, Nat.pow_eq]
  have hround := roundDiv_le scaled (2 ^ (scaled.log2 - f.fractionBits))
  calc min _ _ ≤ _ := Nat.min_le_left _ _
    _ ≤ (k + f.scale - f.fractionBits) * f.hidden + 2 * f.hidden :=
      Nat.add_le_add (Nat.mul_le_mul_right _ hshift) (by omega)
    _ = _ := (Nat.add_mul _ _ _).symm

theorem isFinite_ofInt {v : Int} (h : v.natAbs < 2 ^ 64) : (Binary64.ofInt v).isFinite := by
  have hnearest : binary64.nearest v.natAbs 1 < binary64.infinity :=
    Nat.lt_of_le_of_lt (nearest_one_le h) (by decide)
  have hmagnitude : binary64.nearest v.natAbs 1 < 2 ^ 63 :=
    Nat.lt_trans hnearest (by decide)
  unfold Binary64.isFinite Binary64.ofInt
  rw [Binary64.magnitude_ofParts hmagnitude]
  simpa using hnearest

end Binary
end WireSchema
