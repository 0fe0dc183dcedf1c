import WireSchema.Proofs.Value.RoundTrip

/-!
# What a decoded value was read from

A decoder that succeeds has looked at exactly the bytes that it consumed. More bytes behind them
change nothing, and with any of them missing the input ends unexpectedly: no check that could fail
otherwise is made before everything that it is made of has been read.
-/
namespace WireSchema

open Wire Schema

namespace Wire.Decoder

variable {α β : Type}

/-- An input that breaks off inside the bytes ends unexpectedly. -/
def NeedsAll (d : Decoder α) (bytes : List UInt8) : Prop :=
  ∀ front, front <+: bytes → front ≠ bytes → (d front).1 = .error .unexpectedEof

/-- Whenever the decoder succeeds, it reads what it consumed whatever follows, and needs all of it.
-/
def Consumes (d : Decoder α) : Prop :=
  ∀ input a rest, d input = (.ok a, rest) → ∃ c, input = c ++ rest ∧ d.Reads c a ∧ d.NeedsAll c

theorem needsAll_nil (d : Decoder α) : d.NeedsAll [] := by
  intro front hfront hne
  exact absurd (List.prefix_nil.mp hfront) hne

theorem needsAll_take {bytes : List UInt8} {n : Nat} (h : bytes.length = n) :
    (take n).NeedsAll bytes := by
  intro front hfront hne
  have hshort : ¬ n ≤ front.length := by
    intro hle
    exact hne (hfront.eq_of_length_le (h ▸ hle))
  simp [take, hshort]

/-- The input breaks off in what the first decoder reads, or behind it in what the second reads. -/
theorem NeedsAll.bind {d : Decoder α} {f : α → Decoder β} {x y : List UInt8} {a : α}
    (hreads : d.Reads x a) (hd : d.NeedsAll x) (hf : (f a).NeedsAll y) :
    (d >>= f).NeedsAll (x ++ y) := by
  intro front hfront hne
  rw [run_bind]
  by_cases hx : x <+: front
  · obtain ⟨tail, rfl⟩ := hx
    rw [hreads tail]
    apply hf tail ((List.prefix_append_right_inj x).mp hfront)
    rintro rfl
    exact hne rfl
  · have hshort : front <+: x :=
      (List.prefix_or_prefix_of_prefix hfront (List.prefix_append x y)).resolve_right hx
    have hend : (d front).1 = .error .unexpectedEof := by
      apply hd front hshort
      rintro rfl
      exact hx List.prefix_rfl
    match hr : d front with
    | (.ok a, mid) => simp [hr] at hend
    | (.error e, mid) => simpa [hr] using hend

theorem congruence_consumes : Congruence fun d _ => d.Consumes where
  pure a input b rest h := by
    obtain ⟨rfl, rfl⟩ := pure_eq_ok_iff.mp h
    exact ⟨[], rfl, .pure a, needsAll_nil _⟩
  fail e input a rest h := by simp at h
  take n input bytes rest h := by
    obtain ⟨hlen, rfl⟩ := take_eq_ok_iff.mp h
    exact ⟨bytes, rfl, reads_take hlen, needsAll_take hlen⟩
  bind {_ _ d _ f _} hd hf input b rest h := by
    obtain ⟨a, mid, ha, hb⟩ := bind_eq_ok_iff.mp h
    obtain ⟨c, rfl, hreads, hneeds⟩ := hd input a mid ha
    obtain ⟨c', rfl, hreads', hneeds'⟩ := hf a mid b rest hb
    refine ⟨c ++ c', (List.append_assoc c c' rest).symm, hreads.bind hreads', ?_⟩
    exact hneeds.bind hreads hneeds'

end Wire.Decoder

namespace Schema

variable (s : Schema) (cap : Nat)

theorem consumes_decodeWithin (depth : Nat) (id : TypeId) :
    (s.decodeWithin cap depth id).Consumes := by
  induction depth generalizing id with
  | zero =>
    intro input v rest h
    cases h
  | succ depth ih =>
    exact @decodeWith_congr s cap _ Decoder.congruence_consumes _ (s.decodeWithin cap depth) ih id

theorem decodeWithin_depthFor {input : List UInt8} {n : Nat} (h : input.length ≤ n) (id : TypeId) :
    s.decodeWithin cap (s.depthFor n) id input = s.decode cap id input := by
  apply s.decodeWithin_eq_decode cap
  exact Nat.mul_le_mul (Nat.succ_le_succ h) (Nat.le_succ _)

/-- Decoding depends on exactly the bytes that it consumes: the value is the same whatever follows
them, and every input that breaks off inside them ends unexpectedly. -/
theorem decode_depends_on_consumed (s : Schema) (cap : Nat) (id : TypeId)
    (input rest : List UInt8) (v : Value) (h : s.decode cap id input = (.ok v, rest)) :
    ∃ c, input = c ++ rest ∧ (∀ x, s.decode cap id (c ++ x) = (.ok v, x)) ∧
      ∀ front, front <+: c → front ≠ c → (s.decode cap id front).1 = .error .unexpectedEof := by
  -- What was consumed does not depend on the depth, so each input may be read at its own.
  have hdepth : ∀ n, input.length ≤ n → ∃ c, input = c ++ rest ∧
      (s.decodeWithin cap (s.depthFor n) id).Reads c v ∧
      (s.decodeWithin cap (s.depthFor n) id).NeedsAll c := by
    intro n hn
    apply s.consumes_decodeWithin cap (s.depthFor n) id input v rest
    rw [s.decodeWithin_depthFor cap hn, h]
  obtain ⟨c, rfl, -, hneeds⟩ := hdepth _ (Nat.le_refl _)
  refine ⟨c, rfl, ?_, ?_⟩
  · intro x
    obtain ⟨c', hc, hreads, -⟩ := hdepth ((c ++ rest).length + x.length) (Nat.le_add_right _ _)
    obtain rfl := List.append_cancel_right hc
    rw [← s.decodeWithin_depthFor cap (n := (c ++ rest).length + x.length)]
    · exact hreads x
    · simp only [List.length_append]
      omega
  · intro front hfront hne
    rw [← s.decodeWithin_depthFor cap (n := (c ++ rest).length)]
    · exact hneeds front hfront hne
    · exact Nat.le_trans hfront.length_le (by simp)

/-- A report that breaks off in its last byte, inside the reading of its map. -/
theorem decode_depends_on_consumed_report :
    station.decode 8 ⟨3⟩ (reportBytes ++ [7]) = (.ok (station.normalize ⟨3⟩ report), [7]) ∧
      station.decode 8 ⟨3⟩ (reportBytes ++ [1, 2]) =
        (.ok (station.normalize ⟨3⟩ report), [1, 2]) ∧
      (station.decode 8 ⟨3⟩ reportBytes.dropLast).1 = .error .unexpectedEof := by
  have hwritten : (station.encode 8 ⟨3⟩ report).result = .ok reportBytes := by decide +kernel
  have hread := reads_decode hwritten [7]
  obtain ⟨c, hinput, hsame, hcut⟩ := decode_depends_on_consumed station 8 ⟨3⟩ _ _ _ hread
  obtain rfl := List.append_cancel_right hinput
  refine ⟨hread, hsame [1, 2], ?_⟩
  apply hcut reportBytes.dropLast (List.dropLast_prefix _)
  decide

end Schema
end WireSchema
