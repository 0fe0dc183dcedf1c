import Mathlib.Data.Finset.Card
import Mathlib.Data.Finset.Range
import WireSchema.Proofs.Wire.Decoder
import WireSchema.Value.Decode

/-!
# Decoding without a bound on depth

The decoder is given a depth, and the depth that it is given is always enough: with any larger one
it does the same. So decoding is a fixed point of decoding one level, which is how later proofs see
it. The depth counts, for every byte that may still be consumed, one level for each type of the
table, since a chain of records that consumes nothing either has no record twice or never ends.
-/
namespace WireSchema

open Wire Schema

namespace Wire.Decoder

variable {α β : Type}

/-- What is left unread is a final part of the input. -/
def Shrinks (d : Decoder α) : Prop := ∀ input, (d input).2 <:+ input

theorem Shrinks.bind {d : Decoder α} {f : α → Decoder β} (hd : d.Shrinks)
    (hf : ∀ a, (f a).Shrinks) : (d >>= f).Shrinks := by
  intro input
  have h := hd input
  rw [run_bind]
  match hr : d input with
  | (.ok a, mid) => exact (hf a mid).trans (by simpa [hr] using h)
  | (.error e, mid) => simpa [hr] using h

theorem congruence_shrinks : Congruence fun d _ => d.Shrinks where
  pure _ _ := List.suffix_rfl
  fail _ _ := List.suffix_rfl
  take n input := by
    unfold take
    split_ifs
    · exact List.drop_suffix n input
    · exact List.suffix_rfl
  bind hd hf := hd.bind hf

/-- Both decoders do the same, except where the first one never ends. -/
def Below (d d' : Decoder α) : Prop := ∀ input, d input = endless input ∨ d input = d' input

theorem congruence_below : Congruence Below where
  pure _ _ := .inr rfl
  fail _ _ := .inr rfl
  take _ _ := .inr rfl
  bind {_ _ d d' f f'} hd hf input := by
    rw [run_bind, run_bind]
    rcases hd input with h | h
    · exact .inl (by rw [h]; rfl)
    · rw [← h]
      match d input with
      | (.ok a, mid) => exact hf a mid
      | (.error e, mid) => exact .inr rfl

/-- Both decoders do the same on every final part of the input. -/
def AgreeOn (input : List UInt8) (d d' : Decoder α) : Prop :=
  d.Shrinks ∧ ∀ j, j <:+ input → d j = d' j

theorem congruence_agreeOn (input : List UInt8) : Congruence fun d d' => AgreeOn input d d' where
  pure a := ⟨congruence_shrinks.pure a, fun _ _ => rfl⟩
  fail e := ⟨congruence_shrinks.fail e, fun _ _ => rfl⟩
  take n := ⟨congruence_shrinks.take n, fun _ _ => rfl⟩
  bind {_ _ d d' f f'} hd hf := by
    refine ⟨hd.1.bind fun a => (hf a).1, fun j hj => ?_⟩
    have h := hd.1 j
    rw [run_bind, run_bind, ← hd.2 j hj]
    match hr : d j with
    | (.ok a, mid) => exact (hf a).2 mid ((by simpa [hr] using h : mid <:+ j).trans hj)
    | (.error e, mid) => rfl

theorem length_lt_of_count {typeName : String} {max n : Nat} {input rest : List UInt8}
    (h : count typeName max input = (.ok n, rest)) :
    rest <:+ input ∧ rest.length < input.length := by
  obtain ⟨k, mid, hk, hn⟩ := bind_eq_ok_iff.mp h
  obtain ⟨bytes, _, hb, hp⟩ := bind_eq_ok_iff.mp hk
  obtain ⟨hlen, rfl⟩ := take_eq_ok_iff.mp hb
  obtain ⟨rfl, rfl⟩ := pure_eq_ok_iff.mp hp
  split_ifs at hn
  · simp [run_bind] at hn
  · obtain ⟨_, rfl⟩ := pure_eq_ok_iff.mp hn
    exact ⟨List.suffix_append bytes _, by simp [hlen]⟩

end Wire.Decoder

namespace Schema

variable (s : Schema) (cap : Nat)

section Congruence

variable {R : ∀ {α : Type}, Decoder α → Decoder α → Prop} (hR : Decoder.Congruence R)
variable {part part' : TypeId → Decoder Value}
include hR

theorem decodeMembers_congr {members : List Member}
    (h : ∀ m ∈ members, R (part m.type) (part' m.type)) :
    R (decodeMembers part members) (decodeMembers part' members) := by
  refine hR.mapM ?_
  intro m hm
  exact hR.map (h m hm) fun v => (m.name, v)

variable (h : ∀ id, R (part id) (part' id))
include h

theorem decodePairs_congr (typeName : String) (keyForm : Value → Except WireError (List UInt8))
    (key value : TypeId) (n : Nat) (seen : List (List UInt8)) (done : List (Value × Value)) :
    R (decodePairs typeName keyForm (part key) (part value) n seen done)
      (decodePairs typeName keyForm (part' key) (part' value) n seen done) := by
  induction n generalizing seen done with
  | zero => exact hR.pure done.reverse
  | succ n ih =>
    refine hR.bind (h key) fun k => ?_
    cases keyForm k with
    | error e => exact hR.fail e
    | ok form =>
      dsimp only
      split_ifs
      · exact hR.fail _
      · exact hR.bind (h value) fun v => ih (form :: seen) ((k, v) :: done)

theorem decodeWith_congr (id : TypeId) :
    R (s.decodeWith cap part id) (s.decodeWith cap part' id) := by
  unfold decodeWith
  cases s.type id with
  | bool => exact hR.map hR.bool _
  | numeric n => exact hR.map (hR.number n) _
  | text wide => exact hR.map hR.text _
  | blob => exact hR.map hR.blob _
  | enumeration e =>
    refine hR.bind (hR.number .int32) fun v => ?_
    split_ifs
    · exact hR.pure _
    · exact hR.fail _
  | record r => exact hR.map (decodeMembers_congr hR fun m _ => h m.type) _
  | sequence q => exact hR.bind (hR.count _ _) fun n => hR.map (hR.times (h q.element) n) _
  | map m => exact hR.bind (hR.count _ _) fun n => hR.map (decodePairs_congr hR h _ _ _ _ n [] []) _
  | forward name => exact hR.fail _

end Congruence

theorem shrinks_decodeWithin (depth : Nat) (id : TypeId) :
    (s.decodeWithin cap depth id).Shrinks := by
  induction depth generalizing id with
  | zero => exact fun _ => List.nil_suffix
  | succ depth ih =>
    exact @decodeWith_congr s cap _ Decoder.congruence_shrinks _ (s.decodeWithin cap depth) ih id

theorem decodeWithin_below_succ (depth : Nat) (id : TypeId) :
    (s.decodeWithin cap depth id).Below (s.decodeWithin cap (depth + 1) id) := by
  induction depth generalizing id with
  | zero => exact fun _ => .inl rfl
  | succ depth ih => exact s.decodeWith_congr cap Decoder.congruence_below ih id

/-- Only records hand their own input on to a part. -/
theorem decodeWith_eq_of_shorter {part part' : TypeId → Decoder Value} {id : TypeId}
    {input : List UInt8} (hid : ∀ r, s.type id ≠ .record r) (hs : ∀ id, (part id).Shrinks)
    (h : ∀ id j, j <:+ input → j.length < input.length → part id j = part' id j) :
    s.decodeWith cap part id input = s.decodeWith cap part' id input := by
  have hmid : ∀ mid, mid <:+ input → mid.length < input.length →
      ∀ id, Decoder.AgreeOn mid (part id) (part' id) := fun mid hm hl id =>
    ⟨hs id, fun j hj => h id j (hj.trans hm) (Nat.lt_of_le_of_lt hj.length_le hl)⟩
  unfold decodeWith
  cases ht : s.type id with
  | record r => exact absurd ht (hid r)
  | sequence q =>
    simp only [Decoder.run_bind]
    match hc : Decoder.count q.name.text cap input with
    | (.error e, mid) => rfl
    | (.ok n, mid) =>
      obtain ⟨hm, hl⟩ := Decoder.length_lt_of_count hc
      have hR := Decoder.congruence_agreeOn mid
      exact (hR.map (hR.times (hmid mid hm hl q.element) n) _).2 mid List.suffix_rfl
  | map m =>
    simp only [Decoder.run_bind]
    match hc : Decoder.count m.name.text cap input with
    | (.error e, mid) => rfl
    | (.ok n, mid) =>
      obtain ⟨hm, hl⟩ := Decoder.length_lt_of_count hc
      have hR := Decoder.congruence_agreeOn mid
      exact (hR.map (decodePairs_congr hR (hmid mid hm hl) _ _ _ _ n [] []) _).2 mid
        List.suffix_rfl
  | _ => rfl

/-- One more level changes nothing on the input and on its final parts. -/
def Settled (depth : Nat) (input : List UInt8) : Prop :=
  ∀ id j, j <:+ input → s.decodeWithin cap depth id j = s.decodeWithin cap (depth + 1) id j

variable {s cap}

theorem Settled.succ {depth : Nat} {input : List UInt8} (h : s.Settled cap depth input) :
    s.Settled cap (depth + 1) input := by
  intro id j hj
  have hR := Decoder.congruence_agreeOn input
  have hparts := fun id => And.intro (s.shrinks_decodeWithin cap depth id) (h id)
  exact (s.decodeWith_congr cap hR hparts id).2 j hj

theorem Settled.mono {depth depth' : Nat} {input : List UInt8} (h : s.Settled cap depth input)
    (hle : depth ≤ depth') : s.Settled cap depth' input := by
  induction hle with
  | refl => exact h
  | step _ ih => exact ih.succ

theorem Settled.eq {depth depth' : Nat} {input : List UInt8} (h : s.Settled cap depth input)
    (hle : depth ≤ depth') (id : TypeId) :
    s.decodeWithin cap depth id input = s.decodeWithin cap depth' id input := by
  induction hle with
  | refl => rfl
  | step hle ih => exact ih.trans (h.mono hle id input List.suffix_rfl)

variable (s cap)

open Classical in
/-- The types of the table whose decoding of the input ends within the depth. -/
noncomputable def endedTypes (depth : Nat) (input : List UInt8) : Finset Nat :=
  (Finset.range s.types.size).filter fun i =>
    s.decodeWithin cap depth ⟨i⟩ input ≠ Decoder.endless input

theorem mem_endedTypes {depth : Nat} {input : List UInt8} {i : Nat} :
    i ∈ s.endedTypes cap depth input ↔
      i < s.types.size ∧ s.decodeWithin cap depth ⟨i⟩ input ≠ Decoder.endless input := by
  simp [endedTypes]

theorem card_endedTypes_le (depth : Nat) (input : List UInt8) :
    (s.endedTypes cap depth input).card ≤ s.types.size := by
  have h : s.endedTypes cap depth input ⊆ Finset.range s.types.size :=
    fun i hi => Finset.mem_range.mpr ((s.mem_endedTypes cap).mp hi).1
  simpa using Finset.card_le_card h

variable {s cap}

theorem index_lt_of_record {id : TypeId} {r : RecordType} (h : s.type id = .record r) :
    id.index < s.types.size := by
  by_contra hlt
  simp [type, Array.getD, hlt] at h

/-- A level that changes something ends a record that did not end before. -/
theorem card_endedTypes_lt {depth : Nat} {input : List UInt8}
    (hshort : ∀ j, j <:+ input → j.length < input.length → s.Settled cap depth j)
    (h : ¬ s.Settled cap (depth + 1) input) :
    (s.endedTypes cap (depth + 1) input).card < (s.endedTypes cap (depth + 2) input).card := by
  unfold Settled at h
  push Not at h
  obtain ⟨id, j, hj, hne⟩ := h
  have hlen : ¬ j.length < input.length := by
    intro hl
    exact hne ((hshort j hj hl).succ id j List.suffix_rfl)
  obtain rfl : j = input := hj.eq_of_length_le (Nat.le_of_not_lt hlen)
  -- Everything but a record only looks at shorter inputs, which are settled.
  have hrec : ∃ r, s.type id = .record r := by
    by_contra hno
    push Not at hno
    exact hne (s.decodeWith_eq_of_shorter cap hno (s.shrinks_decodeWithin cap depth)
      fun id k hk hl => hshort k hk hl id k List.suffix_rfl)
  obtain ⟨r, hr⟩ := hrec
  have hbefore : s.decodeWithin cap (depth + 1) id j = Decoder.endless j :=
    (s.decodeWithin_below_succ cap (depth + 1) id j).resolve_right hne
  apply Finset.card_lt_card
  rw [Finset.ssubset_iff_of_subset]
  · refine ⟨id.index, ?_, ?_⟩
    · exact (s.mem_endedTypes cap).mpr
        ⟨index_lt_of_record hr, fun hend => hne (hbefore.trans hend.symm)⟩
    · exact fun hmem => ((s.mem_endedTypes cap).mp hmem).2 hbefore
  · intro i hi
    obtain ⟨hlt, hend⟩ := (s.mem_endedTypes cap).mp hi
    refine (s.mem_endedTypes cap).mpr ⟨hlt, ?_⟩
    rwa [← (s.decodeWithin_below_succ cap (depth + 1) ⟨i⟩ j).resolve_left hend]

theorem settled_of_shorter {depth : Nat} {input : List UInt8}
    (hshort : ∀ j, j <:+ input → j.length < input.length → s.Settled cap depth j) :
    s.Settled cap (depth + (s.types.size + 1)) input := by
  have hcount : ∀ k, s.Settled cap (depth + k + 1) input ∨
      k < (s.endedTypes cap (depth + k + 2) input).card := by
    intro k
    by_cases h : s.Settled cap (depth + k + 1) input
    · exact .inl h
    refine .inr ?_
    have hlt := card_endedTypes_lt (fun j hj hl => (hshort j hj hl).mono (Nat.le_add_right _ k)) h
    induction k with
    | zero => omega
    | succ k ih =>
      have hk : ¬ s.Settled cap (depth + k + 1) input := fun hk => h hk.succ
      have := ih hk (card_endedTypes_lt
        (fun j hj hl => (hshort j hj hl).mono (Nat.le_add_right _ k)) hk)
      exact Nat.lt_of_le_of_lt this hlt
  rcases hcount s.types.size with h | h
  · exact h
  · exact absurd (s.card_endedTypes_le cap _ input) (Nat.not_le.mpr h)

theorem settled (input : List UInt8) :
    s.Settled cap ((input.length + 1) * (s.types.size + 1)) input := by
  induction hn : input.length using Nat.strong_induction_on generalizing input with
  | h n ih =>
    subst hn
    rw [Nat.succ_mul]
    apply settled_of_shorter
    intro j hj hl
    exact (ih j.length hl j rfl).mono (Nat.mul_le_mul_right _ hl)

variable (s cap)

/-- A greater depth than the one that is given makes no difference. -/
theorem decodeWithin_eq_decode {depth : Nat} {input : List UInt8}
    (h : (input.length + 1) * (s.types.size + 1) ≤ depth) (id : TypeId) :
    s.decodeWithin cap depth id input = s.decode cap id input := by
  have hle : (input.length + 1) * (s.types.size + 1) ≤ s.depthFor input.length :=
    Nat.mul_le_mul_left _ (Nat.le_succ _)
  exact ((settled input).eq h id).symm.trans ((settled input).eq hle id)

/-- Decoding decodes the parts of a value as it decodes any value. -/
theorem decode_eq (id : TypeId) : s.decode cap id = s.decodeWith cap (s.decode cap) id := by
  funext input
  have hpos : s.depthFor input.length = (s.depthFor input.length - 1) + 1 := by
    unfold depthFor
    have : 0 < (input.length + 1) * (s.types.size + 2) := Nat.mul_pos (by omega) (by omega)
    omega
  have hparts : ∀ id, Decoder.AgreeOn input
      (s.decodeWithin cap (s.depthFor input.length - 1) id) (s.decode cap id) := by
    intro id
    refine ⟨s.shrinks_decodeWithin cap _ id, fun j hj => s.decodeWithin_eq_decode cap ?_ id⟩
    have hl : (j.length + 1) * (s.types.size + 1) ≤ (input.length + 1) * (s.types.size + 1) :=
      Nat.mul_le_mul_right _ (Nat.succ_le_succ hj.length_le)
    have hd : s.depthFor input.length =
        (input.length + 1) * (s.types.size + 1) + (input.length + 1) := by
      rw [depthFor, Nat.mul_succ _ (s.types.size + 1)]
    omega
  have h := (s.decodeWith_congr cap (Decoder.congruence_agreeOn input) hparts id).2 input
    List.suffix_rfl
  rw [← h, decode, hpos]
  rfl

end Schema
end WireSchema
