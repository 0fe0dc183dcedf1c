import WireSchema.Config
import WireSchema.Proofs.Value.RoundTrip

/-!
# Greater caps

The cap on the entries of sequences and maps is looked at in one way only: a count above it is an
error. So what is encoded or decoded under a cap is treated alike under a greater one, and what only
the greater cap admits fails under the smaller one with a count that lies between the two. Both
sides follow the same pattern: two runs do the same until the first of them meets a count above its
cap.
-/
namespace WireSchema

open Wire Schema

/-- The error of a count above the cap `m`. If the greater cap `m'` admits what was refused, the
count is not above that one. -/
def WireError.Exceeds (m m' : Nat) (admitted : Prop) (e : WireError) : Prop :=
  ∃ typeName got, e = .countExceeded typeName m got ∧ m < got ∧ (admitted → got ≤ m')

theorem WireError.Exceeds.mono {m m' : Nat} {admitted admitted' : Prop} {e : WireError}
    (h : e.Exceeds m m' admitted) (hsub : admitted' → admitted) : e.Exceeds m m' admitted' := by
  obtain ⟨typeName, got, he, hlt, hle⟩ := h
  exact ⟨typeName, got, he, hlt, fun hadmitted => hle (hsub hadmitted)⟩

theorem WireError.exceeds_countExceeded {m m' got : Nat} {admitted : Prop} (typeName : String)
    (hlt : m < got) (hle : admitted → got ≤ m') :
    (WireError.countExceeded typeName m got).Exceeds m m' admitted :=
  ⟨typeName, got, rfl, hlt, hle⟩

/-- Both results are the same, except that the first one may be the error of a count above its cap.
-/
def ResultRelaxes (m m' : Nat) {α : Type} (x x' : Except WireError α) : Prop :=
  x = x' ∨ ∃ e, x = .error e ∧ e.Exceeds m m' (∃ a, x' = .ok a)

/-- A run under the cap `m` and a run under the greater cap `m'`: what the first one gives, the
second one gives, too, and what only the second one gives has a count above `m`. -/
structure Grants (m m' : Nat) {α β : Type} (run run' : Except WireError α × β) : Prop where
  kept : ∀ a rest, run = (.ok a, rest) → run' = (.ok a, rest)
  refused : ∀ e rest a rest', run = (.error e, rest) → run' = (.ok a, rest') →
    ∃ typeName got, e = .countExceeded typeName m got ∧ m < got ∧ got ≤ m'

theorem Grants.of_same_or_exceeds {m m' : Nat} {α β : Type} {run run' : Except WireError α × β}
    (h : run = run' ∨ ∃ e rest, run = (.error e, rest) ∧
      e.Exceeds m m' (∃ a rest', run' = (.ok a, rest'))) : Grants m m' run run' := by
  rcases h with rfl | ⟨e, rest, rfl, hexceeds⟩
  · refine ⟨fun _ _ hrun => hrun, fun _ _ _ _ hrun hrun' => ?_⟩
    cases hrun.symm.trans hrun'
  · constructor
    · intro _ _ hrun
      cases hrun
    · rintro _ _ a rest' ⟨rfl, rfl⟩ hrun'
      obtain ⟨typeName, got, he, hlt, hle⟩ := hexceeds
      exact ⟨typeName, got, he, hlt, hle ⟨a, rest', hrun'⟩⟩

namespace Wire.Output

variable {m m' : Nat} {a a' b b' : Output}

/-- Both writers do the same, except that the first one may fail with a count above its cap. -/
def Relaxes (m m' : Nat) (o o' : Output) : Prop :=
  o = o' ∨ ∃ e, o.failure = some e ∧ e.Exceeds m m' (o'.failure = none)

theorem Relaxes.append (ha : Relaxes m m' a a') (hb : Relaxes m m' b b') :
    Relaxes m m' (a ++ b) (a' ++ b') := by
  have hfirst : (a' ++ b').failure = none → a'.failure = none := by
    intro h
    cases hfailure : a'.failure with
    | none => rfl
    | some e => rwa [append_of_failure_some b' hfailure, hfailure] at h
  rcases ha with rfl | ⟨e, he, hexceeds⟩
  · cases hfailure : a.failure with
    | some e =>
      rw [append_of_failure_some b hfailure, append_of_failure_some b' hfailure]
      exact .inl rfl
    | none =>
      rw [append_of_failure_none b hfailure, append_of_failure_none b' hfailure]
      rcases hb with rfl | ⟨e, he, hexceeds⟩
      · exact .inl rfl
      · exact .inr ⟨e, he, hexceeds⟩
  · rw [append_of_failure_some b he]
    exact .inr ⟨e, he, hexceeds.mono hfirst⟩

theorem relaxes_capped (typeName : String) (h : m ≤ m') (n : Nat) (hab : Relaxes m m' a b) :
    Relaxes m m' (if m < n then fail (.countExceeded typeName m n) else a)
      (if m' < n then fail (.countExceeded typeName m' n) else b) := by
  by_cases hn : m < n
  · rw [if_pos hn]
    refine .inr ⟨_, rfl, WireError.exceeds_countExceeded typeName hn fun hnone => ?_⟩
    by_contra hle
    rw [if_pos (Nat.lt_of_not_le hle)] at hnone
    cases hnone
  · rw [if_neg hn, if_neg fun hlt => hn (Nat.lt_of_le_of_lt h hlt)]
    exact hab

theorem relaxes_result (h : Relaxes m m' a a') : ResultRelaxes m m' a.result a'.result := by
  rcases h with rfl | ⟨e, he, hexceeds⟩
  · exact .inl rfl
  · refine .inr ⟨e, by simp [result, he], hexceeds.mono ?_⟩
    rintro ⟨bytes, hbytes⟩
    exact (result_eq_ok_iff.mp hbytes).1

theorem grants_drain (h : Relaxes m m' a a') :
    Grants m m' (Sink.unbounded.drain a) (Sink.unbounded.drain a') := by
  rcases h with rfl | ⟨e, he, hexceeds⟩
  · exact .of_same_or_exceeds (.inl rfl)
  have hfails : Sink.unbounded.drain a = (.error e, ⟨none, a.bytes⟩) := by
    rw [Sink.drain, show Sink.unbounded.acceptAll a.blocks = (.ok (), ⟨none, a.bytes⟩) from
      Sink.acceptAll_of_room_none [] a.blocks]
    simp [he]
  refine .of_same_or_exceeds (.inr ⟨e, _, hfails, hexceeds.mono ?_⟩)
  rintro ⟨_, _, hrun⟩
  obtain ⟨bytes, hbytes⟩ := Sink.drain_unbounded_ok_iff.mp (congrArg Prod.fst hrun)
  exact (result_eq_ok_iff.mp hbytes).1

end Wire.Output

namespace Wire.Decoder

variable {α β : Type} {m m' : Nat}

/-- Both decoders do the same, except that the first one may fail with a count above its cap. -/
def Relaxes (m m' : Nat) (d d' : Decoder α) : Prop :=
  ∀ input, d input = d' input ∨ ∃ e rest, d input = (.error e, rest) ∧
    e.Exceeds m m' (∃ a rest', d' input = (.ok a, rest'))

theorem congruence_relaxes (m m' : Nat) : Congruence fun d d' => Relaxes m m' d d' where
  pure _ _ := .inl rfl
  fail _ _ := .inl rfl
  take _ _ := .inl rfl
  bind {_ _ d d' f f'} hd hf input := by
    rcases hd input with hsame | ⟨e, rest, he, hexceeds⟩
    · rw [run_bind, run_bind, ← hsame]
      match d input with
      | (.ok a, mid) => exact hf a mid
      | (.error e, mid) => exact .inl rfl
    · refine .inr ⟨e, rest, by rw [run_bind, he], hexceeds.mono ?_⟩
      rintro ⟨b, last, hb⟩
      obtain ⟨a, mid, ha, -⟩ := bind_eq_ok_iff.mp hb
      exact ⟨a, mid, ha⟩

theorem relaxes_count (typeName : String) (h : m ≤ m') :
    Relaxes m m' (count typeName m) (count typeName m') := by
  refine (congruence_relaxes m m').bind ((congruence_relaxes m m').word 4) fun n => ?_
  by_cases hn : m < n
  · -- The greater cap may refuse the count, too, but then nothing is admitted.
    refine fun input => .inr ⟨_, input, by rw [if_pos hn]; rfl, ?_⟩
    refine WireError.exceeds_countExceeded typeName hn ?_
    rintro ⟨a, rest', hok⟩
    by_contra hle
    rw [if_pos (Nat.lt_of_not_le hle)] at hok
    cases hok
  · rw [if_neg hn, if_neg (fun hlt => hn (Nat.lt_of_le_of_lt h hlt))]
    exact (congruence_relaxes m m').pure n

end Wire.Decoder

namespace Schema

variable {s : Schema} {m m' : Nat}

theorem relaxes_keyFault? (typeName : String) {forms forms' : List (Except WireError (List UInt8))}
    (h : List.Forall₂ (ResultRelaxes m m') forms forms') (seen : List (List UInt8)) :
    keyFault? typeName seen forms = keyFault? typeName seen forms' ∨
      ∃ e, keyFault? typeName seen forms = some e ∧
        e.Exceeds m m' (keyFault? typeName seen forms' = none) := by
  induction h generalizing seen with
  | nil => exact .inl rfl
  | @cons form form' forms forms' hform _ ih =>
    rcases hform with rfl | ⟨e, rfl, hexceeds⟩
    · cases form with
      | error e => exact .inl rfl
      | ok key =>
        rw [keyFault?, keyFault?]
        split
        · exact .inl rfl
        · exact ih (key :: seen)
    · refine .inr ⟨e, rfl, hexceeds.mono fun hnone => ?_⟩
      obtain ⟨keys, hkeys, -⟩ := keyFault?_eq_none_iff.mp hnone
      cases keys with
      | nil => cases hkeys
      | cons key keys => exact ⟨key, (List.cons_eq_cons.mp hkeys).1⟩

theorem relaxes_toBytes {id : TypeId} {v : Value}
    (h : Output.Relaxes m m' (s.encode m id v) (s.encode m' id v)) :
    ResultRelaxes m m' (s.toBytes m id v) (s.toBytes m' id v) := by
  unfold toBytes
  cases s.size id v with
  | error e => exact .inl rfl
  | ok n => exact Output.relaxes_result h

theorem relaxes_encodeFields {members : List Member} {fields : List (String × Value)}
    (h : ∀ f ∈ fields, ∀ id, Output.Relaxes m m' (s.encode m id f.2) (s.encode m' id f.2)) :
    Output.Relaxes m m' (s.encodeFields m members fields) (s.encodeFields m' members fields) := by
  induction members generalizing fields with
  | nil =>
    unfold encodeFields
    exact .inl rfl
  | cons member members ih =>
    cases fields with
    | nil =>
      unfold encodeFields
      exact .inl rfl
    | cons f fields =>
      obtain ⟨hf, hrest⟩ := List.forall_mem_cons.mp h
      rw [encodeFields, encodeFields]
      exact (hf member.type).append (ih hrest)

theorem relaxes_encodeElements {element : TypeId} {elements : List Value}
    (h : ∀ v ∈ elements, ∀ id, Output.Relaxes m m' (s.encode m id v) (s.encode m' id v)) :
    Output.Relaxes m m' (s.encodeElements m element elements)
      (s.encodeElements m' element elements) := by
  induction elements with
  | nil =>
    rw [encodeElements_nil, encodeElements_nil]
    exact .inl rfl
  | cons v elements ih =>
    obtain ⟨hv, hrest⟩ := List.forall_mem_cons.mp h
    rw [encodeElements, encodeElements]
    exact (hv element).append (ih hrest)

theorem relaxes_encodePairs {key value : TypeId} {pairs : List (Value × Value)}
    (h : ∀ p ∈ pairs, (∀ id, Output.Relaxes m m' (s.encode m id p.1) (s.encode m' id p.1)) ∧
      ∀ id, Output.Relaxes m m' (s.encode m id p.2) (s.encode m' id p.2)) :
    Output.Relaxes m m' (s.encodePairs m key value pairs) (s.encodePairs m' key value pairs) := by
  induction pairs with
  | nil =>
    rw [encodePairs_nil, encodePairs_nil]
    exact .inl rfl
  | cons p pairs ih =>
    obtain ⟨⟨hk, hv⟩, hrest⟩ := List.forall_mem_cons.mp h
    rw [encodePairs, encodePairs]
    exact ((hk key).append (hv value)).append (ih hrest)

theorem relaxes_encode (h : m ≤ m') (id : TypeId) (v : Value) :
    Output.Relaxes m m' (s.encode m id v) (s.encode m' id v) := by
  induction v using Value.induction generalizing id with
  | sequence elements ih =>
    unfold encode
    generalize s.type id = type
    cases type with
    | sequence q =>
      exact (Output.relaxes_capped q.name.text h elements.length (.inl rfl)).append
        (relaxes_encodeElements ih)
    | _ => exact .inl rfl
  | record name fields ih =>
    unfold encode
    generalize s.type id = type
    cases type with
    | record r =>
      dsimp only
      split
      · exact relaxes_encodeFields ih
      · exact .inl rfl
    | _ => exact .inl rfl
  | map pairs ih =>
    have hforms : ∀ key, List.Forall₂ (ResultRelaxes m m') (s.keyForms m key pairs)
        (s.keyForms m' key pairs) := by
      intro key
      rw [keyForms_eq, keyForms_eq, List.forall₂_map_left_iff, List.forall₂_map_right_iff]
      exact List.forall₂_same.mpr fun p hp => relaxes_toBytes ((ih p hp).1 key)
    unfold encode
    generalize s.type id = type
    cases type with
    | map q =>
      refine Output.relaxes_capped q.name.text h pairs.length ?_
      rcases relaxes_keyFault? q.name.text (hforms q.key) [] with hsame | ⟨e, he, hexceeds⟩
      · rw [hsame]
        cases keyFault? q.name.text [] (s.keyForms m' q.key pairs) with
        | some e => exact .inl rfl
        | none => exact Output.Relaxes.append (.inl rfl) (relaxes_encodePairs ih)
      · refine .inr ⟨e, by rw [he]; rfl, hexceeds.mono fun hnone => ?_⟩
        cases hfault : keyFault? q.name.text [] (s.keyForms m' q.key pairs) with
        | none => rfl
        | some e =>
          rw [hfault] at hnone
          cases hnone
    | _ => exact .inl rfl
  | number v hv =>
    unfold encode
    generalize s.type id = type
    cases hv <;> cases type <;> exact .inl rfl
  | _ =>
    unfold encode
    generalize s.type id = type
    cases type <;> exact .inl rfl

theorem relaxes_encodeRecord (h : m ≤ m') (r : RecordType) (v : Value) :
    Output.Relaxes m m' (s.encodeRecord m r v) (s.encodeRecord m' r v) := by
  cases v with
  | record name fields =>
    unfold encodeRecord
    dsimp only
    split
    · exact relaxes_encodeFields fun f _ id => relaxes_encode h id f.2
    · exact .inl rfl
  | _ => exact .inl rfl

/-- Pairs are read alike as far as the forms of the keys agree. -/
theorem relaxes_decodePairs (typeName : String)
    {keyForm keyForm' : Value → Except WireError (List UInt8)}
    {key key' value value' : Decoder Value}
    (hform : ∀ k, ResultRelaxes m m' (keyForm k) (keyForm' k))
    (hkey : Decoder.Relaxes m m' key key') (hvalue : Decoder.Relaxes m m' value value')
    (n : Nat) (seen : List (List UInt8)) (done : List (Value × Value)) :
    Decoder.Relaxes m m' (decodePairs typeName keyForm key value n seen done)
      (decodePairs typeName keyForm' key' value' n seen done) := by
  have hR := Decoder.congruence_relaxes m m'
  induction n generalizing seen done with
  | zero => exact hR.pure done.reverse
  | succ n ih =>
    refine hR.bind hkey fun k => ?_
    rcases hform k with hsame | ⟨e, he, hexceeds⟩
    · rw [← hsame]
      cases keyForm k with
      | error e => exact hR.fail e
      | ok form =>
        dsimp only
        split_ifs
        · exact hR.fail _
        · exact hR.bind hvalue fun v => ih (form :: seen) ((k, v) :: done)
    · -- No form of the key means no pair, under the greater cap, too.
      rw [he]
      refine fun input => .inr ⟨e, input, rfl, hexceeds.mono ?_⟩
      rintro ⟨pairs, rest, hok⟩
      cases hform' : keyForm' k with
      | ok form => exact ⟨form, rfl⟩
      | error e =>
        rw [hform'] at hok
        cases hok

theorem relaxes_decodeWith (h : m ≤ m') {part part' : TypeId → Decoder Value}
    (hparts : ∀ id, Decoder.Relaxes m m' (part id) (part' id)) (id : TypeId) :
    Decoder.Relaxes m m' (s.decodeWith m part id) (s.decodeWith m' part' id) := by
  have hR := Decoder.congruence_relaxes m m'
  have hsame := s.decodeWith_congr m' hR hparts id
  unfold decodeWith at hsame ⊢
  cases ht : s.type id with
  | sequence q =>
    exact hR.bind (Decoder.relaxes_count _ h) fun n => hR.map (hR.times (hparts q.element) n) _
  | map q =>
    refine hR.bind (Decoder.relaxes_count _ h) fun n => hR.map ?_ _
    exact relaxes_decodePairs _ (fun k => relaxes_toBytes (relaxes_encode h q.key k))
      (hparts q.key) (hparts q.value) n [] []
  | _ => simpa only [ht] using hsame

theorem relaxes_decode (h : m ≤ m') (id : TypeId) :
    Decoder.Relaxes m m' (s.decode m id) (s.decode m' id) := by
  have hwithin : ∀ depth id,
      Decoder.Relaxes m m' (s.decodeWithin m depth id) (s.decodeWithin m' depth id) := by
    intro depth
    induction depth with
    | zero => exact fun _ _ => .inl rfl
    | succ depth ih => exact relaxes_decodeWith h ih
  exact fun input => hwithin (s.depthFor input.length) id input

theorem relaxes_decodeRecord (h : m ≤ m') (r : RecordType) :
    Decoder.Relaxes m m' (s.decodeRecord m r) (s.decodeRecord m' r) := by
  have hR := Decoder.congruence_relaxes m m'
  exact hR.map (decodeMembers_congr hR fun member _ => relaxes_decode h member.type) _

/-- Two configurations of which the second admits at least as many elements decode and write alike
what the first one admits. Where only the second one succeeds, the first one fails with a count
above its own cap. Nothing else of a configuration makes a difference. -/
theorem greater_cap_keeps_results (s : Schema) (config config' : Config)
    (h : config.maxElements ≤ config'.maxElements) :
    (∀ (id : TypeId) (input : List UInt8),
      Grants config.maxElements.toNat config'.maxElements.toNat
        (s.decode config.maxElements.toNat id input)
        (s.decode config'.maxElements.toNat id input)) ∧
    (∀ (id : TypeId) (v : Value),
      Grants config.maxElements.toNat config'.maxElements.toNat
        (Sink.unbounded.drain (s.encode config.maxElements.toNat id v))
        (Sink.unbounded.drain (s.encode config'.maxElements.toNat id v))) ∧
    (∀ (r : RecordType) (input : List UInt8),
      Grants config.maxElements.toNat config'.maxElements.toNat
        (s.decodeRecord config.maxElements.toNat r input)
        (s.decodeRecord config'.maxElements.toNat r input)) ∧
    ∀ (r : RecordType) (v : Value),
      Grants config.maxElements.toNat config'.maxElements.toNat
        (Sink.unbounded.drain (s.encodeRecord config.maxElements.toNat r v))
        (Sink.unbounded.drain (s.encodeRecord config'.maxElements.toNat r v)) := by
  have hle : config.maxElements.toNat ≤ config'.maxElements.toNat := UInt32.le_iff_toNat_le.mp h
  exact ⟨fun id input => .of_same_or_exceeds (relaxes_decode hle id input),
    fun id v => Output.grants_drain (relaxes_encode hle id v),
    fun r input => .of_same_or_exceeds (relaxes_decodeRecord hle r input),
    fun r v => Output.grants_drain (relaxes_encodeRecord hle r v)⟩

/-- The one reading of the report is within a cap of one, and above a cap of zero. -/
theorem greater_cap_keeps_results_report :
    station.decode 65536 ⟨3⟩ reportBytes = (.ok (station.normalize ⟨3⟩ report), []) ∧
      ∃ e, (Sink.unbounded.drain (station.encode 0 ⟨3⟩ report)).1 = .error e ∧
        ∃ typeName, e = .countExceeded typeName 0 1 := by
  have hwritten : (station.encode 1 ⟨3⟩ report).result = .ok reportBytes := by decide +kernel
  have hread : station.decode 1 ⟨3⟩ reportBytes = (.ok (station.normalize ⟨3⟩ report), []) := by
    simpa using reads_decode hwritten []
  have hkept := greater_cap_keeps_results station { maxElements := 1 } {} (by decide)
  have hrefused :=
    greater_cap_keeps_results station { maxElements := 0 } { maxElements := 1 } (by decide)
  refine ⟨(hkept.1 ⟨3⟩ reportBytes).kept _ _ hread, ?_⟩
  match hrun : Sink.unbounded.drain (station.encode 0 ⟨3⟩ report) with
  | (.ok (), stored) =>
    have hfails : (Sink.unbounded.drain (station.encode 0 ⟨3⟩ report)).1 ≠ .ok () := by
      decide +kernel
    exact absurd (congrArg Prod.fst hrun) hfails
  | (.error e, stored) =>
    obtain ⟨typeName, got, he, hlt, hle⟩ := (hrefused.2.1 ⟨3⟩ report).refused _ _ _ _ hrun
      (Sink.drain_unbounded_eq_ok_iff.mpr hwritten)
    obtain rfl : got = 1 := Nat.le_antisymm hle hlt
    exact ⟨e, rfl, typeName, he⟩

end Schema
end WireSchema
