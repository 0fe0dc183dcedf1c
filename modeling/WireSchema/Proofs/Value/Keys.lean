import Mathlib.Data.List.Perm.Basic
import WireSchema.Proofs.Value.Recode

/-!
# Maps in the order of their keys

The keys of a map have a total order, so that a map can be kept as a list of pairs that ascends in
it. A new pair is put at its place, which tells whether its key was there before. Reading pairs into
such a list succeeds on the same inputs as decoding them in their written order, although repeated
keys are found in another way and at another time: keys are the same if and only if they have the
same wire form.
-/
namespace WireSchema

open Wire

namespace Value

/-- What a key counts for among keys of its kind: a number, or the bytes of a text or a blob. -/
def rank : Value → List Int
  | .bool b => [b.toNat]
  | .int v => [v.toInt]
  | .uint v => [v.toNat]
  | .text t => (utf8 t).map fun b => b.toNat
  | .blob bytes => bytes.map fun b => b.toNat
  | .ordinal v => [v.toInt]
  | _ => []

/-- The order of keys, byte by byte where they have several. Values of different kinds are in no
order. -/
def precedes (a b : Value) : Bool := a.ctorIdx == b.ctorIdx && a.rank < b.rank

variable {a b c : Value}

theorem precedes_iff : a.precedes b ↔ a.ctorIdx = b.ctorIdx ∧ a.rank < b.rank := by
  simp [precedes]

theorem not_precedes_self (a : Value) : ¬ a.precedes a := by
  rw [precedes_iff]
  exact fun h => List.lt_irrefl a.rank h.2

theorem precedes_trans (hab : a.precedes b) (hbc : b.precedes c) : a.precedes c := by
  rw [precedes_iff] at hab hbc ⊢
  exact ⟨hab.1.trans hbc.1, List.lt_trans hab.2 hbc.2⟩

theorem eq_or_precedes (hkind : a.ctorIdx = b.ctorIdx) (hrank : a.rank = b.rank → a = b) :
    a = b ∨ a.precedes b ∨ b.precedes a := by
  rw [precedes_iff, precedes_iff]
  by_cases hab : a.rank < b.rank
  · exact .inr (.inl ⟨hkind, hab⟩)
  · by_cases hba : b.rank < a.rank
    · exact .inr (.inr ⟨hkind.symm, hba⟩)
    · exact .inl (hrank (List.le_antisymm hba hab))

theorem map_toNat_inj {xs ys : List UInt8}
    (h : (xs.map fun b => (b.toNat : Int)) = ys.map fun b => (b.toNat : Int)) : xs = ys :=
  (List.map_inj_right fun _ _ hb => UInt8.toNat_inj.mp (Int.ofNat_inj.mp hb)).mp h

end Value

theorem utf8_inj {a b : String} (h : utf8 a = utf8 b) : a = b :=
  String.toByteArray_inj.mp (ByteArray.ext (Array.toList_inj.mp h))

theorem Numeric.ofValue?_cases {n : Numeric} (hn : n.isFloat = false) :
    (∀ v w, n.ofValue? v = some w → ∃ x, v = .int x) ∨
      ∀ v w, n.ofValue? v = some w → ∃ x, v = .uint x := by
  cases n with
  | int8 | int16 | int32 | int64 =>
    left
    intro v w hw
    cases v <;> simp [ofValue?] at hw ⊢
  | uint8 | uint16 | uint32 | uint64 =>
    right
    intro v w hw
    cases v <;> simp [ofValue?] at hw ⊢
  | float32 | float64 => cases hn

namespace Schema

variable {s : Schema} {cap : Nat} {id : TypeId} {k k' v : Value}

variable (s cap id) in
/-- A value that can be a key of a map: it has a wire form, from which it is read back. -/
def IsKey (k : Value) : Prop :=
  s.normalize id k = k ∧ ∃ form, (s.encode cap id k).result = .ok form

theorem isKey_of_decode {input rest : List UInt8} (h : s.decode cap id input = (.ok k, rest)) :
    s.IsKey cap id k := by
  obtain ⟨-, -, hnormal, form, hform, -⟩ := recodesAll_decode id input k rest h
  exact ⟨hnormal, form, hform⟩

theorem IsKey.exists_form (h : s.IsKey cap id k) : ∃ form, s.toBytes cap id k = .ok form := by
  obtain ⟨-, form, hform⟩ := h
  exact ⟨form, toBytes_eq_ok_iff.mpr ⟨⟨_, size_of_encode hform⟩, hform⟩⟩

theorem IsKey.eq_of_form {form : List UInt8} (h : s.IsKey cap id k) (h' : s.IsKey cap id k')
    (hform : s.toBytes cap id k = .ok form) (hform' : s.toBytes cap id k' = .ok form) : k = k' := by
  have hread := reads_decode (toBytes_eq_ok_iff.mp hform).2 []
  have hread' := reads_decode (toBytes_eq_ok_iff.mp hform').2 []
  rw [h.1] at hread
  rw [h'.1, hread] at hread'
  exact Except.ok.inj (Prod.mk.inj hread').1

/-- Any two keys of a type are in order. -/
theorem IsKey.total (horder : (s.type id).isOrderable) (h : s.IsKey cap id k)
    (h' : s.IsKey cap id k') : k = k' ∨ k.precedes k' ∨ k'.precedes k := by
  obtain ⟨-, form, hform⟩ := h
  obtain ⟨-, form', hform'⟩ := h'
  cases ht : s.type id with
  | bool =>
    obtain ⟨x, rfl, -⟩ := encode_of_bool hform ht
    obtain ⟨y, rfl, -⟩ := encode_of_bool hform' ht
    refine Value.eq_or_precedes rfl fun hrank => ?_
    cases x <;> cases y <;> simp [Value.rank] at hrank ⊢
  | numeric n =>
    obtain ⟨w, hw, -⟩ := encode_of_numeric hform ht
    obtain ⟨w', hw', -⟩ := encode_of_numeric hform' ht
    have hn : n.isFloat = false := by simpa [ht, TypeDef.isOrderable] using horder
    rcases Numeric.ofValue?_cases hn with hkind | hkind
    · obtain ⟨x, rfl⟩ := hkind k w hw
      obtain ⟨y, rfl⟩ := hkind k' w' hw'
      refine Value.eq_or_precedes rfl fun hrank => ?_
      rw [Int64.toInt_inj.mp (List.head_eq_of_cons_eq hrank)]
    · obtain ⟨x, rfl⟩ := hkind k w hw
      obtain ⟨y, rfl⟩ := hkind k' w' hw'
      refine Value.eq_or_precedes rfl fun hrank => ?_
      rw [UInt64.toNat_inj.mp (Int.ofNat_inj.mp (List.head_eq_of_cons_eq hrank))]
  | text wide =>
    obtain ⟨x, rfl, -⟩ := encode_of_text hform ht
    obtain ⟨y, rfl, -⟩ := encode_of_text hform' ht
    refine Value.eq_or_precedes rfl fun hrank => ?_
    rw [utf8_inj (Value.map_toNat_inj hrank)]
  | blob =>
    obtain ⟨x, rfl, -⟩ := encode_of_blob hform ht
    obtain ⟨y, rfl, -⟩ := encode_of_blob hform' ht
    refine Value.eq_or_precedes rfl fun hrank => ?_
    rw [Value.map_toNat_inj hrank]
  | enumeration e =>
    obtain ⟨x, rfl, -⟩ := encode_of_enumeration hform ht
    obtain ⟨y, rfl, -⟩ := encode_of_enumeration hform' ht
    refine Value.eq_or_precedes rfl fun hrank => ?_
    rw [Int32.toInt_inj.mp (List.head_eq_of_cons_eq hrank)]
  | record | sequence | map | forward =>
    rw [ht] at horder
    cases horder

/-- Pairs in the order of their keys, which therefore differ. -/
def Ascending (pairs : List (Value × Value)) : Prop :=
  pairs.Pairwise fun p q => p.1.precedes q.1

instance (pairs : List (Value × Value)) : Decidable (Ascending pairs) :=
  inferInstanceAs (Decidable (pairs.Pairwise fun p q => p.1.precedes q.1))

/-- Puts a pair at its place among ascending pairs, and gives the value that its key had before. -/
def insertEntry (k v : Value) : List (Value × Value) → Option Value × List (Value × Value)
  | [] => (none, [(k, v)])
  | (k', v') :: entries =>
    if k.precedes k' then (none, (k, v) :: (k', v') :: entries)
    else if k'.precedes k then
      ((insertEntry k v entries).1, (k', v') :: (insertEntry k v entries).2)
    else (some v', (k', v) :: entries)

variable {entries : List (Value × Value)}

theorem insertEntry_of_new (h : Ascending entries)
    (hnew : ∀ p ∈ entries, k.precedes p.1 ∨ p.1.precedes k) :
    ∃ entries', insertEntry k v entries = (none, entries') ∧
      entries'.Perm ((k, v) :: entries) ∧ Ascending entries' := by
  induction entries with
  | nil => exact ⟨[(k, v)], rfl, .refl _, List.pairwise_singleton _ _⟩
  | cons p entries ih =>
    obtain ⟨hbefore, hrest⟩ := List.pairwise_cons.mp h
    rw [insertEntry]
    by_cases hk : k.precedes p.1
    · rw [if_pos hk]
      refine ⟨_, rfl, .refl _, List.pairwise_cons.mpr ⟨?_, h⟩⟩
      intro q hq
      rcases List.mem_cons.mp hq with rfl | hq
      · exact hk
      · exact Value.precedes_trans hk (hbefore q hq)
    · have hp : p.1.precedes k := (hnew p List.mem_cons_self).resolve_left hk
      obtain ⟨entries', hinsert, hperm, hascending⟩ :=
        ih hrest fun q hq => hnew q (List.mem_cons_of_mem p hq)
      rw [if_neg hk, if_pos hp, hinsert]
      refine ⟨_, rfl, (hperm.cons p).trans (.swap _ _ _), List.pairwise_cons.mpr ⟨?_, hascending⟩⟩
      intro q hq
      rcases List.mem_cons.mp (hperm.mem_iff.mp hq) with rfl | hq
      · exact hp
      · exact hbefore q hq

theorem insertEntry_of_mem {old : Value} (h : Ascending entries) (hmem : (k, old) ∈ entries) :
    ∃ old' entries', insertEntry k v entries = (some old', entries') := by
  induction entries with
  | nil => cases hmem
  | cons p entries ih =>
    obtain ⟨hbefore, hrest⟩ := List.pairwise_cons.mp h
    rw [insertEntry]
    rcases List.mem_cons.mp hmem with rfl | hmem
    · rw [if_neg (Value.not_precedes_self k), if_neg (Value.not_precedes_self k)]
      exact ⟨_, _, rfl⟩
    · have hp : p.1.precedes k := hbefore _ hmem
      have hk : ¬ k.precedes p.1 := fun hk =>
        Value.not_precedes_self k (Value.precedes_trans hk hp)
      obtain ⟨old', entries', hinsert⟩ := ih hrest hmem
      rw [if_neg hk, if_pos hp, hinsert]
      exact ⟨_, _, rfl⟩

section Pairs

variable {typeName : String} {keyForm : Value → Except WireError (List UInt8)}
  {key value : Decoder Value} {n : Nat} {seen : List (List UInt8)} {done : List (Value × Value)}
  {input mid form : List UInt8}

theorem decodePairs_of_key_error {e : WireError} (hk : key input = (.error e, mid)) :
    decodePairs typeName keyForm key value (n + 1) seen done input = (.error e, mid) := by
  show (key >>= _) input = _
  rw [Decoder.run_bind, hk]

theorem decodePairs_of_seen (hk : key input = (.ok k, mid)) (hform : keyForm k = .ok form)
    (hseen : form ∈ seen) :
    decodePairs typeName keyForm key value (n + 1) seen done input =
      (.error (.duplicateMapKey typeName), mid) := by
  show (key >>= _) input = _
  rw [Decoder.run_bind, hk]
  simp only [hform, if_pos hseen, Decoder.run_fail]

theorem decodePairs_of_new (hk : key input = (.ok k, mid)) (hform : keyForm k = .ok form)
    (hseen : form ∉ seen) :
    decodePairs typeName keyForm key value (n + 1) seen done input = (do
      let v ← value
      decodePairs typeName keyForm key value n (form :: seen) ((k, v) :: done)) mid := by
  show (key >>= _) input = _
  rw [Decoder.run_bind, hk]
  simp only [hform, if_neg hseen]

end Pairs

/-- Reads `n` pairs into ascending ones. A key that was there before is refused after its value is
read. -/
def readEntries (typeName : String) (key value : Decoder Value) :
    (n : Nat) → (entries : List (Value × Value)) → Decoder (List (Value × Value))
  | 0, entries => return entries
  | n + 1, entries => do
    let k ← key
    let v ← value
    let placed := insertEntry k v entries
    if placed.1.isSome then .fail (.duplicateMapKey typeName)
    else readEntries typeName key value n placed.2

/-- Two reads of pairs come to the same: both fail, or both give the same pairs and leave the same
bytes, and the second one puts the pairs in order. -/
inductive ReadsAlike : Except WireError (List (Value × Value)) × List UInt8 →
    Except WireError (List (Value × Value)) × List UInt8 → Prop
  | sorted {pairs ordered : List (Value × Value)} {rest : List UInt8}
    (hperm : ordered.Perm pairs) (hascending : Ascending ordered) :
    ReadsAlike (.ok pairs, rest) (.ok ordered, rest)
  | failed {e e' : WireError} {rest rest' : List UInt8} :
    ReadsAlike (.error e, rest) (.error e', rest')

/-- Reading pairs in order comes to the same as decoding them. -/
theorem readsAlike_readEntries {typeName : String} {key value : Decoder Value}
    (horder : (s.type id).isOrderable)
    (hkey : ∀ input k rest, key input = (.ok k, rest) → s.IsKey cap id k) (n : Nat)
    {seen : List (List UInt8)} {done : List (Value × Value)} (hascending : Ascending entries)
    (hperm : entries.Perm done) (hdone : ∀ p ∈ done, s.IsKey cap id p.1)
    (hseen : ∀ form, form ∈ seen ↔ ∃ p ∈ done, s.toBytes cap id p.1 = .ok form)
    (input : List UInt8) :
    ReadsAlike (decodePairs typeName (s.toBytes cap id) key value n seen done input)
      (readEntries typeName key value n entries input) := by
  induction n generalizing seen done entries input with
  | zero => exact .sorted (hperm.trans done.reverse_perm.symm) hascending
  | succ n ih =>
    rw [readEntries, Decoder.run_bind]
    rcases hk : key input with ⟨e | k, mid⟩
    · rw [decodePairs_of_key_error hk]
      exact .failed
    have hkk := hkey input k mid hk
    obtain ⟨form, hform⟩ := hkk.exists_form
    dsimp only
    rw [Decoder.run_bind]
    by_cases hold : form ∈ seen
    · -- The key was there before. One side refuses it now, the other one when its value is read.
      rw [decodePairs_of_seen hk hform hold]
      rcases value mid with ⟨e | v, rest⟩
      · exact .failed
      obtain ⟨⟨k', old⟩, hmem, hform'⟩ := (hseen form).mp hold
      obtain rfl := hkk.eq_of_form (hdone _ hmem) hform hform'
      obtain ⟨_, _, hinsert⟩ := insertEntry_of_mem (v := v) hascending (hperm.mem_iff.mpr hmem)
      dsimp only
      rw [hinsert]
      exact .failed
    · rw [decodePairs_of_new hk hform hold, Decoder.run_bind]
      rcases value mid with ⟨e | v, rest⟩
      · exact .failed
      have hnew : ∀ p ∈ entries, k.precedes p.1 ∨ p.1.precedes k := by
        intro p hp
        have hp := hperm.mem_iff.mp hp
        refine (hkk.total horder (hdone p hp)).resolve_left ?_
        rintro rfl
        exact hold ((hseen form).mpr ⟨p, hp, hform⟩)
      obtain ⟨entries', hinsert, hperm', hascending'⟩ :=
        insertEntry_of_new (v := v) hascending hnew
      dsimp only
      rw [hinsert]
      refine ih hascending' (hperm'.trans (hperm.cons _)) ?_ ?_ rest
      · exact List.forall_mem_cons.mpr ⟨hkk, hdone⟩
      · intro other
        rw [List.mem_cons, hseen]
        simp [hform, eq_comm]

variable (s cap) in
def decodeOrdered (m : MapType) : Decoder Value := do
  let n ← Decoder.count m.name.text cap
  return .map (← readEntries m.name.text (s.decode cap m.key) (s.decode cap m.value) n [])

section Ordered

variable {m : MapType} {input rest : List UInt8} (ht : s.type id = .map m)
  (horder : (s.type m.key).isOrderable)
include ht horder

theorem decodeOrdered_cases (input : List UInt8) :
    (∃ e e' rest rest', s.decode cap id input = (.error e, rest) ∧
      s.decodeOrdered cap m input = (.error e', rest')) ∨
    ∃ pairs ordered rest, s.decode cap id input = (.ok (.map pairs), rest) ∧
      s.decodeOrdered cap m input = (.ok (.map ordered), rest) ∧
      ordered.Perm pairs ∧ Ascending ordered := by
  rw [decode_eq, decodeWith, ht, decodeOrdered]
  dsimp only
  rw [Decoder.run_bind, Decoder.run_bind]
  rcases Decoder.count m.name.text cap input with ⟨e | n, mid⟩
  · exact .inl ⟨_, _, _, _, rfl, rfl⟩
  dsimp only
  rw [Decoder.run_bind, Decoder.run_bind]
  have halike : ReadsAlike
      (decodePairs m.name.text (s.toBytes cap m.key) (s.decode cap m.key) (s.decode cap m.value) n
        [] [] mid)
      (readEntries m.name.text (s.decode cap m.key) (s.decode cap m.value) n [] mid) :=
    readsAlike_readEntries horder (fun _ _ _ h => isKey_of_decode h) n List.Pairwise.nil (.refl [])
      (by simp) (by simp) mid
  generalize decodePairs m.name.text _ _ _ n [] [] mid = x at halike ⊢
  generalize readEntries m.name.text _ _ n [] mid = y at halike ⊢
  cases halike with
  | failed => exact .inl ⟨_, _, _, _, rfl, rfl⟩
  | sorted hperm hascending => exact .inr ⟨_, _, _, rfl, rfl, hperm, hascending⟩

theorem decodeOrdered_of_ok (h : s.decode cap id input = (.ok v, rest)) :
    ∃ pairs ordered, v = .map pairs ∧ ordered.Perm pairs ∧ Ascending ordered ∧
      s.decodeOrdered cap m input = (.ok (.map ordered), rest) := by
  rcases decodeOrdered_cases ht horder input with ⟨e, _, _, _, hdecode, -⟩ |
    ⟨pairs, ordered, _, hdecode, hread, hperm, hascending⟩
  · cases h.symm.trans hdecode
  · obtain ⟨hv, rfl⟩ := Prod.mk.inj (h.symm.trans hdecode)
    exact ⟨pairs, ordered, Except.ok.inj hv, hperm, hascending, hread⟩

theorem decodeOrdered_of_error {e : WireError} (h : s.decode cap id input = (.error e, rest)) :
    ∃ e' rest', s.decodeOrdered cap m input = (.error e', rest') := by
  rcases decodeOrdered_cases ht horder input with ⟨_, e', _, rest', -, hread⟩ |
    ⟨pairs, _, _, hdecode, -⟩
  · exact ⟨e', rest', hread⟩
  · cases h.symm.trans hdecode

end Ordered

end Schema
end WireSchema
