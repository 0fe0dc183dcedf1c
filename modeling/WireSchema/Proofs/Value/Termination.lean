import WireSchema.Proofs.Schema.Containment
import WireSchema.Proofs.Value.Recode
import WireSchema.Schema.Build
import WireSchema.Value.Default

/-!
# Decoding and empty values end

Where no record holds itself, decoding ends on every input: each read that it makes of a part either
has fewer bytes before it or as many and a type that nests less deep. Empty values end for the same
reason. A record that holds itself has no empty value, and no input decodes to a value of it.
-/
namespace WireSchema

open Wire Schema Relation

namespace Wire.Decoder

variable {α β : Type}

/-- On the input the decoder comes to its end, with a value or with an error. -/
def EndsOn (d : Decoder α) (input : List UInt8) : Prop := (d input).1 ≠ .error .endlessRecord

theorem endsOn_pure (a : α) (input : List UInt8) : (pure a : Decoder α).EndsOn input := nofun

theorem endsOn_fail {e : WireError} (he : e ≠ .endlessRecord) (input : List UInt8) :
    (fail e : Decoder α).EndsOn input := by
  intro h
  exact he (Except.error.inj h)

theorem endsOn_take (n : Nat) (input : List UInt8) : (take n).EndsOn input := by
  unfold EndsOn take
  split_ifs <;> simp

theorem EndsOn.bind {d : Decoder α} {f : α → Decoder β} {input : List UInt8} (hd : d.EndsOn input)
    (hf : ∀ a rest, d input = (.ok a, rest) → (f a).EndsOn rest) : (d >>= f).EndsOn input := by
  unfold EndsOn at hd ⊢
  rw [run_bind]
  match hr : d input with
  | (.ok a, rest) => exact hf a rest hr
  | (.error e, rest) => simpa [hr] using hd

theorem EndsOn.map {d : Decoder α} {input : List UInt8} (hd : d.EndsOn input) (f : α → β) :
    (d >>= fun a => Pure.pure (f a)).EndsOn input :=
  hd.bind fun a rest _ => endsOn_pure (f a) rest

theorem EndsOn.eq_ok_or_error {d : Decoder α} {input : List UInt8} (hd : d.EndsOn input) :
    (∃ a rest, d input = (.ok a, rest)) ∨
      ∃ e rest, e ≠ .endlessRecord ∧ d input = (.error e, rest) := by
  unfold EndsOn at hd
  match hr : d input with
  | (.ok a, rest) => exact .inl ⟨a, rest, rfl⟩
  | (.error e, rest) => exact .inr ⟨e, rest, fun he => hd (by rw [hr, he]), rfl⟩

theorem endsOn_word (width : Nat) (input : List UInt8) : (word width).EndsOn input :=
  (endsOn_take width input).map ofBigEndian

theorem endsOn_number (n : Numeric) (input : List UInt8) : (number n).EndsOn input :=
  (endsOn_word n.width input).map n.ofBits

theorem endsOn_blob (input : List UInt8) : blob.EndsOn input := by
  refine (endsOn_word 4 input).bind fun n rest _ => ?_
  rw [padded_eq]
  exact (endsOn_take n rest).bind fun data mid _ => (endsOn_take _ mid).map fun _ => data

theorem endsOn_text (input : List UInt8) : text.EndsOn input := by
  refine (endsOn_blob input).bind fun bytes rest _ => ?_
  cases ofUtf8? bytes with
  | none => exact endsOn_fail (by nofun) rest
  | some s => exact endsOn_pure s rest

theorem endsOn_count (typeName : String) (max : Nat) (input : List UInt8) :
    (count typeName max).EndsOn input := by
  refine (endsOn_word 4 input).bind fun n rest _ => ?_
  split_ifs
  · exact (endsOn_fail (by nofun) rest).bind fun _ mid _ => endsOn_pure n mid
  · exact endsOn_pure n rest

theorem suffix_of_run {d : Decoder α} {input rest : List UInt8} {a : α} (hd : d.Shrinks)
    (h : d input = (.ok a, rest)) : rest <:+ input := by
  simpa [h] using hd input

theorem endsOn_repeatInto {d : Decoder α} {n : Nat} {done : List α} {input : List UInt8}
    (hd : d.Shrinks) (h : ∀ j, j <:+ input → d.EndsOn j) : (d.repeatInto n done).EndsOn input := by
  induction n generalizing done input with
  | zero => exact endsOn_pure done.reverse input
  | succ n ih =>
    refine (h input List.suffix_rfl).bind fun a rest hrest => ih fun j hj => h j ?_
    exact hj.trans (suffix_of_run hd hrest)

theorem endsOn_mapM {γ : Type} {f : γ → Decoder α} {cs : List γ} {input : List UInt8}
    (hf : ∀ c ∈ cs, (f c).Shrinks) (h : ∀ c ∈ cs, ∀ j, j <:+ input → (f c).EndsOn j) :
    (cs.mapM f).EndsOn input := by
  induction cs generalizing input with
  | nil => simpa using endsOn_pure ([] : List α) input
  | cons c cs ih =>
    rw [List.mapM_cons]
    refine (h c List.mem_cons_self input List.suffix_rfl).bind fun a rest hrest => ?_
    refine (ih (fun c hc => hf c (List.mem_cons_of_mem _ hc)) fun c hc j hj => ?_).map (a :: ·)
    exact h c (List.mem_cons_of_mem _ hc) j
      (hj.trans (suffix_of_run (hf _ List.mem_cons_self) hrest))

end Wire.Decoder

namespace Schema

variable {s : Schema} {cap : Nat} {id : TypeId} {input : List UInt8}

/-- A read of a type before some bytes comes before another one: fewer bytes are unread, or as many
and values of the type nest less deep. -/
def Precedes (s : Schema) : TypeId × List UInt8 → TypeId × List UInt8 → Prop :=
  InvImage (Prod.Lex (· < ·) (· < ·)) fun read => (read.2.length, s.nesting read.1)

theorem wellFounded_precedes (s : Schema) : WellFounded s.Precedes :=
  InvImage.wf _ (Prod.lex ⟨_, Nat.lt_wfRel.wf⟩ ⟨_, Nat.lt_wfRel.wf⟩).wf

theorem precedes_of_length_lt {part : TypeId} {rest : List UInt8}
    (h : rest.length < input.length) : s.Precedes (part, rest) (id, input) :=
  Prod.Lex.left _ _ h

theorem precedes_of_member (hs : s.Acyclic) {r : RecordType} {m : Member}
    (hr : s.type id = .record r) (hm : m ∈ r.members) {rest : List UInt8} (h : rest <:+ input) :
    s.Precedes (m.type, rest) (id, input) := by
  rcases Nat.lt_or_eq_of_le h.length_le with hlt | heq
  · exact precedes_of_length_lt hlt
  · obtain rfl := h.eq_of_length heq
    exact Prod.Lex.right _ (nesting_member_lt hs hr hm)

theorem shrinks_decode (s : Schema) (cap : Nat) (id : TypeId) : (s.decode cap id).Shrinks :=
  fun input => s.shrinks_decodeWithin cap _ id input

/-- Decoding one level depends on no read but those that come before. -/
theorem decodeWith_eq_of_precedes (hs : s.Acyclic) {part part' : TypeId → Decoder Value}
    (hpart : ∀ id, (part id).Shrinks)
    (h : ∀ id' rest, rest <:+ input → s.Precedes (id', rest) (id, input) →
      part id' rest = part' id' rest) :
    s.decodeWith cap part id input = s.decodeWith cap part' id input := by
  by_cases hrecord : ∃ r, s.type id = .record r
  · obtain ⟨r, hr⟩ := hrecord
    have hR := Decoder.congruence_agreeOn input
    have hmembers : ∀ m ∈ r.members, Decoder.AgreeOn input (part m.type) (part' m.type) :=
      fun m hm => ⟨hpart m.type, fun j hj => h m.type j hj (precedes_of_member hs hr hm hj)⟩
    unfold decodeWith
    rw [hr]
    exact (hR.map (decodeMembers_congr hR hmembers) _).2 input List.suffix_rfl
  · push Not at hrecord
    exact s.decodeWith_eq_of_shorter cap hrecord hpart fun id' j hj hlt =>
      h id' j hj (precedes_of_length_lt hlt)

theorem toBytes_of_decode {v : Value} {rest : List UInt8}
    (h : s.decode cap id input = (.ok v, rest)) : ∃ form, s.toBytes cap id v = .ok form := by
  obtain ⟨c, -, -, w, hw, -⟩ := recodesAll_decode id input v rest h
  refine ⟨w, ?_⟩
  unfold toBytes
  rw [size_of_encode hw]
  exact hw

theorem endsOn_decodePairs {typeName : String} {key value : TypeId} {n : Nat}
    {seen : List (List UInt8)} {done : List (Value × Value)}
    (h : ∀ id j, j <:+ input → (s.decode cap id).EndsOn j) :
    (decodePairs typeName (s.toBytes cap key) (s.decode cap key) (s.decode cap value) n seen
      done).EndsOn input := by
  induction n generalizing seen done input with
  | zero => exact Decoder.endsOn_pure done.reverse input
  | succ n ih =>
    refine (h key input List.suffix_rfl).bind fun k rest hk => ?_
    have hrest := Decoder.suffix_of_run (s.shrinks_decode cap key) hk
    obtain ⟨form, hform⟩ := toBytes_of_decode hk
    rw [hform]
    dsimp only
    split_ifs
    · exact Decoder.endsOn_fail (by nofun) rest
    · refine (h value rest hrest).bind fun v mid hv => ih fun id j hj => h id j ?_
      exact (hj.trans (Decoder.suffix_of_run (s.shrinks_decode cap value) hv)).trans hrest

theorem endsOn_decode_of_precedes (hs : s.Acyclic)
    (h : ∀ id' rest, s.Precedes (id', rest) (id, input) → (s.decode cap id').EndsOn rest) :
    (s.decode cap id).EndsOn input := by
  have hshorter : ∀ {typeName n rest}, Decoder.count typeName cap input = (.ok n, rest) →
      ∀ id' j, j <:+ rest → (s.decode cap id').EndsOn j := by
    intro typeName n rest hcount id' j hj
    obtain ⟨-, hlt⟩ := Decoder.length_lt_of_count hcount
    exact h id' j (precedes_of_length_lt (Nat.lt_of_le_of_lt hj.length_le hlt))
  rw [s.decode_eq cap id]
  unfold decodeWith
  cases ht : s.type id with
  | bool => exact ((Decoder.endsOn_word 4 input).map (· != 0)).map _
  | numeric n => exact (Decoder.endsOn_number n input).map _
  | text wide => exact (Decoder.endsOn_text input).map _
  | blob => exact (Decoder.endsOn_blob input).map _
  | enumeration e =>
    refine (Decoder.endsOn_number .int32 input).bind fun v rest _ => ?_
    split_ifs
    · exact Decoder.endsOn_pure _ rest
    · exact Decoder.endsOn_fail (by nofun) rest
  | record r =>
    refine (Decoder.endsOn_mapM ?_ ?_).map _
    · intro m _
      exact (s.shrinks_decode cap m.type).bind fun v => Decoder.congruence_shrinks.pure _
    · intro m hm j hj
      exact (h m.type j (precedes_of_member hs ht hm hj)).map _
  | sequence q =>
    refine (Decoder.endsOn_count _ cap input).bind fun n rest hcount => ?_
    exact (Decoder.endsOn_repeatInto (s.shrinks_decode cap q.element)
      (hshorter hcount q.element)).map _
  | map m =>
    refine (Decoder.endsOn_count _ cap input).bind fun n rest hcount => ?_
    exact (endsOn_decodePairs (hshorter hcount)).map _
  | forward name => exact Decoder.endsOn_fail (by nofun) input

theorem endsOn_decode (hs : s.Acyclic) (cap : Nat) (id : TypeId) (input : List UInt8) :
    (s.decode cap id).EndsOn input := by
  -- Induction on the read, along the order that every read of a part goes down in.
  induction hread : (id, input) using s.wellFounded_precedes.induction generalizing id input with
  | _ read ih =>
    subst hread
    exact endsOn_decode_of_precedes hs fun id' rest hlt => ih (id', rest) hlt id' rest rfl

/-- Decoding ends on every input, with a value or an error, where no record holds itself. What it
does is settled by the reads that come before in the order of unread bytes and, between equal ones,
of nesting: whoever knows those knows what decoding one level more gives. -/
theorem decode_ends (s : Schema) (hs : s.Acyclic) (cap : Nat) (id : TypeId) (input : List UInt8) :
    ((∃ v rest, s.decode cap id input = (.ok v, rest)) ∨
      ∃ e rest, e ≠ .endlessRecord ∧ s.decode cap id input = (.error e, rest)) ∧
    WellFounded s.Precedes ∧
    ∀ part : TypeId → Decoder Value, (∀ id, (part id).Shrinks) →
      (∀ id' rest, rest <:+ input → s.Precedes (id', rest) (id, input) →
        part id' rest = s.decode cap id' rest) →
      s.decodeWith cap part id input = s.decode cap id input := by
  refine ⟨(endsOn_decode hs cap id input).eq_ok_or_error, s.wellFounded_precedes, ?_⟩
  intro part hpart h
  rw [s.decode_eq cap id]
  exact decodeWith_eq_of_precedes hs hpart h

/-- Trees that stand at a place and have trees below them. -/
def forest : Document where
  modules := [{
    name := "forest"
    modules := []
    types := [⟨"Tree", .forward⟩, ⟨"Trees", .sequence "Tree"⟩, ⟨"Place", .record [⟨"row", "int"⟩]⟩,
      ⟨"Tree", .record [⟨"place", "Place"⟩, ⟨"below", "Trees"⟩]⟩]
    interfaces := []
    constants := [] }]

theorem exists_of_types {doc : Document} {types : Array TypeDef}
    (h : (build doc).toOption.map (·.types) = some types) :
    ∃ s, build doc = .ok s ∧ s.types = types := by
  cases hbuild : build doc with
  | error e => simp [hbuild, Except.toOption] at h
  | ok s => exact ⟨s, rfl, by simpa [hbuild, Except.toOption] using h⟩

/-- A tree holds its place, and other trees only by way of a sequence. -/
theorem exists_forest :
    ∃ s, build forest = .ok s ∧ s.Acyclic ∧ s.Contains ⟨0⟩ ⟨2⟩ ∧
      ∀ id r m name, s.type id = .record r → m ∈ r.members → s.type m.type ≠ .forward name := by
  have htypes : (build forest).toOption.map (·.types) =
      some #[.record ⟨⟨["forest", "Tree"]⟩, .plain, [⟨"place", ⟨2⟩⟩, ⟨"below", ⟨1⟩⟩]⟩,
        .sequence ⟨⟨["forest", "Trees"]⟩, ⟨0⟩⟩,
        .record ⟨⟨["forest", "Place"]⟩, .plain, [⟨"row", ⟨3⟩⟩]⟩, .numeric .int32] := by
    decide +kernel
  obtain ⟨s, hs, htypes⟩ := exists_of_types htypes
  refine ⟨s, hs, ?_, ?_, ?_⟩
  · apply acyclic_of_descends fun id => if id.index = 0 then 1 else 0
    unfold descends type
    rw [htypes]
    rfl
  · unfold Contains type
    rw [htypes]
    exact ⟨_, _, rfl, rfl, _, List.mem_cons_self, rfl⟩
  · intro id r m name
    unfold type
    rw [htypes]
    rcases id with ⟨_ | _ | _ | _ | _⟩
    · rintro ⟨rfl⟩ hm
      rcases List.mem_pair.mp hm with rfl | rfl <;> nofun
    · nofun
    · rintro ⟨rfl⟩ hm
      obtain rfl := List.mem_singleton.mp hm
      nofun
    · nofun
    · nofun

theorem decode_ends_forest :
    ∃ s, build forest = .ok s ∧ s.Acyclic ∧ s.Contains ⟨0⟩ ⟨2⟩ ∧
      ∀ cap input, (∃ v rest, s.decode cap ⟨0⟩ input = (.ok v, rest)) ∨
        ∃ e rest, e ≠ .endlessRecord ∧ s.decode cap ⟨0⟩ input = (.error e, rest) := by
  obtain ⟨s, hs, hacyclic, hcontains, -⟩ := exists_forest
  exact ⟨s, hs, hacyclic, hcontains, fun cap input => (decode_ends s hacyclic cap ⟨0⟩ input).1⟩

theorem mapM_cases {α β ε : Type} (f : α → Except ε β) (xs : List α) :
    (∃ ys, xs.mapM f = .ok ys ∧ ∀ x ∈ xs, ∃ y, f x = .ok y) ∨
      ∃ x ∈ xs, ∃ e, f x = .error e ∧ xs.mapM f = .error e := by
  induction xs with
  | nil => exact .inl ⟨[], by simp; rfl, nofun⟩
  | cons x xs ih =>
    rw [List.mapM_cons]
    cases hx : f x with
    | error e => exact .inr ⟨x, List.mem_cons_self, e, hx, rfl⟩
    | ok y =>
      rcases ih with ⟨ys, hys, hall⟩ | ⟨x', hx', e, he, herror⟩
      · refine .inl ⟨y :: ys, by rw [hys]; rfl, ?_⟩
        exact List.forall_mem_cons.mpr ⟨⟨y, hx⟩, hall⟩
      · exact .inr ⟨x', List.mem_cons_of_mem _ hx', e, he, by rw [herror]; rfl⟩

/-- The empty value of a record, given the empty values of the types of its members. -/
def emptyRecord (part : TypeId → Except WireError Value) (r : RecordType) :
    Except WireError Value := do
  let fields ← r.members.mapM fun m => do return (m.name, ← part m.type)
  return .record r.name.text fields

theorem defaultRecord_eq (s : Schema) (r : RecordType) :
    s.defaultRecord r = emptyRecord s.defaultValue r := rfl

theorem defaultWithin_record {depth : Nat} {r : RecordType} (hr : s.type id = .record r) :
    s.defaultWithin (depth + 1) id = emptyRecord (s.defaultWithin depth) r := by
  rw [defaultWithin, hr]
  rfl

/-- A record is empty if all its members can be, and otherwise fails as one of them does. -/
theorem emptyRecord_cases (part : TypeId → Except WireError Value) (r : RecordType) :
    (∃ v, emptyRecord part r = .ok v ∧ ∀ m ∈ r.members, ∃ v, part m.type = .ok v) ∨
      ∃ m ∈ r.members, ∃ e, part m.type = .error e ∧ emptyRecord part r = .error e := by
  unfold emptyRecord
  rcases mapM_cases (fun m => do return (m.name, ← part m.type)) r.members with
    ⟨fields, hfields, hall⟩ | ⟨m, hm, e, he, herror⟩
  · refine .inl ⟨_, by rw [hfields]; rfl, fun m hm => ?_⟩
    obtain ⟨field, hfield⟩ := hall m hm
    cases hpart : part m.type with
    | error e => simp [hpart] at hfield
    | ok v => exact ⟨v, rfl⟩
  · refine .inr ⟨m, hm, e, ?_, by rw [herror]; rfl⟩
    cases hpart : part m.type with
    | error e' => simpa [hpart] using he
    | ok v => simp [hpart] at he

/-- The type is declared and not defined, or a record has a member of such a type. -/
def Lacks (s : Schema) (id : TypeId) (name : QualifiedName) : Prop :=
  s.type id = .forward name ∨
    ∃ outer r, s.type outer = .record r ∧ ∃ m ∈ r.members, s.type m.type = .forward name

/-- A chain of members, which may be empty, leads from the type to one that is declared and not
defined. -/
inductive Misses (s : Schema) : TypeId → QualifiedName → Prop
  | here {id : TypeId} {name : QualifiedName} (ht : s.type id = .forward name) : Misses s id name
  | member {id : TypeId} {name : QualifiedName} {r : RecordType} {m : Member}
    (ht : s.type id = .record r) (hm : m ∈ r.members) (h : Misses s m.type name) : Misses s id name

theorem Misses.lacks {name : QualifiedName} (h : s.Misses id name) : s.Lacks id name := by
  induction h with
  | here ht => exact .inl ht
  | @member id name r m ht hm _ ih =>
    rcases ih with hname | hlacks
    · exact .inr ⟨id, r, ht, m, hm, hname⟩
    · exact .inr hlacks

/-- With room for all that is nested, an empty value is only missing where a definition is. -/
theorem defaultWithin_cases (hs : s.Acyclic) {depth : Nat} (h : s.nesting id < depth) :
    (∃ v, s.defaultWithin depth id = .ok v) ∨
      ∃ name, s.Misses id name ∧ s.defaultWithin depth id = .error (.typeMismatch name.text) := by
  induction depth generalizing id with
  | zero => exact absurd h (Nat.not_lt_zero _)
  | succ depth ih =>
    by_cases hrecord : ∃ r, s.type id = .record r
    · obtain ⟨r, hr⟩ := hrecord
      rw [defaultWithin_record hr]
      rcases emptyRecord_cases (s.defaultWithin depth) r with
        ⟨v, hv, -⟩ | ⟨m, hm, e, he, herror⟩
      · exact .inl ⟨v, hv⟩
      have hdown : s.nesting m.type < depth :=
        Nat.lt_of_lt_of_le (nesting_member_lt hs hr hm) (Nat.le_of_lt_succ h)
      rcases ih hdown with ⟨v, hv⟩ | ⟨name, hmisses, hname⟩
      · rw [hv] at he
        cases he
      · obtain rfl : e = .typeMismatch name.text := Except.error.inj (he.symm.trans hname)
        exact .inr ⟨name, .member hr hm hmisses, herror⟩
    · cases ht : s.type id with
      | record r => exact absurd ⟨r, ht⟩ hrecord
      | forward name => exact .inr ⟨name, .here ht, by rw [defaultWithin, ht]⟩
      | _ => exact .inl ⟨_, by rw [defaultWithin, ht]⟩

theorem defaultValue_cases (hs : s.Acyclic) (id : TypeId) :
    (∃ v, s.defaultValue id = .ok v) ∨
      ∃ name, s.Lacks id name ∧ s.defaultValue id = .error (.typeMismatch name.text) := by
  rcases defaultWithin_cases hs (Nat.lt_succ_of_le (s.nesting_le_size id)) with
    hv | ⟨name, hmisses, hname⟩
  · exact .inl hv
  · exact .inr ⟨name, hmisses.lacks, hname⟩

theorem defaultValue_ne_endless (hs : s.Acyclic) (id : TypeId) :
    s.defaultValue id ≠ .error .endlessRecord := by
  rcases defaultValue_cases hs id with ⟨v, hv⟩ | ⟨name, -, hname⟩
  · rw [hv]
    nofun
  · rw [hname]
    nofun

theorem defaultRecord_ne_endless (hs : s.Acyclic) (r : RecordType) :
    s.defaultRecord r ≠ .error .endlessRecord := by
  rw [defaultRecord_eq]
  rcases emptyRecord_cases s.defaultValue r with ⟨v, hv, -⟩ | ⟨m, -, e, he, herror⟩
  · rw [hv]
    nofun
  · rw [herror, ← he]
    exact defaultValue_ne_endless hs m.type

theorem endsOn_decodeMembers (hs : s.Acyclic) (cap : Nat) (members : List Member)
    (input : List UInt8) : (decodeMembers (s.decode cap) members).EndsOn input := by
  refine Decoder.endsOn_mapM ?_ ?_
  · intro m _
    exact (s.shrinks_decode cap m.type).bind fun v => Decoder.congruence_shrinks.pure _
  · intro m _ j _
    exact (endsOn_decode hs cap m.type j).map _

theorem acc_of_defaultWithin {depth : Nat} {v : Value} (h : s.defaultWithin depth id = .ok v) :
    Acc (flip s.Contains) id := by
  induction depth generalizing id v with
  | zero => cases h
  | succ depth ih =>
    refine ⟨id, fun inner hinner => ?_⟩
    obtain ⟨r, -, hr, -, m, hm, rfl⟩ := hinner
    rw [defaultWithin_record hr] at h
    rcases emptyRecord_cases (s.defaultWithin depth) r with ⟨_, -, hall⟩ | ⟨_, _, e, -, herror⟩
    · obtain ⟨v, hv⟩ := hall m hm
      exact ih hv
    · rw [herror] at h
      cases h

theorem exists_run_of_decodeMembers {part : TypeId → Decoder Value} {members : List Member}
    {fields : List (String × Value)} {rest : List UInt8}
    (h : decodeMembers part members input = (.ok fields, rest)) {m : Member} (hm : m ∈ members) :
    ∃ j v k, part m.type j = (.ok v, k) := by
  induction members generalizing input fields rest with
  | nil => cases hm
  | cons m' members ih =>
    unfold decodeMembers at h
    rw [List.mapM_cons, Decoder.bind_eq_ok_iff] at h
    obtain ⟨field, mid, hfield, htail⟩ := h
    obtain ⟨v, mid', hv, -⟩ := Decoder.bind_eq_ok_iff.mp hfield
    obtain ⟨fields', last, hfields, -⟩ := Decoder.bind_eq_ok_iff.mp htail
    rcases List.mem_cons.mp hm with rfl | hm
    · exact ⟨input, v, mid', hv⟩
    · exact ih hfields hm

theorem acc_of_decodeWithin {depth : Nat} {v : Value} {rest : List UInt8}
    (h : s.decodeWithin cap depth id input = (.ok v, rest)) : Acc (flip s.Contains) id := by
  induction depth generalizing id input v rest with
  | zero => cases h
  | succ depth ih =>
    refine ⟨id, fun inner hinner => ?_⟩
    obtain ⟨r, -, hr, -, m, hm, rfl⟩ := hinner
    rw [decodeWithin, decodeWith, hr] at h
    obtain ⟨fields, mid, hfields, -⟩ := Decoder.bind_eq_ok_iff.mp h
    obtain ⟨j, v, k, hv⟩ := exists_run_of_decodeMembers hfields hm
    exact ih hv

theorem not_transGen_of_acc (h : Acc (TransGen (flip s.Contains)) id) :
    ¬ TransGen s.Contains id id := by
  induction h with
  | intro id _ ih => exact fun hcycle => ih id (transGen_swap.mpr hcycle) hcycle

/-- Where no record holds itself, empty values and reads of every type and of every record come to
their end. A record that holds itself has neither an empty value nor bytes that it is read from. So
if every member has a type with a definition, no record holds itself exactly if each has an empty
value. -/
theorem acyclic_bounds_records (s : Schema) :
    (s.Acyclic →
      (∀ id, s.defaultValue id ≠ .error .endlessRecord ∧
        ∀ cap input, (s.decode cap id input).1 ≠ .error .endlessRecord) ∧
      ∀ r, s.defaultRecord r ≠ .error .endlessRecord ∧
        ∀ cap input, (s.decodeRecord cap r input).1 ≠ .error .endlessRecord) ∧
    (∀ id, TransGen s.Contains id id →
      (∀ v, s.defaultValue id ≠ .ok v) ∧
        ∀ cap input v rest, s.decode cap id input ≠ (.ok v, rest)) ∧
    ((∀ id r m name, s.type id = .record r → m ∈ r.members → s.type m.type ≠ .forward name) →
      (s.Acyclic ↔ ∀ id r, s.type id = .record r → ∃ v, s.defaultValue id = .ok v)) := by
  have hnone : ∀ id, TransGen s.Contains id id → ∀ v, s.defaultValue id ≠ .ok v :=
    fun id hcycle v hv => not_transGen_of_acc (acc_of_defaultWithin hv).transGen hcycle
  refine ⟨fun hs => ⟨fun id => ?_, fun r => ?_⟩, fun id hcycle => ⟨hnone id hcycle, ?_⟩, ?_⟩
  · exact ⟨defaultValue_ne_endless hs id, fun cap input => endsOn_decode hs cap id input⟩
  · exact ⟨defaultRecord_ne_endless hs r, fun cap input =>
      (endsOn_decodeMembers hs cap r.members input).map _⟩
  · exact fun cap input v rest hv => not_transGen_of_acc (acc_of_decodeWithin hv).transGen hcycle
  · intro hdefined
    constructor
    · intro hs id r hr
      rcases defaultValue_cases hs id with hv | ⟨name, hlacks | ⟨outer, r', hr', m, hm, hname⟩, -⟩
      · exact hv
      · simp [hr] at hlacks
      · exact absurd hname (hdefined outer r' m name hr' hm)
    · intro hvalues id hcycle
      obtain ⟨r, hr⟩ : ∃ r, s.type id = .record r := by
        obtain ⟨_, ⟨r, -, hr, -⟩, -⟩ := TransGen.head'_iff.mp hcycle
        exact ⟨r, hr⟩
      obtain ⟨v, hv⟩ := hvalues id r hr
      exact hnone id hcycle v hv

theorem acyclic_bounds_records_forest :
    ∃ s, build forest = .ok s ∧ s.Acyclic ∧ s.Contains ⟨0⟩ ⟨2⟩ ∧
      (∃ v, s.defaultValue ⟨0⟩ = .ok v) ∧
      ∀ id, s.defaultValue id ≠ .error .endlessRecord ∧
        ∀ cap input, (s.decode cap id input).1 ≠ .error .endlessRecord := by
  obtain ⟨s, hs, hacyclic, hcontains, hdefined⟩ := exists_forest
  obtain ⟨hends, -, hiff⟩ := acyclic_bounds_records s
  have hvalue : ∃ v, s.defaultValue ⟨0⟩ = .ok v := by
    obtain ⟨tree, -, htree, -⟩ := hcontains
    exact (hiff hdefined).mp hacyclic ⟨0⟩ tree htree
  exact ⟨s, hs, hacyclic, hcontains, hvalue, (hends hacyclic).1⟩

/-- A box that holds a box of its own kind. -/
def boxes : Document where
  modules := [{
    name := "boxes"
    modules := []
    types := [⟨"Box", .record [⟨"inner", "Box"⟩]⟩]
    interfaces := []
    constants := [] }]

/-- Such a box is built. Its empty value and every read of it go on forever. -/
theorem build_boxes_endless :
    ∃ s, build boxes = .ok s ∧ s.Contains ⟨0⟩ ⟨0⟩ ∧ s.defaultValue ⟨0⟩ = .error .endlessRecord ∧
      ∀ cap input, s.decode cap ⟨0⟩ input = (.error .endlessRecord, []) := by
  have htypes : (build boxes).toOption.map (·.types) =
      some #[.record ⟨⟨["boxes", "Box"]⟩, .plain, [⟨"inner", ⟨0⟩⟩]⟩] := by
    decide +kernel
  obtain ⟨s, hs, htypes⟩ := exists_of_types htypes
  have hbox : s.type ⟨0⟩ = .record ⟨⟨["boxes", "Box"]⟩, .plain, [⟨"inner", ⟨0⟩⟩]⟩ := by
    unfold type
    rw [htypes]
    rfl
  have hempty : ∀ depth, s.defaultWithin depth ⟨0⟩ = .error .endlessRecord := by
    intro depth
    induction depth with
    | zero => rfl
    | succ depth ih =>
      rw [defaultWithin_record hbox]
      simp [emptyRecord, ih]
  have hread : ∀ cap depth input,
      s.decodeWithin cap depth ⟨0⟩ input = (.error .endlessRecord, []) := by
    intro cap depth input
    induction depth with
    | zero => rfl
    | succ depth ih =>
      rw [decodeWithin, decodeWith, hbox]
      simp only [decodeMembers, List.mapM_cons, Decoder.run_bind, ih]
  exact ⟨s, hs, ⟨_, _, hbox, hbox, _, List.mem_cons_self, rfl⟩, hempty _,
    fun cap input => hread cap _ input⟩

end Schema
end WireSchema
