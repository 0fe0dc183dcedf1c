import WireSchema.Config
import WireSchema.Proofs.Schema.TypeRules
import WireSchema.Proofs.Value.Termination
import WireSchema.Proofs.Value.Typing

/-!
# Empty values are values

The empty value of a type has the type under every cap, and nothing of it is lost when it is written
and read again. A type has an empty value unless a chain of members leads from it to a type that is
declared and not defined.
-/
namespace WireSchema

open Wire Schema

namespace Numeric

theorem takes_zero (n : Numeric) : n.Takes n.zero := by
  cases n with
  | float32 | float64 => exact .float rfl
  | int8 | int16 | int32 | int64 => exact .signed rfl rfl (by decide) (by decide)
  | uint8 | uint16 | uint32 | uint64 => exact .unsigned rfl (by decide)

theorem normalize_zero (n : Numeric) : n.normalize n.zero = n.zero := by
  cases n with
  | float32 => exact congrArg Value.float (by decide +kernel)
  | _ => rfl

end Numeric

namespace Schema

variable {s : Schema} {cap : Nat} {id : TypeId} {v : Value}

/-- A value of the type that is its own normal form, so that nothing is lost by writing it. -/
structure Settles (s : Schema) (cap : Nat) (id : TypeId) (v : Value) : Prop where
  hasType : s.HasType cap id v
  normal : s.normalize id v = v

/-- The fields are the members with a value each. -/
def Fills (P : TypeId → Value → Prop) (members : List Member)
    (fields : List (String × Value)) : Prop :=
  List.Forall₂ (fun m f => f.1 = m.name ∧ P m.type f.2) members fields

theorem forall₂_of_mapM {ε α β : Type} {f : α → Except ε β} {xs : List α} {ys : List β}
    (h : xs.mapM f = .ok ys) : List.Forall₂ (fun x y => f x = .ok y) xs ys := by
  induction xs generalizing ys with
  | nil =>
    rw [List.mapM_nil] at h
    obtain rfl := Except.ok.inj h
    exact .nil
  | cons x xs ih =>
    rw [List.mapM_cons] at h
    cases hx : f x with
    | error e => simp [hx, bind, Except.bind] at h
    | ok y =>
      cases hxs : xs.mapM f with
      | error e => simp [hx, hxs, bind, Except.bind] at h
      | ok rest =>
        obtain rfl : y :: rest = ys := by
          simpa [hx, hxs, bind, Except.bind, pure, Except.pure] using h
        exact .cons hx (ih hxs)

theorem emptyRecord_eq_ok {part : TypeId → Except WireError Value} {r : RecordType}
    (h : emptyRecord part r = .ok v) : ∃ fields, v = .record r.name.text fields ∧
      Fills (fun id v => part id = .ok v) r.members fields := by
  unfold emptyRecord at h
  cases hfields : r.members.mapM fun m => do return (m.name, ← part m.type) with
  | error e =>
    rw [hfields] at h
    cases h
  | ok fields =>
    rw [hfields] at h
    obtain rfl := Except.ok.inj h
    refine ⟨fields, rfl, (forall₂_of_mapM hfields).imp fun m f hf => ?_⟩
    cases hpart : part m.type with
    | error e =>
      rw [hpart] at hf
      cases hf
    | ok v =>
      rw [hpart] at hf
      obtain rfl := Except.ok.inj hf
      exact ⟨rfl, hpart⟩

variable {members : List Member} {fields : List (String × Value)}

theorem Fills.imp {P Q : TypeId → Value → Prop} (h : Fills P members fields)
    (himp : ∀ id v, P id v → Q id v) : Fills Q members fields :=
  List.Forall₂.imp (fun m f hf => ⟨hf.1, himp m.type f.2 hf.2⟩) h

theorem Fills.names {P : TypeId → Value → Prop} (h : Fills P members fields) :
    fields.map (·.1) = members.map (·.name) := by
  induction h with
  | nil => rfl
  | cons hf _ ih => rw [List.map_cons, List.map_cons, hf.1, ih]

theorem Fills.zip {P : TypeId → Value → Prop} (h : Fills P members fields) :
    ∀ p ∈ members.zip fields, P p.1.type p.2.2 := by
  induction h with
  | nil => simp
  | cons hf _ ih => exact List.forall_mem_cons.mpr ⟨hf.2, ih⟩

theorem Fills.normalizeFields (h : Fills (s.Settles cap) members fields) :
    s.normalizeFields members fields = fields := by
  induction h with
  | nil => exact normalizeFields_nil
  | @cons m f members fields hf _ ih => rw [normalizeFields_cons, hf.2.normal, ih]

/-- Every enumeration of the table has an enumerator. -/
def Populated (s : Schema) : Prop :=
  ∀ id e, s.type id = .enumeration e → e.enumerators ≠ []

theorem populated_of_build {doc : Document} (h : build doc = .ok s) : s.Populated := by
  intro id e he
  obtain ⟨_, _, hcompletes, htypes⟩ := completes_of_build h
  have hrules := hcompletes.typeRules
  rw [← htypes] at hrules
  obtain ⟨_, -, hdeclared⟩ := hrules.enumerations (getElem?_of_type he (by simp))
  exact hdeclared.nonempty

theorem head_mem_values {e : EnumType} (h : e.enumerators ≠ []) :
    (e.enumerators.head?.map (·.value)).getD 0 ∈ e.enumerators.map (·.value) := by
  cases he : e.enumerators with
  | nil => exact absurd he h
  | cons first rest => exact List.mem_cons_self

theorem settles_defaultWithin (hs : s.Populated) (cap : Nat) {depth : Nat}
    (h : s.defaultWithin depth id = .ok v) : s.Settles cap id v := by
  induction depth generalizing id v with
  | zero => cases h
  | succ depth ih =>
    rw [defaultWithin] at h
    cases ht : s.type id <;> rw [ht] at h
    case record r =>
      obtain ⟨fields, rfl, hfills⟩ := emptyRecord_eq_ok h
      replace hfills := hfills.imp fun _ _ hv => ih hv
      refine ⟨.record ht hfills.names (hfills.imp fun _ _ hv => hv.hasType).zip, ?_⟩
      rw [normalize_record ht, hfills.normalizeFields]
    case forward name => cases h
    all_goals obtain rfl := Except.ok.inj h
    case bool => exact ⟨.bool ht, normalize_eq_self ht rfl (by simp)⟩
    case numeric n =>
      exact ⟨.number ht n.takes_zero, (normalize_numeric ht).trans n.normalize_zero⟩
    case text => exact ⟨.text ht (Nat.zero_le _), normalize_eq_self ht rfl (by simp)⟩
    case blob => exact ⟨.blob ht (Nat.zero_le _), normalize_eq_self ht rfl (by simp)⟩
    case enumeration e =>
      exact ⟨.ordinal ht (head_mem_values (hs id e ht)), normalize_eq_self ht rfl (by simp)⟩
    case sequence q =>
      refine ⟨.sequence ht (Nat.zero_le _) (Nat.zero_le _) (by simp), ?_⟩
      rw [normalize_sequence ht, normalizeElements]
    case map m =>
      refine ⟨.map ht (Nat.zero_le _) (Nat.zero_le _) (by simp) (by simp) .nil, ?_⟩
      rw [normalize_map ht, normalizePairs]

theorem defaultWithin_ne_ok_of_misses {name : QualifiedName} (h : s.Misses id name) (depth : Nat) :
    s.defaultWithin depth id ≠ .ok v := by
  intro hv
  induction h generalizing depth v with
  | here ht =>
    cases depth with
    | zero => cases hv
    | succ depth =>
      rw [defaultWithin, ht] at hv
      cases hv
  | @member id name r m ht hm _ ih =>
    cases depth with
    | zero => cases hv
    | succ depth =>
      rw [defaultWithin_record ht] at hv
      rcases emptyRecord_cases (s.defaultWithin depth) r with ⟨_, -, hall⟩ | ⟨_, _, e, -, herror⟩
      · obtain ⟨v, hv⟩ := hall m hm
        exact ih depth hv
      · rw [herror] at hv
        cases hv

/-- An empty value that may be missing, for the reason that some name of a type has no definition,
and otherwise is written and read back as it is. -/
structure IsReal (missing : QualifiedName → Prop) (empty : Except WireError Value)
    (write : Value → Output) (read : Decoder Value) : Prop where
  fails_iff : (∃ e, empty = .error e) ↔ ∃ name, missing name
  error : ∀ e, empty = .error e → ∃ name, missing name ∧ e = .typeMismatch name.text
  kept : ∀ v, empty = .ok v → ∃ bytes,
    Sink.unbounded.drain (write v) = (.ok (), ⟨none, bytes⟩) ∧
      ∀ rest, read (bytes ++ rest) = (.ok v, rest)

theorem isReal_of_misses {missing : QualifiedName → Prop} {empty : Except WireError Value}
    {write : Value → Output} {read : Decoder Value}
    (hmissing : ∀ name v, missing name → empty ≠ .ok v)
    (herror : ∀ e, empty = .error e → ∃ name, missing name ∧ e = .typeMismatch name.text)
    (hkept : ∀ v, empty = .ok v → ∃ bytes, (write v).result = .ok bytes ∧ read.Reads bytes v) :
    IsReal missing empty write read := by
  refine ⟨⟨?_, ?_⟩, herror, ?_⟩
  · rintro ⟨e, he⟩
    obtain ⟨name, hname, -⟩ := herror e he
    exact ⟨name, hname⟩
  · rintro ⟨name, hname⟩
    cases hv : empty with
    | error e => exact ⟨e, rfl⟩
    | ok v => exact absurd hv (hmissing name v hname)
  · intro v hv
    obtain ⟨bytes, hbytes, hreads⟩ := hkept v hv
    exact ⟨bytes, Sink.drain_unbounded_eq_ok_iff.mpr hbytes, hreads⟩

theorem isReal_defaultValue (hs : s.Acyclic) (hfull : s.Populated) (cap : Nat) (id : TypeId) :
    IsReal (s.Misses id) (s.defaultValue id) (s.encode cap id) (s.decode cap id) := by
  refine isReal_of_misses (fun _ _ hmisses => defaultWithin_ne_ok_of_misses hmisses _) ?_ ?_
  · intro e he
    rcases defaultWithin_cases hs (Nat.lt_succ_of_le (s.nesting_le_size id)) with
      ⟨v, hv⟩ | ⟨name, hmisses, hname⟩
    · cases hv.symm.trans he
    · exact ⟨name, hmisses, Except.error.inj (he.symm.trans hname)⟩
  · intro v hv
    have hsettles := settles_defaultWithin hfull cap hv
    obtain ⟨bytes, hbytes⟩ := exists_encode_of_hasType hsettles.hasType
    have hreads := reads_decode hbytes
    rw [hsettles.normal] at hreads
    exact ⟨bytes, hbytes, hreads⟩

theorem isReal_defaultRecord (hs : s.Acyclic) (hfull : s.Populated) (cap : Nat) (r : RecordType) :
    IsReal (fun name => ∃ m ∈ r.members, s.Misses m.type name) (s.defaultRecord r)
      (s.encodeRecord cap r) (s.decodeRecord cap r) := by
  have hcases := emptyRecord_cases s.defaultValue r
  rw [defaultRecord_eq]
  refine isReal_of_misses ?_ ?_ ?_
  · rintro name v ⟨m, hm, hmisses⟩ hv
    rcases hcases with ⟨_, -, hall⟩ | ⟨_, _, e, -, he⟩
    · obtain ⟨_, hpart⟩ := hall m hm
      exact defaultWithin_ne_ok_of_misses hmisses _ hpart
    · cases hv.symm.trans he
  · intro e he
    rcases hcases with ⟨v, hv, -⟩ | ⟨m, hm, e', hpart, he'⟩
    · cases hv.symm.trans he
    · obtain rfl := Except.error.inj (he.symm.trans he')
      obtain ⟨name, hmisses, hname⟩ := (isReal_defaultValue hs hfull cap m.type).error e hpart
      exact ⟨name, ⟨m, hm, hmisses⟩, hname⟩
  · intro v hv
    obtain ⟨fields, rfl, hfills⟩ := emptyRecord_eq_ok hv
    replace hfills := hfills.imp fun _ _ hv => settles_defaultWithin hfull cap hv
    obtain ⟨bytes, hbytes⟩ := exists_encodeFields hfills.names
      (hfills.imp fun _ _ hv => exists_encode_of_hasType hv.hasType).zip
    have hfit : r.fits fields := by simpa [RecordType.fits] using hfills.names
    have hwritten := encodeRecord_eq_ok_iff.mpr ⟨r.name.text, fields, rfl, hfit, hbytes⟩
    have hreads := reads_decodeRecord hwritten
    rw [normalizeRecord, hfills.normalizeFields] at hreads
    exact ⟨bytes, hwritten, hreads⟩

/-- In a built schema in which no record holds itself, a type has no empty value exactly if a chain
of members leads from it to a type without a definition, and then the error names such a type. Every
other empty value is written under every configuration and read back as it is. The same goes for
records beside the table, as requests and responses are. -/
theorem empty_values_are_real (doc : Document) (s : Schema) (h : build doc = .ok s)
    (hs : s.Acyclic) (config : Config) :
    (∀ id : TypeId, IsReal (s.Misses id) (s.defaultValue id)
      (s.encode config.maxElements.toNat id) (s.decode config.maxElements.toNat id)) ∧
    ∀ r : RecordType, IsReal (fun name => ∃ m ∈ r.members, s.Misses m.type name)
      (s.defaultRecord r) (s.encodeRecord config.maxElements.toNat r)
      (s.decodeRecord config.maxElements.toNat r) := by
  have hfull := populated_of_build h
  exact ⟨isReal_defaultValue hs hfull _, isReal_defaultRecord hs hfull _⟩

/-- Plants of two kinds, and beds in a soil that is not defined. -/
def garden : Document where
  modules := [{
    name := "garden"
    modules := []
    types := [⟨"Soil", .forward⟩, ⟨"Kind", .enumeration [⟨"SHRUB", 3⟩, ⟨"HERB", 5⟩]⟩,
      ⟨"Heights", .sequence "float"⟩, ⟨"Plant", .record [⟨"kind", "Kind"⟩, ⟨"heights", "Heights"⟩]⟩,
      ⟨"Bed", .record [⟨"plant", "Plant"⟩, ⟨"soil", "Soil"⟩]⟩]
    interfaces := []
    constants := [] }]

theorem empty_values_are_real_garden :
    ∃ s, build garden = .ok s ∧ s.Acyclic ∧
      (∃ v bytes, s.defaultValue ⟨3⟩ = .ok v ∧
        Sink.unbounded.drain (s.encode 0 ⟨3⟩ v) = (.ok (), ⟨none, bytes⟩) ∧
        s.decode 0 ⟨3⟩ bytes = (.ok v, [])) ∧
      ∃ e, s.defaultValue ⟨4⟩ = .error e := by
  have htypes : (build garden).toOption.map (·.types) =
      some #[.forward ⟨["garden", "Soil"]⟩,
        .enumeration ⟨⟨["garden", "Kind"]⟩, [⟨"SHRUB", 3⟩, ⟨"HERB", 5⟩]⟩,
        .sequence ⟨⟨["garden", "Heights"]⟩, ⟨5⟩⟩,
        .record ⟨⟨["garden", "Plant"]⟩, .plain, [⟨"kind", ⟨1⟩⟩, ⟨"heights", ⟨2⟩⟩]⟩,
        .record ⟨⟨["garden", "Bed"]⟩, .plain, [⟨"plant", ⟨3⟩⟩, ⟨"soil", ⟨0⟩⟩]⟩,
        .numeric .float32] := by
    decide +kernel
  obtain ⟨s, hs, htypes⟩ := exists_of_types htypes
  have hacyclic : s.Acyclic := by
    apply acyclic_of_descends (·.index)
    unfold descends type
    rw [htypes]
    rfl
  obtain ⟨hreal, -⟩ := empty_values_are_real garden s hs hacyclic { maxElements := 0 }
  have hplant : s.defaultValue ⟨3⟩ =
      .ok (.record "garden::Plant" [("kind", .ordinal 3), ("heights", .sequence [])]) := by
    obtain ⟨types, modules⟩ := s
    obtain rfl : types = _ := htypes
    rfl
  have hsoil : s.type ⟨0⟩ = .forward ⟨["garden", "Soil"]⟩ := by
    unfold type
    rw [htypes]
    rfl
  have hbed : s.type ⟨4⟩ =
      .record ⟨⟨["garden", "Bed"]⟩, .plain, [⟨"plant", ⟨3⟩⟩, ⟨"soil", ⟨0⟩⟩]⟩ := by
    unfold type
    rw [htypes]
    rfl
  have hmisses : s.Misses ⟨4⟩ ⟨["garden", "Soil"]⟩ :=
    .member hbed (List.mem_cons_of_mem _ List.mem_cons_self) (.here hsoil)
  obtain ⟨bytes, hwritten, hread⟩ := (hreal ⟨3⟩).kept _ hplant
  exact ⟨s, hs, hacyclic, ⟨_, bytes, hplant, hwritten, by simpa using hread []⟩,
    (hreal ⟨4⟩).fails_iff.mpr ⟨_, hmisses⟩⟩

end Schema
end WireSchema
