import Mathlib.Data.List.Nodup
import WireSchema.Proofs.Value.Number
import WireSchema.Proofs.Value.Size

/-!
# Values of a type

Which values a type has is said here without the encoder, except that the keys of a map are told
apart by their encodings. The encoder accepts exactly the values that have the type.
-/
namespace WireSchema

open Wire Schema

namespace Numeric

/-- The numbers of a numeric kind: the integers that its width holds, or all floating-point numbers.
-/
inductive Takes (n : Numeric) : Value → Prop
  | signed {v : Int64} (hinteger : n.isFloat = false) (hsigned : n.isSigned = true)
    (hlow : -2 ^ (8 * n.width - 1) ≤ v.toInt) (hhigh : v.toInt < 2 ^ (8 * n.width - 1)) :
    Takes n (.int v)
  | unsigned {v : UInt64} (hunsigned : n.isSigned = false) (hhigh : v.toNat < 2 ^ (8 * n.width)) :
    Takes n (.uint v)
  | float {x : Binary.Binary64} (hfloat : n.isFloat = true) : Takes n (.float x)

theorem ofValue?_int (n : Numeric) (v : Int64) :
    (n.ofValue? (.int v)).isSome ↔ n.isFloat = false ∧ n.isSigned = true ∧ n.holds v.toInt := by
  have hlow := Int64.le_toInt v
  have hhigh := Int64.toInt_lt v
  cases n with
  | int64 => simp [ofValue?, holds, range?, isFloat, isSigned, width]; omega
  | _ => simp [ofValue?, isFloat, isSigned]

theorem ofValue?_uint (n : Numeric) (v : UInt64) :
    (n.ofValue? (.uint v)).isSome ↔ n.isSigned = false ∧ n.holds v.toNat := by
  have hhigh := UInt64.toNat_lt v
  cases n with
  | uint64 => simp [ofValue?, holds, range?, isFloat, isSigned, width]; omega
  | _ => simp [ofValue?, isSigned]

theorem holds_iff_of_signed {n : Numeric} {v : Int} (hinteger : n.isFloat = false)
    (hsigned : n.isSigned = true) :
    n.holds v ↔ -2 ^ (8 * n.width - 1) ≤ v ∧ v < 2 ^ (8 * n.width - 1) := by
  have hrange : n.range? = some (-2 ^ (8 * n.width - 1), 2 ^ (8 * n.width - 1) - 1) := by
    simp [range?, hinteger, hsigned]
  rw [holds_iff hrange]
  omega

theorem holds_iff_of_unsigned {n : Numeric} {v : Nat} (hunsigned : n.isSigned = false) :
    n.holds v ↔ v < 2 ^ (8 * n.width) := by
  have hinteger : n.isFloat = false := by cases n <;> simp_all [isSigned, isFloat]
  have hrange : n.range? = some (0, 2 ^ (8 * n.width) - 1) := by simp [range?, hinteger, hunsigned]
  rw [holds_iff hrange]
  constructor
  · rintro ⟨-, h⟩
    exact_mod_cast Int.lt_of_le_sub_one h
  · intro h
    refine ⟨Int.natCast_nonneg v, Int.le_sub_one_of_lt ?_⟩
    exact_mod_cast h

theorem isSome_ofValue?_iff (n : Numeric) (v : Value) : (n.ofValue? v).isSome ↔ n.Takes v := by
  constructor
  · intro h
    cases v with
    | int v =>
      obtain ⟨hinteger, hsigned, hv⟩ := (ofValue?_int n v).mp h
      obtain ⟨hlow, hhigh⟩ := (holds_iff_of_signed hinteger hsigned).mp hv
      exact .signed hinteger hsigned hlow hhigh
    | uint v =>
      obtain ⟨hunsigned, hv⟩ := (ofValue?_uint n v).mp h
      exact .unsigned hunsigned ((holds_iff_of_unsigned hunsigned).mp hv)
    | float x => exact .float (by cases n <;> simp_all [ofValue?, isFloat])
    | _ => cases n <;> simp [ofValue?] at h
  · intro h
    cases h with
    | signed hinteger hsigned hlow hhigh =>
      have hv := (holds_iff_of_signed hinteger hsigned).mpr ⟨hlow, hhigh⟩
      exact (ofValue?_int n _).mpr ⟨hinteger, hsigned, hv⟩
    | unsigned hunsigned hhigh =>
      exact (ofValue?_uint n _).mpr ⟨hunsigned, (holds_iff_of_unsigned hunsigned).mpr hhigh⟩
    | float hfloat => cases n <;> simp_all [ofValue?, isFloat]

end Numeric

namespace Schema

/-- The values of a type. A type that is only declared has none. -/
inductive HasType (s : Schema) (cap : Nat) : TypeId → Value → Prop
  | bool {id : TypeId} {b : Bool} (ht : s.type id = .bool) : HasType s cap id (.bool b)
  | number {id : TypeId} {n : Numeric} {v : Value} (ht : s.type id = .numeric n) (hv : n.Takes v) :
    HasType s cap id v
  | text {id : TypeId} {wide : Bool} {t : String} (ht : s.type id = .text wide)
    (hlength : (utf8 t).length ≤ maxLength) : HasType s cap id (.text t)
  | blob {id : TypeId} {data : List UInt8} (ht : s.type id = .blob)
    (hlength : data.length ≤ maxLength) : HasType s cap id (.blob data)
  | ordinal {id : TypeId} {e : EnumType} {w : Int32} (ht : s.type id = .enumeration e)
    (hdeclared : w ∈ e.enumerators.map (·.value)) : HasType s cap id (.ordinal w)
  | record {id : TypeId} {r : RecordType} {name : String} {fields : List (String × Value)}
    (ht : s.type id = .record r) (hnames : fields.map (·.1) = r.members.map (·.name))
    (hfields : ∀ p ∈ r.members.zip fields, HasType s cap p.1.type p.2.2) :
    HasType s cap id (.record name fields)
  | sequence {id : TypeId} {q : SequenceType} {elements : List Value}
    (ht : s.type id = .sequence q) (hcap : elements.length ≤ cap)
    (hlength : elements.length ≤ maxLength)
    (helements : ∀ v ∈ elements, HasType s cap q.element v) : HasType s cap id (.sequence elements)
  | map {id : TypeId} {m : MapType} {pairs : List (Value × Value)}
    (ht : s.type id = .map m) (hcap : pairs.length ≤ cap) (hlength : pairs.length ≤ maxLength)
    (hkeys : ∀ p ∈ pairs, HasType s cap m.key p.1)
    (hvalues : ∀ p ∈ pairs, HasType s cap m.value p.2)
    (hdistinct : pairs.Pairwise fun p q =>
      (s.encode cap m.key p.1).result ≠ (s.encode cap m.key q.1).result) :
    HasType s cap id (.map pairs)

variable {s : Schema} {cap : Nat} {id : TypeId} {v : Value} {bytes : List UInt8}

theorem contains_iff {e : EnumType} {w : Int32} :
    e.contains w ↔ w ∈ e.enumerators.map (·.value) := by
  simp [EnumType.contains]

theorem hasType_of_encode (h : (s.encode cap id v).result = .ok bytes) : s.HasType cap id v := by
  refine encode_induction (P := fun id v _ => s.HasType cap id v)
    (F := fun members fields _ => ∀ p ∈ members.zip fields, s.HasType cap p.1.type p.2.2)
    (E := fun element elements _ => ∀ v ∈ elements, s.HasType cap element v)
    (M := fun key value pairs keys _ =>
      (pairs.map fun p => (s.encode cap key p.1).result) = keys.map .ok ∧
        (∀ p ∈ pairs, s.HasType cap key p.1) ∧ ∀ p ∈ pairs, s.HasType cap value p.2)
    ?bool ?number ?text ?blob ?ordinal ?record ?noFields ?field ?sequence ?noElements ?element
    ?map ?noPairs ?pair h
  case bool => exact fun ht => .bool ht
  case number =>
    intro id n v w ht _ hw
    exact .number ht ((n.isSome_ofValue?_iff v).mp (by simp [hw]))
  case text => exact fun ht hlength => .text ht hlength
  case blob => exact fun ht hlength => .blob ht hlength
  case ordinal => exact fun ht hw => .ordinal ht (contains_iff.mp hw)
  case record =>
    intro id r name fields bytes ht hfit hfields
    exact .record ht (names_of_fits hfit) hfields
  case noFields => simp
  case field =>
    intro m members v fields x y hv hfields
    rw [List.zip_cons_cons]
    exact List.forall_mem_cons.mpr ⟨hv, hfields⟩
  case sequence => exact fun ht hcap hlength helements => .sequence ht hcap hlength helements
  case noElements => simp
  case element =>
    intro element v elements x y hv helements
    exact List.forall_mem_cons.mpr ⟨hv, helements⟩
  case map =>
    rintro id m pairs keys x ht hcap hlength hnodup ⟨hforms, hkeys, hvalues⟩
    refine .map ht hcap hlength hkeys hvalues (List.pairwise_map.mp ?_)
    rw [hforms]
    exact hnodup.map fun _ _ h => Except.ok.inj h
  case noPairs => simp
  case pair =>
    rintro key value k v pairs keys x y z hx hk hv ⟨hforms, hkeys, hvalues⟩
    refine ⟨?_, List.forall_mem_cons.mpr ⟨hk, hkeys⟩, List.forall_mem_cons.mpr ⟨hv, hvalues⟩⟩
    rw [List.map_cons, List.map_cons, hx, hforms]

theorem exists_encodeFields {members : List Member} {fields : List (String × Value)}
    (hnames : fields.map (·.1) = members.map (·.name))
    (h : ∀ p ∈ members.zip fields, ∃ bytes, (s.encode cap p.1.type p.2.2).result = .ok bytes) :
    ∃ bytes, (s.encodeFields cap members fields).result = .ok bytes := by
  induction members generalizing fields with
  | nil =>
    obtain rfl : fields = [] := by simpa using hnames
    exact ⟨[], by rw [encodeFields_nil, Output.result_done]⟩
  | cons m members ih =>
    cases fields with
    | nil => simp at hnames
    | cons f fields =>
      rw [List.zip_cons_cons, List.forall_mem_cons] at h
      obtain ⟨⟨x, hx⟩, hrest⟩ := h
      obtain ⟨y, hy⟩ := ih (List.cons_eq_cons.mp hnames).2 hrest
      exact ⟨x ++ y, encodeFields_cons_eq_ok_iff.mpr ⟨x, y, hx, hy, rfl⟩⟩

theorem exists_encodeElements {element : TypeId} {elements : List Value}
    (h : ∀ v ∈ elements, ∃ bytes, (s.encode cap element v).result = .ok bytes) :
    ∃ bytes, (s.encodeElements cap element elements).result = .ok bytes := by
  induction elements with
  | nil => exact ⟨[], by rw [encodeElements_nil, Output.result_done]⟩
  | cons v elements ih =>
    obtain ⟨⟨x, hx⟩, hrest⟩ := List.forall_mem_cons.mp h
    obtain ⟨y, hy⟩ := ih hrest
    exact ⟨x ++ y, encodeElements_cons_eq_ok_iff.mpr ⟨x, y, hx, hy, rfl⟩⟩

theorem exists_encodePairs {key value : TypeId} {pairs : List (Value × Value)}
    (hkeys : ∀ p ∈ pairs, ∃ bytes, (s.encode cap key p.1).result = .ok bytes)
    (hvalues : ∀ p ∈ pairs, ∃ bytes, (s.encode cap value p.2).result = .ok bytes) :
    ∃ bytes, (s.encodePairs cap key value pairs).result = .ok bytes := by
  induction pairs with
  | nil => exact ⟨[], by rw [encodePairs_nil, Output.result_done]⟩
  | cons p pairs ih =>
    obtain ⟨⟨x, hx⟩, hkeys⟩ := List.forall_mem_cons.mp hkeys
    obtain ⟨⟨y, hy⟩, hvalues⟩ := List.forall_mem_cons.mp hvalues
    obtain ⟨z, hz⟩ := ih hkeys hvalues
    exact ⟨x ++ (y ++ z), encodePairs_cons_eq_ok_iff.mpr ⟨x, y, z, hx, hy, hz, rfl⟩⟩

theorem exists_keyForms {key : TypeId} {pairs : List (Value × Value)}
    (hkeys : ∀ p ∈ pairs, ∃ bytes, (s.encode cap key p.1).result = .ok bytes) :
    ∃ keys : List (List UInt8), s.keyForms cap key pairs = keys.map .ok ∧
      (pairs.map fun p => (s.encode cap key p.1).result) = keys.map .ok := by
  rw [keyForms_eq]
  induction pairs with
  | nil => exact ⟨[], rfl, rfl⟩
  | cons p pairs ih =>
    obtain ⟨⟨x, hx⟩, hkeys⟩ := List.forall_mem_cons.mp hkeys
    obtain ⟨keys, hforms, hresults⟩ := ih hkeys
    refine ⟨x :: keys, ?_, ?_⟩
    · rw [List.map_cons, List.map_cons, toBytes_eq_result_iff.mpr hx, hforms]
    · rw [List.map_cons, List.map_cons, hx, hresults]

/-- Keys that are encoded, each in another way, pass the check that a map makes first. -/
theorem keyFault?_eq_none (typeName : String) {key : TypeId} {pairs : List (Value × Value)}
    (hkeys : ∀ p ∈ pairs, ∃ bytes, (s.encode cap key p.1).result = .ok bytes)
    (hdistinct : pairs.Pairwise fun p q =>
      (s.encode cap key p.1).result ≠ (s.encode cap key q.1).result) :
    keyFault? typeName [] (s.keyForms cap key pairs) = none := by
  obtain ⟨keys, hforms, hresults⟩ := exists_keyForms hkeys
  have hnodup : (keys.map (Except.ok : List UInt8 → Except WireError (List UInt8))).Nodup := by
    rw [← hresults]
    exact List.pairwise_map.mpr hdistinct
  exact keyFault?_eq_none_iff.mpr ⟨keys, hforms, hnodup.of_map _, by simp⟩

theorem exists_encode_of_hasType (h : s.HasType cap id v) :
    ∃ bytes, (s.encode cap id v).result = .ok bytes := by
  induction h with
  | bool ht => exact ⟨_, encode_bool_eq_ok_iff.mpr ⟨ht, rfl⟩⟩
  | @number id n v ht hv =>
    obtain ⟨w, hw⟩ := Option.isSome_iff_exists.mp ((n.isSome_ofValue?_iff v).mpr hv)
    have hnumber := Value.isNumber_of_ofValue? hw
    exact ⟨_, (encode_number_eq_ok_iff hnumber).mpr ⟨n, w, ht, hw, rfl⟩⟩
  | text ht hlength => exact ⟨_, encode_text_eq_ok_iff.mpr ⟨_, ht, hlength, rfl⟩⟩
  | blob ht hlength => exact ⟨_, encode_blob_eq_ok_iff.mpr ⟨ht, hlength, rfl⟩⟩
  | ordinal ht hdeclared =>
    exact ⟨_, encode_ordinal_eq_ok_iff.mpr ⟨_, ht, contains_iff.mpr hdeclared, rfl⟩⟩
  | @record id r name fields ht hnames _ ih =>
    obtain ⟨x, hx⟩ := exists_encodeFields hnames ih
    have hfit : r.fits fields := by simpa [RecordType.fits] using hnames
    exact ⟨x, encode_record_eq_ok_iff.mpr ⟨r, ht, hfit, hx⟩⟩
  | sequence ht hcap hlength _ ih =>
    obtain ⟨x, hx⟩ := exists_encodeElements ih
    exact ⟨_, encode_sequence_eq_ok_iff.mpr ⟨_, x, ht, hcap, hlength, hx, rfl⟩⟩
  | @map id m pairs ht hcap hlength _ _ hdistinct ihkeys ihvalues =>
    obtain ⟨x, hx⟩ := exists_encodePairs ihkeys ihvalues
    have hfault := keyFault?_eq_none m.name.text ihkeys hdistinct
    exact ⟨_, encode_map_eq_ok_iff.mpr ⟨m, x, ht, hcap, hlength, hfault, hx, rfl⟩⟩

/-- The encoder accepts exactly the values of the type. -/
theorem encode_succeeds_iff_hasType (s : Schema) (cap : Nat) (id : TypeId) (v : Value) :
    (Sink.unbounded.drain (s.encode cap id v)).1 = .ok () ↔ s.HasType cap id v := by
  rw [Sink.drain_unbounded_ok_iff]
  constructor
  · rintro ⟨bytes, h⟩
    exact hasType_of_encode h
  · exact exists_encode_of_hasType

end Schema
end WireSchema
