import WireSchema.Proofs.Value.FixedPoint
import WireSchema.Proofs.Value.Number
import WireSchema.Proofs.Value.Size

/-!
# Decoding what was encoded

Decoding gives back what was encoded, up to two things that an encoding does not hold: the name that
a record value carries, and the precision that a number loses when it is written as a single.
-/
namespace WireSchema.Schema

open Wire

variable (s : Schema)

mutual

/-- What remains of a value when it is encoded and decoded: records have the names of their types,
and numbers at single precision are rounded. -/
def normalize (id : TypeId) (v : Value) : Value :=
  match s.type id, v with
  | .numeric n, v => n.normalize v
  | .record r, .record _ fields => .record r.name.text (normalizeFields r.members fields)
  | .sequence q, .sequence elements => .sequence (normalizeElements q.element elements)
  | .map m, .map pairs => .map (normalizePairs m.key m.value pairs)
  | _, v => v

def normalizeFields : List Member → List (String × Value) → List (String × Value)
  | m :: members, (name, v) :: fields =>
    (name, normalize m.type v) :: normalizeFields members fields
  | _, fields => fields

def normalizeElements (element : TypeId) : List Value → List Value
  | [] => []
  | v :: elements => normalize element v :: normalizeElements element elements

def normalizePairs (key value : TypeId) : List (Value × Value) → List (Value × Value)
  | [] => []
  | (k, v) :: pairs => (normalize key k, normalize value v) :: normalizePairs key value pairs

end

def normalizeRecord (r : RecordType) : Value → Value
  | .record _ fields => .record r.name.text (s.normalizeFields r.members fields)
  | v => v

variable {s} {cap : Nat} {id : TypeId} {v : Value} {bytes : List UInt8}

theorem normalize_eq_self {type : TypeDef} (ht : s.type id = type)
    (hcompound : type.isCompound = false) (hnumeric : ∀ n, type ≠ .numeric n) :
    s.normalize id v = v := by
  unfold normalize
  rw [ht]
  cases type with
  | numeric n => exact absurd rfl (hnumeric n)
  | record r | sequence q | map m => simp [TypeDef.isCompound] at hcompound
  | _ => rfl

theorem normalize_numeric {n : Numeric} (ht : s.type id = .numeric n) :
    s.normalize id v = n.normalize v := by
  unfold normalize
  rw [ht]

theorem normalize_record {r : RecordType} {name : String} {fields : List (String × Value)}
    (ht : s.type id = .record r) :
    s.normalize id (.record name fields) =
      .record r.name.text (s.normalizeFields r.members fields) := by
  unfold normalize
  rw [ht]

theorem normalize_sequence {q : SequenceType} {elements : List Value}
    (ht : s.type id = .sequence q) :
    s.normalize id (.sequence elements) = .sequence (s.normalizeElements q.element elements) := by
  unfold normalize
  rw [ht]

theorem normalize_map {m : MapType} {pairs : List (Value × Value)} (ht : s.type id = .map m) :
    s.normalize id (.map pairs) = .map (s.normalizePairs m.key m.value pairs) := by
  unfold normalize
  rw [ht]

theorem normalizeFields_nil : s.normalizeFields [] [] = [] := by
  unfold normalizeFields
  rfl

theorem normalizeFields_cons {m : Member} {members : List Member} {name : String}
    {fields : List (String × Value)} :
    s.normalizeFields (m :: members) ((name, v) :: fields) =
      (name, s.normalize m.type v) :: s.normalizeFields members fields := by
  rw [normalizeFields]

theorem normalizeElements_eq (element : TypeId) (elements : List Value) :
    s.normalizeElements element elements = elements.map (s.normalize element) := by
  induction elements with
  | nil => rw [normalizeElements, List.map_nil]
  | cons v elements ih => rw [normalizeElements, ih, List.map_cons]

theorem normalizePairs_eq (key value : TypeId) (pairs : List (Value × Value)) :
    s.normalizePairs key value pairs =
      pairs.map fun p => (s.normalize key p.1, s.normalize value p.2) := by
  induction pairs with
  | nil => rw [normalizePairs, List.map_nil]
  | cons p pairs ih => rw [normalizePairs, ih, List.map_cons]

theorem names_normalizeFields (members : List Member) (fields : List (String × Value)) :
    (s.normalizeFields members fields).map (·.1) = fields.map (·.1) := by
  induction fields generalizing members with
  | nil => cases members <;> simp [normalizeFields]
  | cons f fields ih =>
    cases members with
    | nil => simp [normalizeFields]
    | cons m members => simp [normalizeFields, ih]

theorem fits_normalizeFields {r : RecordType} {fields : List (String × Value)}
    (h : r.fits fields) : r.fits (s.normalizeFields r.members fields) := by
  rwa [RecordType.fits, names_normalizeFields]

theorem isNumber_toValue (n : Numeric) (w : n.Word) : (n.toValue w).IsNumber := by
  cases n <;> constructor

theorem encode_normalize (h : (s.encode cap id v).result = .ok bytes) :
    (s.encode cap id (s.normalize id v)).result = .ok bytes := by
  refine encode_induction
    (P := fun id v bytes => (s.encode cap id (s.normalize id v)).result = .ok bytes)
    (F := fun members fields bytes =>
      (s.encodeFields cap members (s.normalizeFields members fields)).result = .ok bytes)
    (E := fun element elements bytes =>
      (s.encodeElements cap element (elements.map (s.normalize element))).result = .ok bytes)
    (M := fun key value pairs keys bytes =>
      (s.encodePairs cap key value (s.normalizePairs key value pairs)).result = .ok bytes ∧
        s.keyForms cap key (s.normalizePairs key value pairs) = keys.map .ok)
    ?bool ?number ?text ?blob ?ordinal ?record ?noFields ?field ?sequence ?noElements ?element
    ?map ?noPairs ?pair h
  case bool =>
    intro id b ht
    rw [normalize_eq_self ht rfl nofun]
    exact encode_bool_eq_ok_iff.mpr ⟨ht, rfl⟩
  case number =>
    intro id n v w ht _ hw
    have hw' : n.ofValue? (n.toValue w) = some w := by
      rw [n.ofValue?_toValue, Numeric.recode_of_ofValue? hw]
    rw [normalize_numeric ht, ← Numeric.toValue_of_ofValue? hw]
    exact (encode_number_eq_ok_iff (isNumber_toValue n w)).mpr ⟨n, w, ht, hw', rfl⟩
  case text =>
    intro id wide t ht hl
    rw [normalize_eq_self ht rfl nofun]
    exact encode_text_eq_ok_iff.mpr ⟨wide, ht, hl, rfl⟩
  case blob =>
    intro id data ht hl
    rw [normalize_eq_self ht rfl nofun]
    exact encode_blob_eq_ok_iff.mpr ⟨ht, hl, rfl⟩
  case ordinal =>
    intro id e v ht hv
    rw [normalize_eq_self ht rfl nofun]
    exact encode_ordinal_eq_ok_iff.mpr ⟨e, ht, hv, rfl⟩
  case record =>
    intro id r name fields bytes ht hfit hfields
    rw [normalize_record ht]
    exact encode_record_eq_ok_iff.mpr ⟨r, ht, fits_normalizeFields hfit, hfields⟩
  case noFields =>
    rw [normalizeFields_nil, encodeFields_nil]
    rfl
  case field =>
    intro m members v fields x y hv hfields
    rw [normalizeFields_cons]
    exact encodeFields_cons_eq_ok_iff.mpr ⟨x, y, hv, hfields, rfl⟩
  case sequence =>
    intro id q elements x ht hcap hl helements
    rw [normalize_sequence ht, normalizeElements_eq]
    exact encode_sequence_eq_ok_iff.mpr ⟨q, x, ht, by simpa using hcap, by simpa using hl,
      helements, by simp⟩
  case noElements =>
    intro element
    rw [List.map_nil, encodeElements_nil]
    rfl
  case element =>
    intro element v elements x y hv helements
    exact encodeElements_cons_eq_ok_iff.mpr ⟨x, y, hv, helements, rfl⟩
  case map =>
    rintro id m pairs keys x ht hcap hl hnodup ⟨hpairs, hkeys⟩
    have hlen : (s.normalizePairs m.key m.value pairs).length = pairs.length := by
      rw [normalizePairs_eq, List.length_map]
    have hfault : keyFault? m.name.text []
        (s.keyForms cap m.key (s.normalizePairs m.key m.value pairs)) = none :=
      keyFault?_eq_none_iff.mpr ⟨keys, hkeys, hnodup, by simp⟩
    rw [normalize_map ht, ← hlen]
    exact encode_map_eq_ok_iff.mpr ⟨m, x, ht, hlen ▸ hcap, hlen ▸ hl, hfault, hpairs, rfl⟩
  case noPairs =>
    intro key value
    rw [normalizePairs, encodePairs_nil, keyForms]
    exact ⟨rfl, rfl⟩
  case pair =>
    rintro key value k v pairs keys x y z _ hk hv ⟨hpairs, hkeys⟩
    rw [normalizePairs]
    refine ⟨encodePairs_cons_eq_ok_iff.mpr ⟨x, y, z, hk, hv, hpairs, rfl⟩, ?_⟩
    rw [keyForms, hkeys, List.map_cons]
    exact congrArg (· :: _) (toBytes_eq_result_iff.mpr hk)

theorem reads_decodeMembers_nil (part : TypeId → Decoder Value) :
    (decodeMembers part []).Reads [] [] := by
  unfold decodeMembers
  rw [List.mapM_nil]
  exact Decoder.Reads.pure []

theorem reads_decodeMembers_cons {part : TypeId → Decoder Value} {m : Member}
    {members : List Member} {fields : List (String × Value)} {x y : List UInt8}
    (hv : (part m.type).Reads x v) (hfields : (decodeMembers part members).Reads y fields) :
    (decodeMembers part (m :: members)).Reads (x ++ y) ((m.name, v) :: fields) := by
  unfold decodeMembers at hfields ⊢
  rw [List.mapM_cons]
  exact (hv.map (m.name, ·)).bind (hfields.map ((m.name, v) :: ·))

/-- Pairs are read back if their keys have forms that were not seen before. -/
theorem reads_decodePairs_succ {typeName : String} {keyForm : Value → Except WireError (List UInt8)}
    {key value : Decoder Value} {n : Nat} {seen : List (List UInt8)} {done : List (Value × Value)}
    {k : Value} {pairs : List (Value × Value)} {form x y z : List UInt8} (hk : key.Reads x k)
    (hform : keyForm k = .ok form) (hseen : form ∉ seen) (hv : value.Reads y v)
    (hpairs : (decodePairs typeName keyForm key value n (form :: seen) ((k, v) :: done)).Reads z
      pairs) :
    (decodePairs typeName keyForm key value (n + 1) seen done).Reads (x ++ (y ++ z)) pairs := by
  refine hk.bind ?_
  simp only [hform, if_neg hseen]
  exact hv.bind hpairs

theorem reads_decode (h : (s.encode cap id v).result = .ok bytes) :
    (s.decode cap id).Reads bytes (s.normalize id v) := by
  refine encode_induction (P := fun id v bytes => (s.decode cap id).Reads bytes (s.normalize id v))
    (F := fun members fields bytes =>
      (decodeMembers (s.decode cap) members).Reads bytes (s.normalizeFields members fields))
    (E := fun element elements bytes =>
      ∀ done, ((s.decode cap element).repeatInto elements.length done).Reads bytes
        (done.reverse ++ elements.map (s.normalize element)))
    (M := fun key value pairs keys bytes => keys.Nodup →
      ∀ typeName seen done, (∀ k ∈ keys, k ∉ seen) →
        (decodePairs typeName (s.toBytes cap key) (s.decode cap key) (s.decode cap value)
          pairs.length seen done).Reads bytes (done.reverse ++ s.normalizePairs key value pairs))
    ?bool ?number ?text ?blob ?ordinal ?record ?noFields ?field ?sequence ?noElements ?element
    ?map ?noPairs ?pair h
  case bool =>
    intro id b ht
    rw [normalize_eq_self ht rfl nofun, decode_eq, decodeWith, ht]
    exact (Decoder.reads_bool b).map Value.bool
  case number =>
    intro id n v w ht _ hw
    rw [normalize_numeric ht, ← Numeric.toValue_of_ofValue? hw, decode_eq, decodeWith, ht]
    exact (Decoder.reads_number n w).map n.toValue
  case text =>
    intro id wide t ht hl
    rw [normalize_eq_self ht rfl nofun, decode_eq, decodeWith, ht]
    exact (Decoder.reads_text hl).map Value.text
  case blob =>
    intro id data ht hl
    rw [normalize_eq_self ht rfl nofun, decode_eq, decodeWith, ht]
    exact (Decoder.reads_blob hl).map Value.blob
  case ordinal =>
    intro id e v ht hv
    rw [normalize_eq_self ht rfl nofun, decode_eq, decodeWith, ht]
    refine (Decoder.reads_number .int32 v).bind_nil ?_
    rw [if_pos hv]
    exact Decoder.Reads.pure _
  case record =>
    intro id r name fields bytes ht _ hfields
    rw [normalize_record ht, decode_eq, decodeWith, ht]
    exact hfields.map (Value.record r.name.text)
  case noFields =>
    rw [normalizeFields_nil]
    exact reads_decodeMembers_nil _
  case field =>
    intro m members v fields x y hv hfields
    rw [normalizeFields_cons]
    exact reads_decodeMembers_cons hv hfields
  case sequence =>
    intro id q elements x ht hcap hl helements
    rw [normalize_sequence ht, normalizeElements_eq, decode_eq, decodeWith, ht]
    exact (Decoder.reads_count hcap hl).bind ((helements []).map Value.sequence)
  case noElements =>
    intro element done
    rw [List.map_nil, List.append_nil]
    exact Decoder.Reads.pure done.reverse
  case element =>
    intro element v elements x y hv helements done
    have hrest := helements (s.normalize element v :: done)
    rw [List.reverse_cons, List.append_assoc, List.singleton_append, ← List.map_cons] at hrest
    exact hv.bind hrest
  case map =>
    intro id m pairs keys x ht hcap hl hnodup hpairs
    rw [normalize_map ht, decode_eq, decodeWith, ht]
    have hread := hpairs hnodup m.name.text [] [] (by simp)
    exact (Decoder.reads_count hcap hl).bind (hread.map Value.map)
  case noPairs =>
    intro key value _ typeName seen done _
    rw [normalizePairs, List.append_nil]
    exact Decoder.Reads.pure done.reverse
  case pair =>
    intro key value k v pairs keys x y z hx hk hv hpairs hnodup typeName seen done hseen
    obtain ⟨hnot, hnodup⟩ := List.nodup_cons.mp hnodup
    have hform : s.toBytes cap key (s.normalize key k) = .ok x :=
      toBytes_eq_result_iff.mpr (encode_normalize hx)
    have hfresh : ∀ k ∈ keys, k ∉ x :: seen := by
      intro form hmem hin
      rcases List.mem_cons.mp hin with rfl | hin
      · exact hnot hmem
      · exact hseen form (.tail _ hmem) hin
    have hrest := hpairs hnodup typeName (x :: seen)
      ((s.normalize key k, s.normalize value v) :: done) hfresh
    rw [List.reverse_cons, List.append_assoc, List.singleton_append, ← normalizePairs] at hrest
    exact reads_decodePairs_succ hk hform (hseen x List.mem_cons_self) hv hrest

theorem reads_decodeRecord {r : RecordType} (h : (s.encodeRecord cap r v).result = .ok bytes) :
    (s.decodeRecord cap r).Reads bytes (s.normalizeRecord r v) := by
  obtain ⟨name, fields, rfl, hfit, hb⟩ := encodeRecord_eq_ok_iff.mp h
  have hfields : (decodeMembers (s.decode cap) r.members).Reads bytes
      (s.normalizeFields r.members fields) := by
    refine encodeFields_induction
      (P := fun id v bytes => (s.decode cap id).Reads bytes (s.normalize id v))
      (F := fun members fields bytes =>
        (decodeMembers (s.decode cap) members).Reads bytes (s.normalizeFields members fields))
      ?noFields ?field (fun f _ => reads_decode) (names_of_fits hfit) hb
    case noFields =>
      rw [normalizeFields_nil]
      exact reads_decodeMembers_nil _
    case field =>
      intro m members v fields x y hv hfields
      rw [normalizeFields_cons]
      exact reads_decodeMembers_cons hv hfields
  exact hfields.map (Value.record r.name.text)

/-- Decoding what was written gives back the value in its normal form and leaves what follows it,
for the types of the table and for records beside it. -/
theorem decode_written (s : Schema) (cap : Nat) (v : Value) (bytes rest : List UInt8) :
    (∀ id : TypeId, Sink.unbounded.drain (s.encode cap id v) = (.ok (), ⟨none, bytes⟩) →
      s.decode cap id (bytes ++ rest) = (.ok (s.normalize id v), rest)) ∧
    ∀ r : RecordType, Sink.unbounded.drain (s.encodeRecord cap r v) = (.ok (), ⟨none, bytes⟩) →
      s.decodeRecord cap r (bytes ++ rest) = (.ok (s.normalizeRecord r v), rest) := by
  simp only [Sink.drain_unbounded_eq_ok_iff]
  exact ⟨fun id h => reads_decode h rest, fun r h => reads_decodeRecord h rest⟩

theorem decode_written_report :
    Sink.unbounded.drain (station.encode 8 ⟨3⟩ report) = (.ok (), ⟨none, reportBytes⟩) ∧
      station.decode 8 ⟨3⟩ (reportBytes ++ [7]) = (.ok (station.normalize ⟨3⟩ report), [7]) := by
  have hwritten : Sink.unbounded.drain (station.encode 8 ⟨3⟩ report) =
      (.ok (), ⟨none, reportBytes⟩) := by decide +kernel
  exact ⟨hwritten, (decode_written station 8 report reportBytes [7]).1 ⟨3⟩ hwritten⟩

end WireSchema.Schema
