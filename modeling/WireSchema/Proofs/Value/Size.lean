import WireSchema.Proofs.Value.Encode

/-!
# Sizes are lengths

The size of a value is computed from its shape alone, and it is the number of bytes that encoding
the value comes to. So finding the size first never stands in the way of an encoding.
-/
namespace WireSchema.Schema

open Wire

variable {s : Schema} {cap : Nat} {id : TypeId} {v : Value} {bytes : List UInt8}

theorem sizeFields_nil : s.sizeFields [] [] = .ok 0 := by
  unfold sizeFields
  rfl

theorem sizeFields_cons {m : Member} {members : List Member} {name : String}
    {fields : List (String × Value)} {a b : Nat} (hv : s.size m.type v = .ok a)
    (hfields : s.sizeFields members fields = .ok b) :
    s.sizeFields (m :: members) ((name, v) :: fields) = .ok (a + b) := by
  rw [sizeFields, hv, hfields]
  rfl

theorem sizeElements_nil (element : TypeId) : s.sizeElements element [] = .ok 0 := by
  rw [sizeElements]
  rfl

theorem sizeElements_cons {element : TypeId} {elements : List Value} {a b : Nat}
    (hv : s.size element v = .ok a) (helements : s.sizeElements element elements = .ok b) :
    s.sizeElements element (v :: elements) = .ok (a + b) := by
  rw [sizeElements, hv, helements]
  rfl

theorem sizePairs_nil (key value : TypeId) : s.sizePairs key value [] = .ok 0 := by
  rw [sizePairs]
  rfl

theorem sizePairs_cons {key value : TypeId} {k : Value} {pairs : List (Value × Value)} {a b c : Nat}
    (hk : s.size key k = .ok a) (hv : s.size value v = .ok b)
    (hpairs : s.sizePairs key value pairs = .ok c) :
    s.sizePairs key value ((k, v) :: pairs) = .ok (a + (b + c)) := by
  rw [sizePairs, hk, hv, hpairs, ← Nat.add_assoc]
  rfl

theorem size_of_encode (h : (s.encode cap id v).result = .ok bytes) :
    s.size id v = .ok bytes.length := by
  refine encode_induction (P := fun id v bytes => s.size id v = .ok bytes.length)
    (F := fun members fields bytes => s.sizeFields members fields = .ok bytes.length)
    (E := fun element elements bytes => s.sizeElements element elements = .ok bytes.length)
    (M := fun key value pairs _ bytes => s.sizePairs key value pairs = .ok bytes.length)
    ?bool ?number ?text ?blob ?ordinal ?record ?noFields ?field ?sequence ?noElements ?element
    ?map ?noPairs ?pair h
  case bool =>
    intro id b ht
    unfold size
    rw [ht, length_bigEndian]
    rfl
  case number =>
    intro id n v w ht hv _
    unfold size
    rw [ht, n.length_bytes]
    cases hv <;> rfl
  case text =>
    intro id wide t ht hl
    unfold size
    rw [ht, length_blobForm, ← blobSize_eq hl]
    rfl
  case blob =>
    intro id data ht hl
    unfold size
    rw [ht, length_blobForm, ← blobSize_eq hl]
    rfl
  case ordinal =>
    intro id e v ht _
    unfold size
    rw [ht, Numeric.length_bytes]
    rfl
  case record =>
    intro id r name fields bytes ht hfit hfields
    unfold size
    rw [ht]
    simpa only [if_pos hfit] using hfields
  case noFields => exact sizeFields_nil
  case field =>
    intro m members v fields x y hv hfields
    rw [List.length_append, sizeFields_cons hv hfields]
  case sequence =>
    intro id q elements x ht _ _ helements
    unfold size
    rw [ht, List.length_append, length_bigEndian]
    simp only [helements]
    rfl
  case noElements => exact fun {element} => sizeElements_nil element
  case element =>
    intro element v elements x y hv helements
    rw [List.length_append, sizeElements_cons hv helements]
  case map =>
    intro id m pairs keys x ht _ _ _ hpairs
    unfold size
    rw [ht, List.length_append, length_bigEndian]
    simp only [hpairs]
    rfl
  case noPairs => exact fun {key value} => sizePairs_nil key value
  case pair =>
    intro key value k v pairs keys x y z _ hk hv hpairs
    rw [List.length_append, List.length_append, sizePairs_cons hk hv hpairs]

theorem sizeRecord_of_encodeRecord {r : RecordType}
    (h : (s.encodeRecord cap r v).result = .ok bytes) : s.sizeRecord r v = .ok bytes.length := by
  obtain ⟨name, fields, rfl, hfit, hb⟩ := encodeRecord_eq_ok_iff.mp h
  rw [sizeRecord, if_pos hfit]
  refine encodeFields_induction (P := fun id v bytes => s.size id v = .ok bytes.length)
    (F := fun members fields bytes => s.sizeFields members fields = .ok bytes.length)
    sizeFields_nil ?field (fun f _ => size_of_encode) (names_of_fits hfit) hb
  intro m members v fields x y hv hfields
  rw [List.length_append, sizeFields_cons hv hfields]

theorem toBytes_eq_result_iff :
    s.toBytes cap id v = .ok bytes ↔ (s.encode cap id v).result = .ok bytes := by
  rw [toBytes_eq_ok_iff]
  exact ⟨And.right, fun h => ⟨⟨_, size_of_encode h⟩, h⟩⟩

theorem recordToBytes_eq_result_iff {r : RecordType} :
    s.recordToBytes cap r v = .ok bytes ↔ (s.encodeRecord cap r v).result = .ok bytes := by
  unfold recordToBytes
  constructor
  · intro h
    cases hsize : s.sizeRecord r v with
    | error e => simp [hsize, bind, Except.bind] at h
    | ok n => simpa [hsize, bind, Except.bind] using h
  · intro h
    rw [sizeRecord_of_encodeRecord h]
    exact h

/-- Reports of a weather station, with a title and readings by name. -/
def station : Schema where
  types := #[.numeric .float32, .text false,
    .map { name := .top "Readings", key := ⟨1⟩, value := ⟨0⟩ },
    .record { name := .top "Report", kind := .plain
              members := [⟨"title", ⟨1⟩⟩, ⟨"readings", ⟨2⟩⟩] }]
  modules := []

/-- A report with the reading `0.1`, which no single is equal to. -/
def report : Value :=
  .record "" [("title", .text "June\n"),
    ("readings", .map [(.text "x", .float ⟨0x3FB999999999999A⟩)])]

def reportBytes : List UInt8 :=
  [0, 0, 0, 5, 74, 117, 110, 101, 10, 0, 0, 0, 0, 0, 0, 1, 0, 0, 0, 1, 120, 0, 0, 0,
    61, 204, 204, 205]

/-- What is written to an unbounded sink has the size of what is then stored. So finding the size
first, as `toBytes` does, neither prevents an encoding nor changes it. -/
theorem written_length_eq_size (s : Schema) (cap : Nat) (v : Value) (bytes : List UInt8) :
    (∀ id : TypeId,
      (Sink.unbounded.drain (s.encode cap id v) = (.ok (), ⟨none, bytes⟩) →
        s.size id v = .ok bytes.length) ∧
      (s.toBytes cap id v = .ok bytes ↔
        Sink.unbounded.drain (s.encode cap id v) = (.ok (), ⟨none, bytes⟩))) ∧
    ∀ r : RecordType,
      (Sink.unbounded.drain (s.encodeRecord cap r v) = (.ok (), ⟨none, bytes⟩) →
        s.sizeRecord r v = .ok bytes.length) ∧
      (s.recordToBytes cap r v = .ok bytes ↔
        Sink.unbounded.drain (s.encodeRecord cap r v) = (.ok (), ⟨none, bytes⟩)) := by
  simp only [Sink.drain_unbounded_eq_ok_iff]
  refine ⟨fun id => ⟨size_of_encode, toBytes_eq_result_iff⟩, fun r => ?_⟩
  exact ⟨sizeRecord_of_encodeRecord, recordToBytes_eq_result_iff⟩

theorem written_length_eq_size_report :
    Sink.unbounded.drain (station.encode 8 ⟨3⟩ report) = (.ok (), ⟨none, reportBytes⟩) ∧
      station.size ⟨3⟩ report = .ok 28 ∧ station.toBytes 8 ⟨3⟩ report = .ok reportBytes := by
  have hwritten : Sink.unbounded.drain (station.encode 8 ⟨3⟩ report) =
      (.ok (), ⟨none, reportBytes⟩) := by decide +kernel
  obtain ⟨hsize, hbytes⟩ := (written_length_eq_size station 8 report reportBytes).1 ⟨3⟩
  exact ⟨hwritten, hsize hwritten, hbytes.mpr hwritten⟩

end WireSchema.Schema
