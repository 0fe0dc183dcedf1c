import WireSchema.Proofs.Wire.Output
import WireSchema.Value.Encode

/-!
# When encoding succeeds

One equivalence for each form of a value: at which types it is encoded, under which conditions, and
with which bytes. Later proofs take an encoding apart with these and never open the encoder.
-/
namespace WireSchema

open Wire Schema

namespace Value

inductive IsNumber : Value → Prop
  | int (v : Int64) : IsNumber (.int v)
  | uint (v : UInt64) : IsNumber (.uint v)
  | float (x : Binary.Binary64) : IsNumber (.float x)

theorem isNumber_of_ofValue? {n : Numeric} {v : Value} {w : n.Word} (h : n.ofValue? v = some w) :
    v.IsNumber := by
  cases v with
  | int v => exact .int v
  | uint v => exact .uint v
  | float x => exact .float x
  | _ => cases n <;> simp [Numeric.ofValue?] at h

/-- Induction over values, with the parts of records, sequences and maps as members of lists. -/
@[elab_as_elim]
theorem induction {P : Value → Prop} (bool : ∀ b, P (.bool b)) (number : ∀ v, v.IsNumber → P v)
    (text : ∀ t, P (.text t)) (blob : ∀ bytes, P (.blob bytes)) (ordinal : ∀ v, P (.ordinal v))
    (record : ∀ name fields, (∀ f ∈ fields, P f.2) → P (.record name fields))
    (sequence : ∀ elements, (∀ v ∈ elements, P v) → P (.sequence elements))
    (map : ∀ pairs, (∀ p ∈ pairs, P p.1 ∧ P p.2) → P (.map pairs)) (v : Value) : P v :=
  @Value.rec P (fun fields => ∀ f ∈ fields, P f.2) (fun elements => ∀ v ∈ elements, P v)
    (fun pairs => ∀ p ∈ pairs, P p.1 ∧ P p.2) (fun f => P f.2) (fun p => P p.1 ∧ P p.2)
    bool (fun v => number _ (.int v)) (fun v => number _ (.uint v)) (fun x => number _ (.float x))
    text blob ordinal record sequence map
    (by simp) (fun _ _ h hs => List.forall_mem_cons.mpr ⟨h, hs⟩)
    (by simp) (fun _ _ h hs => List.forall_mem_cons.mpr ⟨h, hs⟩)
    (by simp) (fun _ _ h hs => List.forall_mem_cons.mpr ⟨h, hs⟩)
    (fun _ _ h => h) (fun _ _ h h' => ⟨h, h'⟩) v

end Value

namespace Schema

variable {s : Schema} {cap : Nat} {id : TypeId} {v : Value} {bytes : List UInt8}

/-- What is written for a value at a type, where the two go together. -/
inductive Encodes (s : Schema) (cap : Nat) : TypeDef → Value → Output → Prop
  | bool {b : Bool} : Encodes s cap .bool (.bool b) (.bool b)
  | number {n : Numeric} {v : Value} {w : n.Word} (hw : n.ofValue? v = some w) :
    Encodes s cap (.numeric n) v (.number n w)
  | text {wide : Bool} {t : String} : Encodes s cap (.text wide) (.text t) (.text t)
  | blob {data : List UInt8} : Encodes s cap .blob (.blob data) (.blob data)
  | ordinal {e : EnumType} {w : Int32} (hw : e.contains w) :
    Encodes s cap (.enumeration e) (.ordinal w) (.number .int32 w)
  | record {r : RecordType} {name : String} {fields : List (String × Value)}
    (hfit : r.fits fields) :
    Encodes s cap (.record r) (.record name fields) (s.encodeFields cap r.members fields)
  | sequence {q : SequenceType} {elements : List Value} (hcap : elements.length ≤ cap) :
    Encodes s cap (.sequence q) (.sequence elements)
      (.count elements.length ++ s.encodeElements cap q.element elements)
  | map {m : MapType} {pairs : List (Value × Value)} (hcap : pairs.length ≤ cap)
    (hkeys : keyFault? m.name.text [] (s.keyForms cap m.key pairs) = none) :
    Encodes s cap (.map m) (.map pairs)
      (.count pairs.length ++ s.encodePairs cap m.key m.value pairs)

theorem encode_eq_of_encodes {o : Output} (h : s.Encodes cap (s.type id) v o) :
    s.encode cap id v = o := by
  unfold encode
  generalize s.type id = type at h ⊢
  cases h with
  | bool | text | blob => rfl
  | number hw => simp only [hw]
  | ordinal hw => exact if_pos hw
  | record hfit => exact if_pos hfit
  | sequence hcap => simp only [cappedCount, if_neg (Nat.not_lt.mpr hcap)]
  | map hcap hkeys => simp only [if_neg (Nat.not_lt.mpr hcap), hkeys]

/-- Encoding succeeds only where a value and a type go together. -/
theorem encodes_of_result (h : (s.encode cap id v).result = .ok bytes) :
    s.Encodes cap (s.type id) v (s.encode cap id v) := by
  unfold encode at h ⊢
  generalize s.type id = type at h ⊢
  cases type with
  | numeric n =>
    cases hw : n.ofValue? v with
    | none => simp [hw] at h
    | some w =>
      simp only [hw]
      exact .number hw
  | bool =>
    cases v with
    | bool b => exact .bool
    | _ => simp at h
  | text wide =>
    cases v with
    | text t => exact .text
    | _ => simp at h
  | blob =>
    cases v with
    | blob data => exact .blob
    | _ => simp at h
  | enumeration e =>
    cases v with
    | ordinal w =>
      by_cases hw : e.contains w
      · simp only [if_pos hw]
        exact .ordinal hw
      · simp [hw] at h
    | _ => simp at h
  | record r =>
    cases v with
    | record name fields =>
      by_cases hfit : r.fits fields
      · simp only [if_pos hfit]
        exact .record hfit
      · simp [hfit] at h
    | _ => simp at h
  | sequence q =>
    cases v with
    | sequence elements =>
      by_cases hcap : cap < elements.length
      · simp [cappedCount, hcap, Output.result_append_eq_ok_iff] at h
      · simp only [cappedCount, if_neg hcap]
        exact .sequence (Nat.not_lt.mp hcap)
    | _ => simp at h
  | map m =>
    cases v with
    | map pairs =>
      by_cases hcap : cap < pairs.length
      · simp [hcap] at h
      · cases hkeys : keyFault? m.name.text [] (s.keyForms cap m.key pairs) with
        | some e => simp [hcap, hkeys] at h
        | none =>
          simp only [if_neg hcap, hkeys]
          exact .map (Nat.not_lt.mp hcap) hkeys
    | _ => simp at h
  | forward name => simp at h

theorem encode_eq_ok_iff :
    (s.encode cap id v).result = .ok bytes ↔
      ∃ type o, s.type id = type ∧ s.Encodes cap type v o ∧ o.result = .ok bytes := by
  constructor
  · intro h
    exact ⟨_, _, rfl, encodes_of_result h, h⟩
  · rintro ⟨_, o, rfl, ho, hbytes⟩
    rw [encode_eq_of_encodes ho]
    exact hbytes

theorem encode_bool_eq_ok_iff {b : Bool} :
    (s.encode cap id (.bool b)).result = .ok bytes ↔
      s.type id = .bool ∧ bytes = bigEndian 4 b.toNat := by
  rw [encode_eq_ok_iff]
  constructor
  · rintro ⟨_, _, ht, ho, hbytes⟩
    cases ho with
    | bool => exact ⟨ht, (Except.ok.inj hbytes).symm⟩
    | number hw => cases Value.isNumber_of_ofValue? hw
  · rintro ⟨ht, rfl⟩
    exact ⟨_, _, ht, .bool, Output.result_bool b⟩

theorem encode_number_eq_ok_iff (hv : v.IsNumber) :
    (s.encode cap id v).result = .ok bytes ↔
      ∃ n w, s.type id = .numeric n ∧ n.ofValue? v = some w ∧ bytes = n.bytes w := by
  rw [encode_eq_ok_iff]
  constructor
  · rintro ⟨_, _, ht, ho, hbytes⟩
    cases ho with
    | number hw =>
      rw [Output.result_number] at hbytes
      exact ⟨_, _, ht, hw, (Except.ok.inj hbytes).symm⟩
    | _ => cases hv
  · rintro ⟨n, w, ht, hw, rfl⟩
    exact ⟨_, _, ht, .number hw, Output.result_number n w⟩

theorem encode_text_eq_ok_iff {t : String} :
    (s.encode cap id (.text t)).result = .ok bytes ↔
      ∃ wide, s.type id = .text wide ∧ (utf8 t).length ≤ maxLength ∧ bytes = blobForm (utf8 t) := by
  rw [encode_eq_ok_iff]
  constructor
  · rintro ⟨_, _, ht, ho, hbytes⟩
    cases ho with
    | text => exact ⟨_, ht, Output.result_blob_eq_ok_iff.mp hbytes⟩
    | number hw => cases Value.isNumber_of_ofValue? hw
  · rintro ⟨wide, ht, hbytes⟩
    exact ⟨_, _, ht, .text, Output.result_blob_eq_ok_iff.mpr hbytes⟩

theorem encode_blob_eq_ok_iff {data : List UInt8} :
    (s.encode cap id (.blob data)).result = .ok bytes ↔
      s.type id = .blob ∧ data.length ≤ maxLength ∧ bytes = blobForm data := by
  rw [encode_eq_ok_iff]
  constructor
  · rintro ⟨_, _, ht, ho, hbytes⟩
    cases ho with
    | blob => exact ⟨ht, Output.result_blob_eq_ok_iff.mp hbytes⟩
    | number hw => cases Value.isNumber_of_ofValue? hw
  · rintro ⟨ht, hbytes⟩
    exact ⟨_, _, ht, .blob, Output.result_blob_eq_ok_iff.mpr hbytes⟩

theorem encode_ordinal_eq_ok_iff {w : Int32} :
    (s.encode cap id (.ordinal w)).result = .ok bytes ↔
      ∃ e, s.type id = .enumeration e ∧ e.contains w ∧ bytes = Numeric.bytes .int32 w := by
  rw [encode_eq_ok_iff]
  constructor
  · rintro ⟨_, _, ht, ho, hbytes⟩
    cases ho with
    | ordinal hw =>
      rw [Output.result_number] at hbytes
      exact ⟨_, ht, hw, (Except.ok.inj hbytes).symm⟩
    | number hw => cases Value.isNumber_of_ofValue? hw
  · rintro ⟨e, ht, hw, rfl⟩
    exact ⟨_, _, ht, .ordinal hw, Output.result_number .int32 w⟩

theorem encode_record_eq_ok_iff {name : String} {fields : List (String × Value)} :
    (s.encode cap id (.record name fields)).result = .ok bytes ↔
      ∃ r, s.type id = .record r ∧ r.fits fields ∧
        (s.encodeFields cap r.members fields).result = .ok bytes := by
  rw [encode_eq_ok_iff]
  constructor
  · rintro ⟨_, _, ht, ho, hbytes⟩
    cases ho with
    | record hfit => exact ⟨_, ht, hfit, hbytes⟩
    | number hw => cases Value.isNumber_of_ofValue? hw
  · rintro ⟨r, ht, hfit, hbytes⟩
    exact ⟨_, _, ht, .record hfit, hbytes⟩

theorem encodeRecord_eq_ok_iff {r : RecordType} :
    (s.encodeRecord cap r v).result = .ok bytes ↔
      ∃ name fields, v = .record name fields ∧ r.fits fields ∧
        (s.encodeFields cap r.members fields).result = .ok bytes := by
  unfold encodeRecord
  cases v with
  | record name fields => by_cases h : r.fits fields <;> simp [h, and_assoc]
  | _ => simp

theorem encode_sequence_eq_ok_iff {elements : List Value} :
    (s.encode cap id (.sequence elements)).result = .ok bytes ↔
      ∃ q x, s.type id = .sequence q ∧ elements.length ≤ cap ∧ elements.length ≤ maxLength ∧
        (s.encodeElements cap q.element elements).result = .ok x ∧
        bytes = bigEndian 4 elements.length ++ x := by
  rw [encode_eq_ok_iff]
  constructor
  · rintro ⟨_, _, ht, ho, hbytes⟩
    cases ho with
    | sequence hcap =>
      obtain ⟨_, x, hcount, hx, rfl⟩ := Output.result_append_eq_ok_iff.mp hbytes
      obtain ⟨hl, rfl⟩ := Output.result_count_eq_ok_iff.mp hcount
      exact ⟨_, x, ht, hcap, hl, hx, rfl⟩
    | number hw => cases Value.isNumber_of_ofValue? hw
  · rintro ⟨q, x, ht, hcap, hl, hx, rfl⟩
    have hcount := Output.result_count_eq_ok_iff.mpr ⟨hl, rfl⟩
    exact ⟨_, _, ht, .sequence hcap,
      Output.result_append_eq_ok_iff.mpr ⟨_, x, hcount, hx, rfl⟩⟩

theorem encode_map_eq_ok_iff {pairs : List (Value × Value)} :
    (s.encode cap id (.map pairs)).result = .ok bytes ↔
      ∃ m x, s.type id = .map m ∧ pairs.length ≤ cap ∧ pairs.length ≤ maxLength ∧
        keyFault? m.name.text [] (s.keyForms cap m.key pairs) = none ∧
        (s.encodePairs cap m.key m.value pairs).result = .ok x ∧
        bytes = bigEndian 4 pairs.length ++ x := by
  rw [encode_eq_ok_iff]
  constructor
  · rintro ⟨_, _, ht, ho, hbytes⟩
    cases ho with
    | map hcap hkeys =>
      obtain ⟨_, x, hcount, hx, rfl⟩ := Output.result_append_eq_ok_iff.mp hbytes
      obtain ⟨hl, rfl⟩ := Output.result_count_eq_ok_iff.mp hcount
      exact ⟨_, x, ht, hcap, hl, hkeys, hx, rfl⟩
    | number hw => cases Value.isNumber_of_ofValue? hw
  · rintro ⟨m, x, ht, hcap, hl, hkeys, hx, rfl⟩
    have hcount := Output.result_count_eq_ok_iff.mpr ⟨hl, rfl⟩
    exact ⟨_, _, ht, .map hcap hkeys,
      Output.result_append_eq_ok_iff.mpr ⟨_, x, hcount, hx, rfl⟩⟩

section ByType

variable (h : (s.encode cap id v).result = .ok bytes)
include h

theorem encode_of_bool (ht : s.type id = .bool) :
    ∃ b, v = .bool b ∧ s.encode cap id v = .bool b := by
  have ho := encodes_of_result h
  generalize s.encode cap id v = o at ho ⊢
  rw [ht] at ho
  cases ho
  exact ⟨_, rfl, rfl⟩

theorem encode_of_numeric {n : Numeric} (ht : s.type id = .numeric n) :
    ∃ w, n.ofValue? v = some w ∧ s.encode cap id v = .number n w := by
  have ho := encodes_of_result h
  generalize s.encode cap id v = o at ho ⊢
  rw [ht] at ho
  cases ho with
  | number hw => exact ⟨_, hw, rfl⟩

theorem encode_of_text {wide : Bool} (ht : s.type id = .text wide) :
    ∃ x, v = .text x ∧ s.encode cap id v = .text x := by
  have ho := encodes_of_result h
  generalize s.encode cap id v = o at ho ⊢
  rw [ht] at ho
  cases ho
  exact ⟨_, rfl, rfl⟩

theorem encode_of_blob (ht : s.type id = .blob) :
    ∃ data, v = .blob data ∧ s.encode cap id v = .blob data := by
  have ho := encodes_of_result h
  generalize s.encode cap id v = o at ho ⊢
  rw [ht] at ho
  cases ho
  exact ⟨_, rfl, rfl⟩

theorem encode_of_enumeration {e : EnumType} (ht : s.type id = .enumeration e) :
    ∃ w, v = .ordinal w ∧ s.encode cap id v = .number .int32 w := by
  have ho := encodes_of_result h
  generalize s.encode cap id v = o at ho ⊢
  rw [ht] at ho
  cases ho
  exact ⟨_, rfl, rfl⟩

theorem encode_of_sequence {q : SequenceType} (ht : s.type id = .sequence q) :
    ∃ elements, v = .sequence elements ∧
      s.encode cap id v = .count elements.length ++ s.encodeElements cap q.element elements := by
  have ho := encodes_of_result h
  generalize s.encode cap id v = o at ho ⊢
  rw [ht] at ho
  cases ho
  exact ⟨_, rfl, rfl⟩

theorem encode_of_map {m : MapType} (ht : s.type id = .map m) :
    ∃ pairs, v = .map pairs ∧
      s.encode cap id v = .count pairs.length ++ s.encodePairs cap m.key m.value pairs := by
  have ho := encodes_of_result h
  generalize s.encode cap id v = o at ho ⊢
  rw [ht] at ho
  cases ho
  exact ⟨_, rfl, rfl⟩

end ByType

theorem encodeFields_nil : s.encodeFields cap [] [] = .done := by
  unfold encodeFields
  rfl

theorem encodeFields_cons_eq_ok_iff {m : Member} {members : List Member} {name : String} {v : Value}
    {fields : List (String × Value)} :
    (s.encodeFields cap (m :: members) ((name, v) :: fields)).result = .ok bytes ↔
      ∃ x y, (s.encode cap m.type v).result = .ok x ∧
        (s.encodeFields cap members fields).result = .ok y ∧ bytes = x ++ y := by
  rw [encodeFields, Output.result_append_eq_ok_iff]

theorem encodeElements_nil {element : TypeId} : s.encodeElements cap element [] = .done := by
  rw [encodeElements]

theorem encodeElements_cons_eq_ok_iff {element : TypeId} {v : Value} {elements : List Value} :
    (s.encodeElements cap element (v :: elements)).result = .ok bytes ↔
      ∃ x y, (s.encode cap element v).result = .ok x ∧
        (s.encodeElements cap element elements).result = .ok y ∧ bytes = x ++ y := by
  rw [encodeElements, Output.result_append_eq_ok_iff]

theorem encodePairs_nil {key value : TypeId} : s.encodePairs cap key value [] = .done := by
  rw [encodePairs]

theorem encodePairs_cons_eq_ok_iff {key value : TypeId} {k v : Value}
    {pairs : List (Value × Value)} :
    (s.encodePairs cap key value ((k, v) :: pairs)).result = .ok bytes ↔
      ∃ x y z, (s.encode cap key k).result = .ok x ∧ (s.encode cap value v).result = .ok y ∧
        (s.encodePairs cap key value pairs).result = .ok z ∧ bytes = x ++ (y ++ z) := by
  rw [encodePairs, Output.result_append_eq_ok_iff]
  constructor
  · rintro ⟨_, z, hxy, hz, rfl⟩
    obtain ⟨x, y, hx, hy, rfl⟩ := Output.result_append_eq_ok_iff.mp hxy
    exact ⟨x, y, z, hx, hy, hz, List.append_assoc x y z⟩
  · rintro ⟨x, y, z, hx, hy, hz, rfl⟩
    exact ⟨x ++ y, z, Output.result_append_eq_ok_iff.mpr ⟨x, y, hx, hy, rfl⟩, hz,
      (List.append_assoc x y z).symm⟩

theorem keyForms_eq (key : TypeId) (pairs : List (Value × Value)) :
    s.keyForms cap key pairs = pairs.map fun p => s.toBytes cap key p.1 := by
  induction pairs with
  | nil => rw [keyForms, List.map_nil]
  | cons p pairs ih =>
    rw [keyForms, ih, List.map_cons]
    rfl

/-- Keys are in order if each one has a form and no form stands twice or among those seen before. -/
theorem keyFault?_eq_none_iff {typeName : String} {seen : List (List UInt8)}
    {forms : List (Except WireError (List UInt8))} :
    keyFault? typeName seen forms = none ↔
      ∃ keys : List (List UInt8), forms = keys.map .ok ∧ keys.Nodup ∧ ∀ k ∈ keys, k ∉ seen := by
  induction forms generalizing seen with
  | nil => simp [keyFault?]
  | cons form forms ih =>
    cases form with
    | error e =>
      simp only [keyFault?, reduceCtorEq, false_iff]
      rintro ⟨keys, hk, -⟩
      cases keys <;> simp at hk
    | ok key =>
      by_cases hs : key ∈ seen
      · simp only [keyFault?, if_pos hs, reduceCtorEq, false_iff]
        rintro ⟨keys, hk, -, hseen⟩
        cases keys with
        | nil => simp at hk
        | cons k keys =>
          obtain ⟨rfl, -⟩ : key = k ∧ _ := by simpa using hk
          exact hseen key List.mem_cons_self hs
      · rw [keyFault?, if_neg hs, ih]
        constructor
        · rintro ⟨keys, rfl, hn, hseen⟩
          refine ⟨key :: keys, rfl, List.nodup_cons.mpr ⟨?_, hn⟩, ?_⟩
          · exact fun hk => hseen key hk List.mem_cons_self
          · exact List.forall_mem_cons.mpr ⟨hs, fun k hk hks => hseen k hk (.tail _ hks)⟩
        · rintro ⟨keys, hk, hn, hseen⟩
          cases keys with
          | nil => simp at hk
          | cons k keys =>
            obtain ⟨rfl, rfl⟩ : key = k ∧ forms = keys.map .ok := by simpa using hk
            obtain ⟨hnot, hn⟩ := List.nodup_cons.mp hn
            refine ⟨keys, rfl, hn, fun k' hk' hmem => ?_⟩
            rcases List.mem_cons.mp hmem with rfl | hmem
            · exact hnot hk'
            · exact hseen k' (.tail _ hk') hmem

/-- The wire form of a value is what encoding it comes to, once its size is known. -/
theorem toBytes_eq_ok_iff {v : Value} :
    s.toBytes cap id v = .ok bytes ↔
      (∃ n, s.size id v = .ok n) ∧ (s.encode cap id v).result = .ok bytes := by
  unfold toBytes
  cases s.size id v <;> simp [bind, Except.bind]

theorem names_of_fits {r : RecordType} {fields : List (String × Value)} (h : r.fits fields) :
    fields.map (·.1) = r.members.map (·.name) := by
  simpa [RecordType.fits] using h

section Induction

variable {P : TypeId → Value → List UInt8 → Prop}
variable {F : List Member → List (String × Value) → List UInt8 → Prop}
variable {E : TypeId → List Value → List UInt8 → Prop}
variable {M : TypeId → TypeId → List (Value × Value) → List (List UInt8) → List UInt8 → Prop}

theorem encodeFields_induction (noFields : F [] [] [])
    (field : ∀ {m members v fields x y}, P m.type v x → F members fields y →
      F (m :: members) ((m.name, v) :: fields) (x ++ y))
    {members : List Member} {fields : List (String × Value)}
    (hP : ∀ f ∈ fields, ∀ {id bytes}, (s.encode cap id f.2).result = .ok bytes → P id f.2 bytes)
    (hnames : fields.map (·.1) = members.map (·.name))
    (h : (s.encodeFields cap members fields).result = .ok bytes) : F members fields bytes := by
  induction fields generalizing members bytes with
  | nil =>
    obtain rfl : members = [] := by simpa using hnames.symm
    rw [encodeFields_nil, Output.result_done] at h
    cases h
    exact noFields
  | cons f fields ih =>
    obtain ⟨name, v⟩ := f
    cases members with
    | nil => simp at hnames
    | cons m members =>
      obtain ⟨rfl, htail⟩ := List.cons_eq_cons.mp hnames
      obtain ⟨x, y, hx, hy, rfl⟩ := encodeFields_cons_eq_ok_iff.mp h
      have hfields := ih (fun g hg => hP g (.tail _ hg)) htail hy
      exact field (hP _ List.mem_cons_self hx) hfields

theorem encodeElements_induction {element : TypeId} (noElements : E element [] [])
    (cons : ∀ {v elements x y}, P element v x → E element elements y →
      E element (v :: elements) (x ++ y)) {elements : List Value}
    (hP : ∀ v ∈ elements, ∀ {id bytes}, (s.encode cap id v).result = .ok bytes → P id v bytes)
    (h : (s.encodeElements cap element elements).result = .ok bytes) :
    E element elements bytes := by
  induction elements generalizing bytes with
  | nil =>
    rw [encodeElements_nil, Output.result_done] at h
    cases h
    exact noElements
  | cons v elements ih =>
    obtain ⟨x, y, hx, hy, rfl⟩ := encodeElements_cons_eq_ok_iff.mp h
    have helements := ih (fun w hw => hP w (.tail _ hw)) hy
    exact cons (hP v List.mem_cons_self hx) helements

theorem encodePairs_induction {key value : TypeId} (noPairs : M key value [] [] [])
    (pair : ∀ {k v pairs keys x y z}, (s.encode cap key k).result = .ok x → P key k x →
      P value v y → M key value pairs keys z →
      M key value ((k, v) :: pairs) (x :: keys) (x ++ (y ++ z)))
    {pairs : List (Value × Value)} {keys : List (List UInt8)}
    (hP : ∀ p ∈ pairs,
      (∀ {id bytes}, (s.encode cap id p.1).result = .ok bytes → P id p.1 bytes) ∧
      ∀ {id bytes}, (s.encode cap id p.2).result = .ok bytes → P id p.2 bytes)
    (hkeys : (pairs.map fun p => s.toBytes cap key p.1) = keys.map .ok)
    (h : (s.encodePairs cap key value pairs).result = .ok bytes) :
    M key value pairs keys bytes := by
  induction pairs generalizing keys bytes with
  | nil =>
    obtain rfl : keys = [] := by simpa using hkeys.symm
    rw [encodePairs_nil, Output.result_done] at h
    cases h
    exact noPairs
  | cons p pairs ih =>
    obtain ⟨k, v⟩ := p
    obtain ⟨x, y, z, hx, hy, hz, rfl⟩ := encodePairs_cons_eq_ok_iff.mp h
    cases keys with
    | nil => simp at hkeys
    | cons form keys =>
      obtain ⟨hform, htail⟩ := List.cons_eq_cons.mp hkeys
      obtain rfl : x = form := Except.ok.inj (hx.symm.trans (toBytes_eq_ok_iff.mp hform).2)
      have hpairs := ih (fun q hq => hP q (.tail _ hq)) htail hz
      exact pair hx ((hP _ List.mem_cons_self).1 hx) ((hP _ List.mem_cons_self).2 hy) hpairs

/-- Induction over a value that was encoded: `P` is to hold of each value and its bytes, `F` of the
fields of a record, `E` of the elements of a sequence, and `M` of the pairs of a map, the forms of
their keys and their bytes. -/
theorem encode_induction
    (bool : ∀ {id b}, s.type id = .bool → P id (.bool b) (bigEndian 4 b.toNat))
    (number : ∀ {id n v w}, s.type id = .numeric n → v.IsNumber → n.ofValue? v = some w →
      P id v (n.bytes w))
    (text : ∀ {id wide t}, s.type id = .text wide → (utf8 t).length ≤ maxLength →
      P id (.text t) (blobForm (utf8 t)))
    (blob : ∀ {id data}, s.type id = .blob → data.length ≤ maxLength →
      P id (.blob data) (blobForm data))
    (ordinal : ∀ {id e v}, s.type id = .enumeration e → e.contains v →
      P id (.ordinal v) (Numeric.bytes .int32 v))
    (record : ∀ {id r name fields bytes}, s.type id = .record r → r.fits fields →
      F r.members fields bytes → P id (.record name fields) bytes)
    (noFields : F [] [] [])
    (field : ∀ {m members v fields x y}, P m.type v x → F members fields y →
      F (m :: members) ((m.name, v) :: fields) (x ++ y))
    (sequence : ∀ {id q elements x}, s.type id = .sequence q → elements.length ≤ cap →
      elements.length ≤ maxLength → E q.element elements x →
      P id (.sequence elements) (bigEndian 4 elements.length ++ x))
    (noElements : ∀ {element}, E element [] [])
    (element : ∀ {element v elements x y}, P element v x → E element elements y →
      E element (v :: elements) (x ++ y))
    (map : ∀ {id m pairs keys x}, s.type id = .map m → pairs.length ≤ cap →
      pairs.length ≤ maxLength → keys.Nodup → M m.key m.value pairs keys x →
      P id (.map pairs) (bigEndian 4 pairs.length ++ x))
    (noPairs : ∀ {key value}, M key value [] [] [])
    (pair : ∀ {key value k v pairs keys x y z}, (s.encode cap key k).result = .ok x →
      P key k x → P value v y → M key value pairs keys z →
      M key value ((k, v) :: pairs) (x :: keys) (x ++ (y ++ z)))
    {v : Value} (h : (s.encode cap id v).result = .ok bytes) : P id v bytes := by
  induction v using Value.induction generalizing id bytes with
  | bool b =>
    obtain ⟨ht, rfl⟩ := encode_bool_eq_ok_iff.mp h
    exact bool ht
  | number v hv =>
    obtain ⟨n, w, ht, hw, rfl⟩ := (encode_number_eq_ok_iff hv).mp h
    exact number ht hv hw
  | text t =>
    obtain ⟨wide, ht, hl, rfl⟩ := encode_text_eq_ok_iff.mp h
    exact text ht hl
  | blob data =>
    obtain ⟨ht, hl, rfl⟩ := encode_blob_eq_ok_iff.mp h
    exact blob ht hl
  | ordinal v =>
    obtain ⟨e, ht, hv, rfl⟩ := encode_ordinal_eq_ok_iff.mp h
    exact ordinal ht hv
  | record name fields ih =>
    obtain ⟨r, ht, hfit, hb⟩ := encode_record_eq_ok_iff.mp h
    exact record ht hfit (encodeFields_induction noFields field ih (names_of_fits hfit) hb)
  | sequence elements ih =>
    obtain ⟨q, x, ht, hcap, hl, hx, rfl⟩ := encode_sequence_eq_ok_iff.mp h
    exact sequence ht hcap hl (encodeElements_induction noElements element ih hx)
  | map pairs ih =>
    obtain ⟨m, x, ht, hcap, hl, hfault, hx, rfl⟩ := encode_map_eq_ok_iff.mp h
    obtain ⟨keys, hkeys, hnodup, -⟩ := keyFault?_eq_none_iff.mp hfault
    rw [keyForms_eq] at hkeys
    exact map ht hcap hl hnodup (encodePairs_induction noPairs pair ih hkeys hx)

end Induction

end Schema
end WireSchema
