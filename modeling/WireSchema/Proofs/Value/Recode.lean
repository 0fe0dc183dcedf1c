import WireSchema.Proofs.Value.RoundTrip

/-!
# Encoding what was decoded

Decoding accepts more than encoding produces: any word but zero is a true value, padding may hold
anything, and a single need not be a quiet not-a-number. Apart from these, what was decoded is
encoded as the bytes it was decoded from. The layout of a value says where in its bytes they stand.
-/
namespace WireSchema

open Wire

/-- What a stretch of bytes stands for, as far as it may have several forms. -/
inductive Stretch where
  | truth
  | padding
  | single
  | plain
deriving DecidableEq, Repr

namespace Stretch

/-- Whether the bytes are as they are written: a truth value is zero or one, padding is zero, and a
single is a number. -/
def IsWritten : Stretch → List UInt8 → Prop
  | .truth, bytes => ofBigEndian bytes ≤ 1
  | .padding, bytes => ∀ b ∈ bytes, b = 0
  | .single, bytes => ¬ Numeric.IsSingleNaN .float32 (Numeric.ofBits .float32 (ofBigEndian bytes))
  | .plain, _ => True

def ofNumeric : Numeric → Stretch
  | .float32 => .single
  | _ => .plain

end Stretch

/-- Stretches that follow each other, with their lengths. -/
abbrev Layout := List (Stretch × Nat)

namespace Layout

def total (l : Layout) : Nat := (l.map (·.2)).sum

def IsWritten : Layout → List UInt8 → Prop
  | [], _ => True
  | (stretch, n) :: l, bytes => stretch.IsWritten (bytes.take n) ∧ IsWritten l (bytes.drop n)

/-- A length, that many bytes and their padding. -/
def blob (n : Nat) : Layout := [(.plain, 4 + n), (.padding, paddingAfter n)]

theorem isWritten_append {l l' : Layout} {c c' : List UInt8} (h : l.total = c.length) :
    IsWritten (l ++ l') (c ++ c') ↔ l.IsWritten c ∧ l'.IsWritten c' := by
  induction l generalizing c with
  | nil =>
    obtain rfl : c = [] := List.length_eq_zero_iff.mp h.symm
    simp [IsWritten]
  | cons part l ih =>
    obtain ⟨stretch, n⟩ := part
    have hsum : n + total l = c.length := by simpa [total] using h
    have htake : (c ++ c').take n = c.take n := List.take_append_of_le_length (by omega)
    have hdrop : (c ++ c').drop n = c.drop n ++ c' := List.drop_append_of_le_length (by omega)
    have hrest : total l = (c.drop n).length := by
      rw [List.length_drop]
      omega
    rw [List.cons_append, IsWritten, IsWritten, htake, hdrop, ih hrest, and_assoc]

/-- The bytes `w` take the place of `c`: they are as many, and the same if `c` is as it is written.
-/
structure Recodes (l : Layout) (c w : List UInt8) : Prop where
  total : l.total = c.length
  length : w.length = c.length
  eq : l.IsWritten c → w = c

namespace Recodes

theorem nil : Recodes [] [] [] := ⟨rfl, rfl, fun _ => rfl⟩

theorem append {l l' : Layout} {c c' w w' : List UInt8} (h : l.Recodes c w)
    (h' : l'.Recodes c' w') : Recodes (l ++ l') (c ++ c') (w ++ w') where
  total := by
    have := h.total
    have := h'.total
    simp_all [Layout.total]
  length := by rw [List.length_append, List.length_append, h.length, h'.length]
  eq hw := by
    obtain ⟨hc, hc'⟩ := (isWritten_append h.total).mp hw
    rw [h.eq hc, h'.eq hc']

theorem stretch {stretch : Stretch} {n : Nat} {c w : List UInt8} (hc : c.length = n)
    (hw : w.length = n) (h : stretch.IsWritten c → w = c) : Recodes [(stretch, n)] c w where
  total := by simp [Layout.total, hc]
  length := hw.trans hc.symm
  eq hwritten := h (by simpa [IsWritten, ← hc] using hwritten)

theorem plain (c : List UInt8) {n : Nat} (h : c.length = n) : Recodes [(.plain, n)] c c :=
  stretch h h fun _ => rfl

theorem bool {bytes : List UInt8} (h : bytes.length = 4) :
    Recodes [(.truth, 4)] bytes (bigEndian 4 (ofBigEndian bytes != 0).toNat) := by
  refine stretch h (length_bigEndian _ _) fun (hle : ofBigEndian bytes ≤ 1) => ?_
  have hb : (ofBigEndian bytes != 0).toNat = ofBigEndian bytes := by
    rcases Nat.le_one_iff_eq_zero_or_eq_one.mp hle with h0 | h1
    · simp [h0]
    · simp [h1]
  rw [hb, bigEndian_ofBigEndian h]

theorem number (n : Numeric) {bytes : List UInt8} (h : bytes.length = n.width) :
    Recodes [(.ofNumeric n, n.width)] bytes
      (n.bytes (n.recode (n.ofBits (ofBigEndian bytes)))) := by
  refine stretch h (n.length_bytes _) fun hwritten => ?_
  have hnan : ¬ n.IsSingleNaN (n.ofBits (ofBigEndian bytes)) := by
    cases n with
    | float32 => exact hwritten
    | _ => exact id
  rw [Numeric.recode_eq hnan, n.bytes_ofBits h]

theorem blob {header data padding : List UInt8} (hheader : header.length = 4)
    (hlength : ofBigEndian header = data.length)
    (hpadding : padding.length = paddingAfter data.length) :
    Recodes (.blob data.length) (header ++ (data ++ padding)) (blobForm data) := by
  have hzeros : Recodes [(.padding, paddingAfter data.length)] padding
      (List.replicate (paddingAfter data.length) 0) := by
    refine stretch hpadding List.length_replicate fun hzero => ?_
    rw [← hpadding]
    exact (List.eq_replicate_of_mem hzero).symm
  have hplain : Recodes [(.plain, 4 + data.length)] (header ++ data) (header ++ data) :=
    plain _ (by rw [List.length_append, hheader])
  have h := hplain.append hzeros
  rw [blobForm, ← hlength, bigEndian_ofBigEndian hheader, hlength]
  rwa [List.append_assoc, List.append_assoc] at h

end Recodes
end Layout

namespace Schema

variable (s : Schema)

mutual

/-- The layout of the bytes that a value of a type is encoded as or decoded from. -/
def layout (id : TypeId) (v : Value) : Layout :=
  match s.type id, v with
  | .bool, _ => [(.truth, 4)]
  | .numeric n, _ => [(.ofNumeric n, n.width)]
  | .enumeration _, _ => [(.plain, 4)]
  | .text _, .text t => .blob (utf8 t).length
  | .blob, .blob bytes => .blob bytes.length
  | .record r, .record _ fields => layoutFields r.members fields
  | .sequence q, .sequence elements => [(.plain, 4)] ++ layoutElements q.element elements
  | .map m, .map pairs => [(.plain, 4)] ++ layoutPairs m.key m.value pairs
  | _, _ => []

def layoutFields : List Member → List (String × Value) → Layout
  | m :: members, (_, v) :: fields => layout m.type v ++ layoutFields members fields
  | _, _ => []

def layoutElements (element : TypeId) : List Value → Layout
  | [] => []
  | v :: elements => layout element v ++ layoutElements element elements

def layoutPairs (key value : TypeId) : List (Value × Value) → Layout
  | [] => []
  | (k, v) :: pairs => layout key k ++ (layout value v ++ layoutPairs key value pairs)

end

variable {s} {cap : Nat} {id : TypeId}

theorem le_maxLength_of_word {header : List UInt8} (h : header.length = 4) :
    ofBigEndian header ≤ maxLength := by
  have hlt := ofBigEndian_lt header
  rw [h] at hlt
  exact Nat.le_pred_of_lt hlt

variable (s cap) in
/-- A value that was decoded from `c` is in normal form and can be encoded in its place. -/
def Recodes (id : TypeId) (c : List UInt8) (v : Value) : Prop :=
  s.normalize id v = v ∧
    ∃ w, (s.encode cap id v).result = .ok w ∧ (s.layout id v).Recodes c w

section Values

variable {c : List UInt8}

theorem recodes_bool (ht : s.type id = .bool) (hc : c.length = 4) :
    s.Recodes cap id c (.bool (ofBigEndian c != 0)) := by
  refine ⟨normalize_eq_self ht rfl nofun, _, encode_bool_eq_ok_iff.mpr ⟨ht, rfl⟩, ?_⟩
  unfold layout
  rw [ht]
  exact .bool hc

theorem recodes_number {n : Numeric} (ht : s.type id = .numeric n) (hc : c.length = n.width) :
    s.Recodes cap id c (n.toValue (n.ofBits (ofBigEndian c))) := by
  have hnumber := isNumber_toValue n (n.ofBits (ofBigEndian c))
  refine ⟨?_, _, (encode_number_eq_ok_iff hnumber).mpr ⟨n, _, ht, n.ofValue?_toValue _, rfl⟩, ?_⟩
  · rw [normalize_numeric ht, n.normalize_toValue]
  · unfold layout
    rw [ht]
    exact .number n hc

theorem recodes_ordinal {e : EnumType} (ht : s.type id = .enumeration e)
    (hmem : e.contains (Numeric.ofBits .int32 (ofBigEndian c))) (hc : c.length = 4) :
    s.Recodes cap id c (.ordinal (Numeric.ofBits .int32 (ofBigEndian c))) := by
  refine ⟨normalize_eq_self ht rfl nofun, _, encode_ordinal_eq_ok_iff.mpr ⟨e, ht, hmem, rfl⟩, ?_⟩
  unfold layout
  rw [ht]
  exact .number .int32 hc

section Counted

variable {header : List UInt8} (hheader : header.length = 4)
include hheader

theorem recodes_text {wide : Bool} {t : String} {padding : List UInt8}
    (ht : s.type id = .text wide) (hlength : ofBigEndian header = (utf8 t).length)
    (hpadding : padding.length = paddingAfter (utf8 t).length) :
    s.Recodes cap id (header ++ (utf8 t ++ padding)) (.text t) := by
  refine ⟨normalize_eq_self ht rfl nofun, _,
    encode_text_eq_ok_iff.mpr ⟨wide, ht, ?_, rfl⟩, ?_⟩
  · exact hlength ▸ le_maxLength_of_word hheader
  · unfold layout
    rw [ht]
    exact .blob hheader hlength hpadding

theorem recodes_blob {data padding : List UInt8} (ht : s.type id = .blob)
    (hlength : ofBigEndian header = data.length)
    (hpadding : padding.length = paddingAfter data.length) :
    s.Recodes cap id (header ++ (data ++ padding)) (.blob data) := by
  refine ⟨normalize_eq_self ht rfl nofun, _,
    encode_blob_eq_ok_iff.mpr ⟨ht, ?_, rfl⟩, ?_⟩
  · exact hlength ▸ le_maxLength_of_word hheader
  · unfold layout
    rw [ht]
    exact .blob hheader hlength hpadding

theorem recodes_sequence {q : SequenceType} {elements : List Value} {w : List UInt8}
    (ht : s.type id = .sequence q) (hcap : elements.length ≤ cap)
    (hlength : ofBigEndian header = elements.length)
    (hnorm : s.normalizeElements q.element elements = elements)
    (hw : (s.encodeElements cap q.element elements).result = .ok w)
    (hrec : (s.layoutElements q.element elements).Recodes c w) :
    s.Recodes cap id (header ++ c) (.sequence elements) := by
  refine ⟨?_, header ++ w, encode_sequence_eq_ok_iff.mpr ⟨q, w, ht, hcap, ?_, hw, ?_⟩, ?_⟩
  · rw [normalize_sequence ht, hnorm]
  · exact hlength ▸ le_maxLength_of_word hheader
  · rw [← hlength, bigEndian_ofBigEndian hheader]
  · unfold layout
    rw [ht]
    exact (Layout.Recodes.plain header hheader).append hrec

theorem recodes_map {m : MapType} {pairs : List (Value × Value)} {w : List UInt8}
    (ht : s.type id = .map m) (hcap : pairs.length ≤ cap)
    (hlength : ofBigEndian header = pairs.length)
    (hnorm : s.normalizePairs m.key m.value pairs = pairs)
    (hkeys : keyFault? m.name.text [] (s.keyForms cap m.key pairs) = none)
    (hw : (s.encodePairs cap m.key m.value pairs).result = .ok w)
    (hrec : (s.layoutPairs m.key m.value pairs).Recodes c w) :
    s.Recodes cap id (header ++ c) (.map pairs) := by
  refine ⟨?_, header ++ w, encode_map_eq_ok_iff.mpr ⟨m, w, ht, hcap, ?_, hkeys, hw, ?_⟩, ?_⟩
  · rw [normalize_map ht, hnorm]
  · exact hlength ▸ le_maxLength_of_word hheader
  · rw [← hlength, bigEndian_ofBigEndian hheader]
  · unfold layout
    rw [ht]
    exact (Layout.Recodes.plain header hheader).append hrec

end Counted

theorem recodes_record {r : RecordType} {fields : List (String × Value)} {w : List UInt8}
    (ht : s.type id = .record r) (hnames : fields.map (·.1) = r.members.map (·.name))
    (hnorm : s.normalizeFields r.members fields = fields)
    (hw : (s.encodeFields cap r.members fields).result = .ok w)
    (hrec : (s.layoutFields r.members fields).Recodes c w) :
    s.Recodes cap id c (.record r.name.text fields) := by
  have hfit : r.fits fields := by simpa [RecordType.fits] using hnames
  refine ⟨?_, w, encode_record_eq_ok_iff.mpr ⟨r, ht, hfit, hw⟩, ?_⟩
  · rw [normalize_record ht, hnorm]
  · unfold layout
    rwa [ht]

end Values

variable (s cap) in
/-- Whatever the decoder of a type gives was read from the front of its input and can be encoded in
the place of what was read. -/
def RecodesAll (part : TypeId → Decoder Value) : Prop :=
  ∀ id input v rest, part id input = (.ok v, rest) → ∃ c, input = c ++ rest ∧ s.Recodes cap id c v

section Step

variable {part : TypeId → Decoder Value} (hpart : s.RecodesAll cap part)
include hpart

theorem recodes_decodeMembers {members : List Member} {input rest : List UInt8}
    {fields : List (String × Value)} (h : decodeMembers part members input = (.ok fields, rest)) :
    ∃ c w, input = c ++ rest ∧ fields.map (·.1) = members.map (·.name) ∧
      s.normalizeFields members fields = fields ∧
      (s.encodeFields cap members fields).result = .ok w ∧
      (s.layoutFields members fields).Recodes c w := by
  unfold decodeMembers at h
  induction members generalizing input fields with
  | nil =>
    rw [List.mapM_nil] at h
    obtain ⟨rfl, rfl⟩ := Decoder.pure_eq_ok_iff.mp h
    refine ⟨[], [], rfl, rfl, normalizeFields_nil, ?_, ?_⟩
    · rw [encodeFields_nil, Output.result_done]
    · rw [layoutFields]
      · exact Layout.Recodes.nil
      · simp
  | cons m members ih =>
    rw [List.mapM_cons] at h
    obtain ⟨field, mid, hfield, htail⟩ := Decoder.bind_eq_ok_iff.mp h
    obtain ⟨v, mid', hv, hpure⟩ := Decoder.bind_eq_ok_iff.mp hfield
    obtain ⟨rfl, rfl⟩ := Decoder.pure_eq_ok_iff.mp hpure
    obtain ⟨tail, mid'', hmembers, hpure'⟩ := Decoder.bind_eq_ok_iff.mp htail
    obtain ⟨rfl, rfl⟩ := Decoder.pure_eq_ok_iff.mp hpure'
    obtain ⟨c, rfl, hnorm, w, hw, hrec⟩ := hpart _ _ _ _ hv
    obtain ⟨c', w', rfl, hnames, hnorm', hw', hrec'⟩ := ih hmembers
    refine ⟨c ++ c', w ++ w', (List.append_assoc _ _ _).symm, ?_, ?_, ?_, ?_⟩
    · rw [List.map_cons, List.map_cons, hnames]
    · rw [normalizeFields_cons, hnorm, hnorm']
    · exact encodeFields_cons_eq_ok_iff.mpr ⟨w, w', hw, hw', rfl⟩
    · rw [layoutFields]
      exact hrec.append hrec'

theorem recodes_repeatInto {element : TypeId} {n : Nat} {done values : List Value}
    {input rest : List UInt8} (h : (part element).repeatInto n done input = (.ok values, rest)) :
    ∃ elements c w, values = done.reverse ++ elements ∧ input = c ++ rest ∧ elements.length = n ∧
      s.normalizeElements element elements = elements ∧
      (s.encodeElements cap element elements).result = .ok w ∧
      (s.layoutElements element elements).Recodes c w := by
  induction n generalizing done input with
  | zero =>
    obtain ⟨rfl, rfl⟩ := Decoder.pure_eq_ok_iff.mp h
    refine ⟨[], [], [], (List.append_nil _).symm, rfl, rfl, ?_, ?_, ?_⟩
    · rw [normalizeElements]
    · rw [encodeElements_nil, Output.result_done]
    · rw [layoutElements]
      exact Layout.Recodes.nil
  | succ n ih =>
    rw [Decoder.repeatInto_succ] at h
    obtain ⟨v, mid, hv, htail⟩ := Decoder.bind_eq_ok_iff.mp h
    obtain ⟨c, rfl, hnorm, w, hw, hrec⟩ := hpart _ _ _ _ hv
    obtain ⟨elements, c', w', rfl, rfl, hlen, hnorm', hw', hrec'⟩ := ih htail
    refine ⟨v :: elements, c ++ c', w ++ w', by simp, (List.append_assoc _ _ _).symm,
      by simp [hlen], ?_, ?_, ?_⟩
    · rw [normalizeElements, hnorm, hnorm']
    · exact encodeElements_cons_eq_ok_iff.mpr ⟨w, w', hw, hw', rfl⟩
    · rw [layoutElements]
      exact hrec.append hrec'

/-- The pairs that are read have keys of different forms, none of them seen before. -/
theorem recodes_decodePairs {typeName : String} {key value : TypeId} {n : Nat}
    {seen : List (List UInt8)} {done result : List (Value × Value)} {input rest : List UInt8}
    (h : decodePairs typeName (s.toBytes cap key) (part key) (part value) n seen done input =
      (.ok result, rest)) :
    ∃ (pairs : List (Value × Value)) (keys : List (List UInt8)) (c w : List UInt8),
      result = done.reverse ++ pairs ∧ input = c ++ rest ∧ pairs.length = n ∧
      s.normalizePairs key value pairs = pairs ∧
      s.keyForms cap key pairs = keys.map .ok ∧ keys.Nodup ∧ (∀ k ∈ keys, k ∉ seen) ∧
      (s.encodePairs cap key value pairs).result = .ok w ∧
      (s.layoutPairs key value pairs).Recodes c w := by
  induction n generalizing seen done input with
  | zero =>
    obtain ⟨rfl, rfl⟩ := Decoder.pure_eq_ok_iff.mp h
    refine ⟨[], [], [], [], (List.append_nil _).symm, rfl, rfl, ?_, ?_, List.nodup_nil, by simp, ?_,
      ?_⟩
    · rw [normalizePairs]
    · rw [keyForms, List.map_nil]
    · rw [encodePairs_nil, Output.result_done]
    · rw [layoutPairs]
      exact Layout.Recodes.nil
  | succ n ih =>
    obtain ⟨k, mid, hk, hform⟩ := Decoder.bind_eq_ok_iff.mp h
    cases hbytes : s.toBytes cap key k with
    | error e => simp [hbytes] at hform
    | ok form =>
      simp only [hbytes] at hform
      split_ifs at hform with hseen
      · simp at hform
      obtain ⟨v, mid', hv, htail⟩ := Decoder.bind_eq_ok_iff.mp hform
      obtain ⟨c, rfl, hnorm, w, hw, hrec⟩ := hpart _ _ _ _ hk
      obtain ⟨c', rfl, hnorm', w', hw', hrec'⟩ := hpart _ _ _ _ hv
      obtain ⟨pairs, keys, c'', w'', rfl, rfl, hlen, hnorm'', hkeys, hnodup, hfresh, hw'',
        hrec''⟩ := ih htail
      refine ⟨(k, v) :: pairs, form :: keys, c ++ (c' ++ c''), w ++ (w' ++ w''), by simp, by simp,
        by simp [hlen], ?_, ?_, ?_, ?_, ?_, ?_⟩
      · rw [normalizePairs, hnorm, hnorm', hnorm'']
      · rw [keyForms, hkeys, List.map_cons]
        exact congrArg (· :: _) hbytes
      · exact List.nodup_cons.mpr ⟨fun hmem => hfresh form hmem List.mem_cons_self, hnodup⟩
      · exact List.forall_mem_cons.mpr ⟨hseen, fun k hk hks => hfresh k hk (.tail _ hks)⟩
      · exact encodePairs_cons_eq_ok_iff.mpr ⟨w, w', w'', hw, hw', hw'', rfl⟩
      · rw [layoutPairs]
        exact hrec.append (hrec'.append hrec'')

theorem recodesAll_decodeWith : s.RecodesAll cap (s.decodeWith cap part) := by
  intro id input v rest h
  unfold decodeWith at h
  cases ht : s.type id with
  | bool =>
    simp only [ht] at h
    obtain ⟨b, mid, hb, hpure⟩ := Decoder.bind_eq_ok_iff.mp h
    obtain ⟨rfl, rfl⟩ := Decoder.pure_eq_ok_iff.mp hpure
    obtain ⟨c, hc, rfl, rfl⟩ := Decoder.bool_eq_ok_iff.mp hb
    exact ⟨c, rfl, recodes_bool ht hc⟩
  | numeric n =>
    simp only [ht] at h
    obtain ⟨w, mid, hw, hpure⟩ := Decoder.bind_eq_ok_iff.mp h
    obtain ⟨rfl, rfl⟩ := Decoder.pure_eq_ok_iff.mp hpure
    obtain ⟨c, hc, rfl, rfl⟩ := Decoder.number_eq_ok_iff.mp hw
    exact ⟨c, rfl, recodes_number ht hc⟩
  | text wide =>
    simp only [ht] at h
    obtain ⟨t, mid, hdata, hpure⟩ := Decoder.bind_eq_ok_iff.mp h
    obtain ⟨rfl, rfl⟩ := Decoder.pure_eq_ok_iff.mp hpure
    obtain ⟨header, padding, hheader, hlength, hpadding, rfl⟩ :=
      Decoder.blob_eq_ok_iff.mp (Decoder.text_eq_ok_iff.mp hdata)
    exact ⟨_, rfl, recodes_text hheader ht hlength hpadding⟩
  | blob =>
    simp only [ht] at h
    obtain ⟨data, mid, hdata, hpure⟩ := Decoder.bind_eq_ok_iff.mp h
    obtain ⟨rfl, rfl⟩ := Decoder.pure_eq_ok_iff.mp hpure
    obtain ⟨header, padding, hheader, hlength, hpadding, rfl⟩ := Decoder.blob_eq_ok_iff.mp hdata
    exact ⟨_, rfl, recodes_blob hheader ht hlength hpadding⟩
  | enumeration e =>
    simp only [ht] at h
    obtain ⟨w, mid, hw, hcheck⟩ := Decoder.bind_eq_ok_iff.mp h
    split_ifs at hcheck with hmem
    · obtain ⟨rfl, rfl⟩ := Decoder.pure_eq_ok_iff.mp hcheck
      obtain ⟨c, hc, rfl, rfl⟩ := Decoder.number_eq_ok_iff.mp hw
      exact ⟨c, rfl, recodes_ordinal ht hmem hc⟩
    · simp at hcheck
  | record r =>
    simp only [ht] at h
    obtain ⟨fields, mid, hfields, hpure⟩ := Decoder.bind_eq_ok_iff.mp h
    obtain ⟨rfl, rfl⟩ := Decoder.pure_eq_ok_iff.mp hpure
    obtain ⟨c, w, rfl, hnames, hnorm, hw, hrec⟩ := recodes_decodeMembers hpart hfields
    exact ⟨c, rfl, recodes_record ht hnames hnorm hw hrec⟩
  | sequence q =>
    simp only [ht] at h
    obtain ⟨n, mid, hn, hbody⟩ := Decoder.bind_eq_ok_iff.mp h
    obtain ⟨elements, mid', helements, hpure⟩ := Decoder.bind_eq_ok_iff.mp hbody
    obtain ⟨rfl, rfl⟩ := Decoder.pure_eq_ok_iff.mp hpure
    obtain ⟨hcap, header, hheader, hlength, rfl⟩ := Decoder.count_eq_ok_iff.mp hn
    obtain ⟨elements, c, w, rfl, rfl, rfl, hnorm, hw, hrec⟩ := recodes_repeatInto hpart helements
    exact ⟨header ++ c, (List.append_assoc _ _ _).symm,
      recodes_sequence hheader ht hcap hlength hnorm hw hrec⟩
  | map m =>
    simp only [ht] at h
    obtain ⟨n, mid, hn, hbody⟩ := Decoder.bind_eq_ok_iff.mp h
    obtain ⟨pairs, mid', hpairs, hpure⟩ := Decoder.bind_eq_ok_iff.mp hbody
    obtain ⟨rfl, rfl⟩ := Decoder.pure_eq_ok_iff.mp hpure
    obtain ⟨hcap, header, hheader, hlength, rfl⟩ := Decoder.count_eq_ok_iff.mp hn
    obtain ⟨pairs, keys, c, w, rfl, rfl, rfl, hnorm, hkeys, hnodup, hfresh, hw, hrec⟩ :=
      recodes_decodePairs hpart hpairs
    have hfault : keyFault? m.name.text [] (s.keyForms cap m.key pairs) = none :=
      keyFault?_eq_none_iff.mpr ⟨keys, hkeys, hnodup, hfresh⟩
    exact ⟨header ++ c, (List.append_assoc _ _ _).symm,
      recodes_map hheader ht hcap hlength hnorm hfault hw hrec⟩
  | forward name => simp [ht] at h

end Step

theorem recodesAll_decodeWithin (depth : Nat) : s.RecodesAll cap (s.decodeWithin cap depth) := by
  induction depth with
  | zero =>
    intro id input v rest h
    cases h
  | succ depth ih => exact recodesAll_decodeWith ih

theorem recodesAll_decode : s.RecodesAll cap (s.decode cap) := by
  intro id input v rest h
  exact recodesAll_decodeWithin _ id input v rest h

/-- Notes that hold data and whether they were seen. -/
def notes : Schema where
  types := #[.bool, .blob,
    .record { name := .top "Note", kind := .plain
              members := [⟨"seen", ⟨0⟩⟩, ⟨"data", ⟨1⟩⟩] }]
  modules := []

/-- Every value that is decoded can be encoded again, with as many bytes as it was decoded from, and
is decoded from these bytes once more. They are the same bytes if every truth value, all padding and
every single among them is as it is written. -/
theorem encode_decoded (s : Schema) (cap : Nat) (id : TypeId) (input rest : List UInt8) (v : Value)
    (h : s.decode cap id input = (.ok v, rest)) :
    ∃ c w, input = c ++ rest ∧
      Sink.unbounded.drain (s.encode cap id v) = (.ok (), ⟨none, w⟩) ∧
      w.length = c.length ∧ s.size id v = .ok c.length ∧
      s.decode cap id w = (.ok v, []) ∧
      (s.layout id v).total = c.length ∧ ((s.layout id v).IsWritten c → w = c) := by
  obtain ⟨c, rfl, hnorm, w, hw, hrec⟩ := recodesAll_decode id input v rest h
  have hsize : s.size id v = .ok c.length := hrec.length ▸ size_of_encode hw
  have hread : s.decode cap id w = (.ok v, []) := by
    have hread := reads_decode hw []
    rwa [List.append_nil, hnorm] at hread
  exact ⟨c, w, rfl, Sink.drain_unbounded_eq_ok_iff.mpr hw, hrec.length, hsize, hread, hrec.total,
    hrec.eq⟩

/-- A note with a true value other than one and with padding other than zero. -/
theorem encode_decoded_note :
    notes.decode 8 ⟨2⟩ [0, 0, 0, 7, 0, 0, 0, 1, 9, 1, 2, 3, 4] =
        (.ok (.record "Note" [("seen", .bool true), ("data", .blob [9])]), [4]) ∧
      ∃ w, w.length = 12 ∧ notes.decode 8 ⟨2⟩ w =
        (.ok (.record "Note" [("seen", .bool true), ("data", .blob [9])]), []) := by
  have hread : notes.decode 8 ⟨2⟩ [0, 0, 0, 7, 0, 0, 0, 1, 9, 1, 2, 3, 4] =
      (.ok (.record "Note" [("seen", .bool true), ("data", .blob [9])]), [4]) := by cbv
  obtain ⟨c, w, hinput, -, hlen, -, hagain, -⟩ := encode_decoded notes 8 ⟨2⟩ _ _ _ hread
  have hc : c.length = 12 := by simpa using (congrArg List.length hinput).symm
  exact ⟨hread, w, hlen.trans hc, hagain⟩

end Schema
end WireSchema
