import WireSchema.Dispatch
import WireSchema.Proofs.Schema.Integrity
import WireSchema.Proofs.Schema.Waiting
import WireSchema.Proofs.Value.RoundTrip

/-!
# Dispatch tables are exact

A table keeps the last of several items with one key. The operations of an interface have different
numbers and its exceptions different names, so nothing is lost: a message is found under a key
exactly when the interface declares it, whatever separates the parts of a name on the wire.
-/
namespace WireSchema.Dispatch

open Schema Wire
open Document (NamedInterface)

section Table

variable {κ α β : Type} [Ord κ] [Std.TransOrd κ] [Std.LawfulEqOrd κ] {f : α → κ} {g : α → β}

/-- What is found is an item that was entered, or was there before under a key of no item. -/
theorem getElem?_foldl_insert {items : List α} (hnodup : (items.map f).Nodup)
    {t : Std.TreeMap κ β} {k : κ} {b : β} :
    (items.foldl (fun t a => t.insert (f a) (g a)) t)[k]? = some b ↔
      (∃ a ∈ items, f a = k ∧ g a = b) ∨ k ∉ items.map f ∧ t[k]? = some b := by
  induction items generalizing t with
  | nil => simp
  | cons a items ih =>
    obtain ⟨hnot, hnodup⟩ := List.nodup_cons.mp hnodup
    rw [List.foldl_cons, ih hnodup, Std.TreeMap.getElem?_insert]
    have hcompare : compare (f a) k = .eq ↔ f a = k := Std.compare_eq_iff_eq
    by_cases hk : f a = k
    · rw [if_pos (hcompare.mpr hk)]
      subst hk
      have hnone : ∀ c ∈ items, f c ≠ f a := by
        intro c hc heq
        exact hnot (heq ▸ List.mem_map_of_mem hc)
      simp only [List.map_cons, List.mem_cons, true_or, not_true, false_and, or_false,
        exists_eq_or_imp, true_and]
      constructor
      · rintro (⟨c, hc, heq, -⟩ | ⟨-, hb⟩)
        · exact absurd heq (hnone c hc)
        · exact .inl (Option.some.inj hb)
      · rintro (hb | ⟨c, hc, heq, -⟩)
        · exact .inr ⟨hnot, congrArg some hb⟩
        · exact absurd heq (hnone c hc)
    · rw [if_neg (mt hcompare.mp hk)]
      simp [hk, Ne.symm hk]

theorem getElem?_table {items : List α} (hnodup : (items.map f).Nodup) {k : κ} {b : β} :
    (items.foldl (fun t a => t.insert (f a) (g a)) (∅ : Std.TreeMap κ β))[k]? = some b ↔
      ∃ a ∈ items, f a = k ∧ g a = b := by
  rw [getElem?_foldl_insert hnodup]
  simp

end Table

variable {s : Schema} {config : Config} {decl : NamedInterface} {i : Interface}

theorem wireName_child_injective (q : QualifiedName) :
    Function.Injective fun name => config.wireName (q.child name) := by
  intro a b h
  obtain ⟨segments⟩ := q
  unfold Config.wireName QualifiedName.child QualifiedName.joined at h
  cases segments with
  | nil => simpa using h
  | cons segment segments =>
    simp only [] at h
    rw [String.intercalate_append_of_ne_nil (by simp) (by simp),
      String.intercalate_append_of_ne_nil (by simp) (by simp)] at h
    simpa using h

/-- The response of an operation beside its number. -/
def responseItem? (op : Operation) : Option (UInt32 × RecordType) :=
  op.response?.map fun r => (op.uid, r)

theorem responseItem?_eq_some {op : Operation} {uid : UInt32} {r : RecordType} :
    responseItem? op = some (uid, r) ↔ op.uid = uid ∧ op.response? = some r := by
  simp only [responseItem?, Option.map_eq_some_iff, Prod.mk.injEq]
  grind

theorem response?_eq_none_iff {op : Operation} : op.response? = none ↔ op.oneway = true := by
  simp [Operation.response?]

theorem map_filterMap_sublist {α β γ : Type} {f : α → Option β} {g : β → γ} {k : α → γ}
    (h : ∀ a b, f a = some b → g b = k a) (items : List α) :
    ((items.filterMap f).map g).Sublist (items.map k) := by
  induction items with
  | nil => simp
  | cons a items ih =>
    cases ha : f a with
    | none =>
      rw [List.filterMap_cons_none ha, List.map_cons]
      exact ih.cons (k a)
    | some b =>
      rw [List.filterMap_cons_some ha, List.map_cons, List.map_cons, h a b ha]
      exact ih.cons_cons (k a)

theorem nodup_responseUids (h : (i.operations.map (·.uid)).Nodup) :
    ((i.operations.filterMap responseItem?).map Prod.fst).Nodup :=
  h.sublist (map_filterMap_sublist
    (fun _ _ hitem => (responseItem?_eq_some.mp hitem).1.symm) i.operations)

theorem exceptionRecord?_eq {e : Document.Exception} {id : TypeId} {r : RecordType}
    (h : IsExceptionAt s.types i.name e id r) : exceptionRecord? s id = some r := by
  have htype : s.type id = .record r := by
    simp [Schema.type, Array.getD_eq_getD_getElem?, h.type_eq]
  rw [exceptionRecord?, htype]

theorem names_exceptionRecords {es : List Document.Exception} {ids : List TypeId}
    (h : List.Forall₂ (fun e id => ∃ r, IsExceptionAt s.types i.name e id r) es ids) :
    (ids.filterMap (exceptionRecord? s)).map (·.name) = es.map fun e => i.name.child e.name := by
  induction h with
  | nil => rfl
  | cons hr _ ih =>
    obtain ⟨r, hr⟩ := hr
    rw [List.filterMap_cons_some (exceptionRecord?_eq hr), List.map_cons, ih, List.map_cons,
      hr.name_eq]

theorem nodup_exceptionKeys (h : Interface.Built s decl i) :
    ((i.exceptions.filterMap (exceptionRecord? s)).map fun r => config.wireName r.name).Nodup := by
  have hkeys : (i.exceptions.filterMap (exceptionRecord? s)).map (fun r => config.wireName r.name) =
      (decl.decl.exceptions.map (·.name)).map fun name => config.wireName (i.name.child name) := by
    calc _ = ((i.exceptions.filterMap (exceptionRecord? s)).map (·.name)).map config.wireName := by
          simp
      _ = _ := by rw [names_exceptionRecords h.exceptions]; simp
  rw [hkeys]
  exact h.exceptionNames_nodup.map (wireName_child_injective i.name)

def Declares (s : Schema) (decl : NamedInterface) (i : Interface) (e : Document.Exception)
    (r : RecordType) : Prop :=
  e ∈ decl.decl.exceptions ∧ ∃ id ∈ i.exceptions, IsExceptionAt s.types i.name e id r

theorem exists_declares (h : Interface.Built s decl i) {e : Document.Exception}
    (he : e ∈ decl.decl.exceptions) : ∃ r, Declares s decl i e r := by
  obtain ⟨id, hid, r, hr⟩ := exists_of_mem_left h.exceptions he
  exact ⟨r, he, id, hid, hr⟩

theorem getElem?_requests (h : (i.operations.map (·.uid)).Nodup) {n : UInt32} {op : Operation} :
    (ofInterface s config i).requests[n]? = some op ↔ op ∈ i.operations ∧ op.uid = n := by
  refine (getElem?_table (g := id) h).trans ?_
  simp only [id]
  grind

theorem getElem?_responses (h : (i.operations.map (·.uid)).Nodup) {n : UInt32} {r : RecordType} :
    (ofInterface s config i).responses[n]? = some r ↔
      ∃ op ∈ i.operations, op.uid = n ∧ op.response? = some r := by
  refine (getElem?_table (g := Prod.snd) (nodup_responseUids h)).trans ?_
  simp only [List.mem_filterMap]
  constructor
  · rintro ⟨⟨uid, r'⟩, ⟨op, hop, hitem⟩, rfl, rfl⟩
    exact ⟨op, hop, responseItem?_eq_some.mp hitem⟩
  · rintro ⟨op, hop, hitem⟩
    exact ⟨(n, r), ⟨op, hop, responseItem?_eq_some.mpr hitem⟩, rfl, rfl⟩

theorem getElem?_exceptions (h : Interface.Built s decl i) {name : String} {r : RecordType} :
    (ofInterface s config i).exceptions[name]? = some r ↔
      r ∈ i.exceptions.filterMap (exceptionRecord? s) ∧ config.wireName r.name = name := by
  refine (getElem?_table (g := id) (nodup_exceptionKeys h)).trans ?_
  simp only [id]
  grind

theorem operation_eq_ok_iff (h : (i.operations.map (·.uid)).Nodup) {n : UInt32} {op : Operation} :
    (ofInterface s config i).operation n = .ok op ↔ op ∈ i.operations ∧ op.uid = n := by
  have hfound : (ofInterface s config i).operation n = .ok op ↔
      (ofInterface s config i).requests[n]? = some op := by
    rw [operation]
    cases (ofInterface s config i).requests[n]? <;> simp
  exact hfound.trans (getElem?_requests h)

theorem response_eq_ok_iff (h : (i.operations.map (·.uid)).Nodup) {n : UInt32} {r : RecordType} :
    (ofInterface s config i).response n = .ok r ↔
      ∃ op ∈ i.operations, op.uid = n ∧ op.response? = some r := by
  have hfound : (ofInterface s config i).response n = .ok r ↔
      (ofInterface s config i).responses[n]? = some r := by
    rw [response]
    cases (ofInterface s config i).responses[n]? <;> simp
  exact hfound.trans (getElem?_responses h)

theorem mem_exceptionRecords_iff (h : Interface.Built s decl i) {r : RecordType} :
    r ∈ i.exceptions.filterMap (exceptionRecord? s) ↔ ∃ e, Declares s decl i e r := by
  rw [List.mem_filterMap]
  constructor
  · rintro ⟨id, hid, hrecord⟩
    obtain ⟨e, he, r', hr⟩ := exists_of_mem_right h.exceptions hid
    obtain rfl := Option.some.inj ((exceptionRecord?_eq hr).symm.trans hrecord)
    exact ⟨e, he, id, hid, hr⟩
  · rintro ⟨e, -, id, hid, hr⟩
    exact ⟨id, hid, exceptionRecord?_eq hr⟩

theorem Declares.name_eq {e : Document.Exception} {r : RecordType} (h : Declares s decl i e r) :
    r.name = i.name.child e.name := by
  obtain ⟨-, id, -, hr⟩ := h
  exact hr.name_eq

theorem exception_eq_ok_iff (h : Interface.Built s decl i) {name : String} {r : RecordType} :
    (ofInterface s config i).exception name = .ok r ↔
      ∃ e, Declares s decl i e r ∧ config.wireName (i.name.child e.name) = name := by
  have hfound : (ofInterface s config i).exception name = .ok r ↔
      (ofInterface s config i).exceptions[name]? = some r := by
    rw [exception]
    cases (ofInterface s config i).exceptions[name]? <;> simp
  rw [hfound, getElem?_exceptions h, mem_exceptionRecords_iff h]
  constructor
  · rintro ⟨⟨e, he⟩, rfl⟩
    exact ⟨e, he, by rw [he.name_eq]⟩
  · rintro ⟨e, he, rfl⟩
    exact ⟨⟨e, he⟩, by rw [he.name_eq]⟩

/-- Messages that are found by a key: `Has k r` says that the key `k` belongs to a message with the
record `r`. A key of no message is refused, and refusing it consumes no input. -/
structure Serves {κ : Type} (s : Schema) (cap : Nat) (Has : κ → RecordType → Prop)
    (unknown : κ → WireError) (find : κ → Except WireError RecordType)
    (create : κ → Except WireError Value) (decode : κ → Decoder Value) : Prop where
  find_eq_ok_iff : ∀ k r, find k = .ok r ↔ Has k r
  find_unknown : ∀ k, (∀ r, ¬ Has k r) → find k = .error (unknown k)
  create_eq : ∀ k r, Has k r → create k = s.defaultRecord r
  create_unknown : ∀ k, (∀ r, ¬ Has k r) → create k = .error (unknown k)
  decode_eq : ∀ k r, Has k r → decode k = s.decodeRecord cap r
  decode_unknown : ∀ k, (∀ r, ¬ Has k r) → ∀ input, decode k input = (.error (unknown k), input)

/-- Messages that are sent as well: what was encoded under a key is read back under it. -/
structure Transmits {κ : Type} (s : Schema) (cap : Nat) (Has : κ → RecordType → Prop)
    (unknown : κ → WireError) (find : κ → Except WireError RecordType)
    (create : κ → Except WireError Value) (decode : κ → Decoder Value)
    (encode : κ → Value → Except WireError (List UInt8)) : Prop
    extends Serves s cap Has unknown find create decode where
  encode_eq : ∀ k r, Has k r → encode k = s.recordToBytes cap r
  encode_unknown : ∀ k, (∀ r, ¬ Has k r) → ∀ v, encode k v = .error (unknown k)
  decode_encoded : ∀ k v bytes, encode k v = .ok bytes →
    ∃ r, Has k r ∧ ∀ rest, decode k (bytes ++ rest) = (.ok (s.normalizeRecord r v), rest)

section Kinds

variable {κ : Type} {d : Dispatch} {Has : κ → RecordType → Prop} {unknown : κ → WireError}
  {find : κ → Except WireError RecordType}

/-- A lookup that fails in one way only, and creation and decoding that start with it. -/
theorem serves_of_find (hfind : ∀ k r, find k = .ok r ↔ Has k r)
    (hunknown : ∀ k e, find k = .error e → e = unknown k) :
    Serves d.schema d.cap Has unknown find (fun k => find k >>= d.schema.defaultRecord)
      (fun k => d.decodeAs (find k)) := by
  have hnone : ∀ k, (∀ r, ¬ Has k r) → find k = .error (unknown k) := by
    intro k hk
    cases hresult : find k with
    | ok r => exact absurd ((hfind k r).mp hresult) (hk r)
    | error e => rw [hunknown k e hresult]
  refine ⟨hfind, hnone, ?_, ?_, ?_, ?_⟩
  · intro k r hr
    rw [(hfind k r).mpr hr]
    rfl
  · intro k hk
    rw [hnone k hk]
    rfl
  · intro k r hr
    simp only [(hfind k r).mpr hr, decodeAs]
  · intro k hk input
    simp only [hnone k hk, decodeAs]
    rfl

theorem transmits_of_find (hfind : ∀ k r, find k = .ok r ↔ Has k r)
    (hunknown : ∀ k e, find k = .error e → e = unknown k) :
    Transmits d.schema d.cap Has unknown find (fun k => find k >>= d.schema.defaultRecord)
      (fun k => d.decodeAs (find k))
      (fun k v => find k >>= fun r => d.schema.recordToBytes d.cap r v) := by
  have hserves := serves_of_find (d := d) hfind hunknown
  refine ⟨hserves, ?_, ?_, ?_⟩
  · intro k r hr
    funext v
    rw [(hfind k r).mpr hr]
    rfl
  · intro k hk v
    rw [hserves.find_unknown k hk]
    rfl
  · intro k v bytes hbytes
    cases hresult : find k with
    | error e =>
      rw [hresult] at hbytes
      cases hbytes
    | ok r =>
      rw [hresult] at hbytes
      exact ⟨r, (hfind k r).mp hresult,
        reads_decodeRecord (recordToBytes_eq_result_iff.mp hbytes)⟩

end Kinds

/-- What the tables of an interface answer. A request and a response belong to the number of their
operation, an exception to its name on the wire. -/
structure Exact (s : Schema) (config : Config) (decl : NamedInterface) (i : Interface)
    (d : Dispatch) : Prop where
  operation_eq_ok_iff : ∀ n op, d.operation n = .ok op ↔ op ∈ i.operations ∧ op.uid = n
  requests : Transmits s config.maxElements.toNat
    (fun n r => ∃ op ∈ i.operations, op.uid = n ∧ op.request = r)
    (fun n => .unknownOperation i.name.text n.toNat)
    (fun n => (d.operation n).map (·.request)) d.createRequest d.decodeRequest d.encodeRequest
  responses : Transmits s config.maxElements.toNat
    (fun n r => ∃ op ∈ i.operations, op.uid = n ∧ op.response? = some r)
    (fun n => .unknownResponse i.name.text n.toNat)
    d.response d.createResponse d.decodeResponse d.encodeResponse
  exists_response_iff : ∀ n, (∃ r, d.response n = .ok r) ↔
    ∃ op ∈ i.operations, op.uid = n ∧ op.oneway = false
  exceptions : Serves s config.maxElements.toNat
    (fun name r => ∃ e, Declares s decl i e r ∧ config.wireName (i.name.child e.name) = name)
    (fun name => .unknownException i.name.text name)
    d.exception d.createException d.decodeException
  exists_exception_iff : ∀ name, (∃ r, d.exception name = .ok r) ↔
    ∃ e ∈ decl.decl.exceptions, config.wireName (i.name.child e.name) = name
  defaultResponse_eq_none_iff : ∀ n, d.defaultResponse n = .ok none ↔
    ∃ op ∈ i.operations, op.uid = n ∧ op.oneway = true
  defaultResponse_eq : ∀ op ∈ i.operations, op.oneway = false →
    d.defaultResponse op.uid = some <$> d.createResponse op.uid
  defaultResponse_unknown : ∀ n, (∀ op ∈ i.operations, op.uid ≠ n) →
    d.defaultResponse n = .error (.unknownOperation i.name.text n.toNat)

theorem eq_unknown_of_operation {d : Dispatch} {n : UInt32} {e : WireError}
    (h : d.operation n = .error e) : e = .unknownOperation d.interface.name.text n.toNat := by
  unfold operation at h
  split at h
  · cases h
  · exact (Except.error.inj h).symm

theorem eq_unknown_of_response {d : Dispatch} {n : UInt32} {e : WireError}
    (h : d.response n = .error e) : e = .unknownResponse d.interface.name.text n.toNat := by
  unfold response at h
  split at h
  · cases h
  · exact (Except.error.inj h).symm

theorem eq_unknown_of_exception {d : Dispatch} {name : String} {e : WireError}
    (h : d.exception name = .error e) : e = .unknownException d.interface.name.text name := by
  unfold exception at h
  split at h
  · cases h
  · exact (Except.error.inj h).symm

theorem createRequest_eq (d : Dispatch) :
    d.createRequest = fun n => (d.operation n).map (·.request) >>= d.schema.defaultRecord := by
  funext n
  unfold createRequest
  cases d.operation n <;> rfl

theorem encodeRequest_eq (d : Dispatch) :
    d.encodeRequest = fun n v =>
      (d.operation n).map (·.request) >>= fun r => d.schema.recordToBytes d.cap r v := by
  funext n v
  unfold encodeRequest
  cases d.operation n <;> rfl

theorem request_eq_ok_iff (h : (i.operations.map (·.uid)).Nodup) {n : UInt32} {r : RecordType} :
    ((ofInterface s config i).operation n).map (·.request) = .ok r ↔
      ∃ op ∈ i.operations, op.uid = n ∧ op.request = r := by
  have hop : ∀ op, (ofInterface s config i).operation n = .ok op ↔
      op ∈ i.operations ∧ op.uid = n := fun op => operation_eq_ok_iff h
  cases hresult : (ofInterface s config i).operation n with
  | ok op =>
    simp only [hresult, Except.ok.injEq] at hop
    simp only [Except.map, Except.ok.injEq]
    constructor
    · rintro rfl
      obtain ⟨hmem, hn⟩ := (hop op).mp rfl
      exact ⟨op, hmem, hn, rfl⟩
    · rintro ⟨other, hmem, hn, rfl⟩
      rw [(hop other).mpr ⟨hmem, hn⟩]
  | error e =>
    simp only [hresult, reduceCtorEq, false_iff] at hop
    simp only [Except.map, reduceCtorEq, false_iff]
    rintro ⟨op, hmem, hn, -⟩
    exact hop op ⟨hmem, hn⟩

theorem eq_unknown_of_request {d : Dispatch} {n : UInt32} {e : WireError}
    (h : (d.operation n).map (·.request) = .error e) :
    e = .unknownOperation d.interface.name.text n.toNat := by
  cases hresult : d.operation n with
  | ok op =>
    rw [hresult] at h
    cases h
  | error e' =>
    rw [hresult] at h
    obtain rfl := Except.error.inj h
    exact eq_unknown_of_operation hresult

theorem exists_response?_iff {op : Operation} :
    (∃ r, op.response? = some r) ↔ op.oneway = false := by
  simp [Operation.response?]

theorem defaultResponse_of_operation {d : Dispatch} {n : UInt32} {op : Operation}
    (h : d.operation n = .ok op) :
    d.defaultResponse n = match op.response? with
      | some r => some <$> d.schema.defaultRecord r
      | none => .ok none := by
  unfold defaultResponse
  rw [h]
  change (match op.response? with
    | some r => do return some (← d.schema.defaultRecord r)
    | none => Except.ok none) = _
  cases op.response? with
  | none => rfl
  | some r =>
    change (d.schema.defaultRecord r >>= fun v => pure (some v)) = _
    rw [bind_pure_comp]

theorem exists_exception_iff_declared (h : Interface.Built s decl i) {name : String} :
    (∃ r, (ofInterface s config i).exception name = .ok r) ↔
      ∃ e ∈ decl.decl.exceptions, config.wireName (i.name.child e.name) = name := by
  constructor
  · rintro ⟨r, hr⟩
    obtain ⟨e, ⟨he, -⟩, hname⟩ := (exception_eq_ok_iff h).mp hr
    exact ⟨e, he, hname⟩
  · rintro ⟨e, he, hname⟩
    obtain ⟨r, hr⟩ := exists_declares h he
    exact ⟨r, (exception_eq_ok_iff h).mpr ⟨e, hr, hname⟩⟩

theorem exists_response_iff_answered (h : (i.operations.map (·.uid)).Nodup) {n : UInt32} :
    (∃ r, (ofInterface s config i).response n = .ok r) ↔
      ∃ op ∈ i.operations, op.uid = n ∧ op.oneway = false := by
  simp only [response_eq_ok_iff h, ← exists_response?_iff]
  grind

theorem defaultResponse_eq_none_iff_oneway (h : (i.operations.map (·.uid)).Nodup) {n : UInt32} :
    (ofInterface s config i).defaultResponse n = .ok none ↔
      ∃ op ∈ i.operations, op.uid = n ∧ op.oneway = true := by
  constructor
  · intro hnone
    cases hresult : (ofInterface s config i).operation n with
    | error e =>
      unfold defaultResponse at hnone
      rw [hresult] at hnone
      cases hnone
    | ok op =>
      obtain ⟨hmem, hn⟩ := (operation_eq_ok_iff h).mp hresult
      refine ⟨op, hmem, hn, response?_eq_none_iff.mp ?_⟩
      rw [defaultResponse_of_operation hresult] at hnone
      cases hr : op.response? with
      | none => rfl
      | some r =>
        rw [hr] at hnone
        cases hdefault : (ofInterface s config i).schema.defaultRecord r with
        | error e => simp [hdefault] at hnone
        | ok v => simp [hdefault] at hnone
  · rintro ⟨op, hmem, hn, honeway⟩
    rw [defaultResponse_of_operation ((operation_eq_ok_iff h).mpr ⟨hmem, hn⟩),
      response?_eq_none_iff.mpr honeway]

theorem defaultResponse_eq_createResponse (h : (i.operations.map (·.uid)).Nodup) {op : Operation}
    (hop : op ∈ i.operations) (hanswered : op.oneway = false) :
    (ofInterface s config i).defaultResponse op.uid =
      some <$> (ofInterface s config i).createResponse op.uid := by
  obtain ⟨r, hr⟩ := exists_response?_iff.mpr hanswered
  have hresponse : (ofInterface s config i).response op.uid = .ok r :=
    (response_eq_ok_iff h).mpr ⟨op, hop, rfl, hr⟩
  rw [defaultResponse_of_operation ((operation_eq_ok_iff h).mpr ⟨hop, rfl⟩), hr, createResponse,
    hresponse]
  rfl

theorem defaultResponse_eq_error (h : (i.operations.map (·.uid)).Nodup) {n : UInt32}
    (hn : ∀ op ∈ i.operations, op.uid ≠ n) :
    (ofInterface s config i).defaultResponse n =
      .error (.unknownOperation i.name.text n.toNat) := by
  unfold defaultResponse
  cases hresult : (ofInterface s config i).operation n with
  | ok op =>
    obtain ⟨hmem, heq⟩ := (operation_eq_ok_iff h).mp hresult
    exact absurd heq (hn op hmem)
  | error e =>
    rw [eq_unknown_of_operation hresult]
    rfl

/-- In every schema that was built from a document the tables of each interface are exact, whatever
the configuration. -/
theorem ofInterface_exact (doc : Document) (s : Schema) (config : Config)
    (h : build doc = .ok s) :
    List.Forall₂ (fun decl i =>
        Interface.Realizes decl i ∧ Exact s config decl i (ofInterface s config i))
      doc.interfaces s.interfaces := by
  refine (interfaces_of_build h).1.imp ?_
  intro decl i hbuilt
  refine ⟨hbuilt.toRealizes, fun n op => operation_eq_ok_iff hbuilt.uids_nodup, ?_, ?_,
    fun n => exists_response_iff_answered hbuilt.uids_nodup, ?_,
    fun name => exists_exception_iff_declared hbuilt,
    fun n => defaultResponse_eq_none_iff_oneway hbuilt.uids_nodup,
    fun op => defaultResponse_eq_createResponse hbuilt.uids_nodup,
    fun n => defaultResponse_eq_error hbuilt.uids_nodup⟩
  · rw [createRequest_eq, encodeRequest_eq]
    exact transmits_of_find (d := ofInterface s config i)
      (fun n r => request_eq_ok_iff hbuilt.uids_nodup) fun n e => eq_unknown_of_request
  · exact transmits_of_find (d := ofInterface s config i)
      (fun n r => response_eq_ok_iff hbuilt.uids_nodup) fun n e => eq_unknown_of_response
  · exact serves_of_find (d := ofInterface s config i)
      (fun name r => exception_eq_ok_iff hbuilt) fun name e => eq_unknown_of_exception

/-- One operation is oneway, and without a separator the names of exceptions run together. -/
def alarms : Document where
  modules := [{
    name := "plant"
    modules := []
    types := []
    interfaces := [{
      name := "Alarms"
      uid := 4
      operations := [
        { name := "ring", uid := 9, params := [⟨"zone", "string", true, false⟩], returns := none,
          oneway := true },
        { name := "count", uid := 2, params := [], returns := some "int", oneway := false }]
      exceptions := [⟨"Jam", []⟩, ⟨"Jammed", [⟨"zone", "string"⟩]⟩]
      constants := [] }]
    constants := [] }]

theorem ofInterface_exact_alarms :
    ∃ s i, build alarms = .ok s ∧ s.interfaces = [i] ∧
      (∃ r, (ofInterface s { nameSeparator := "" } i).exception "plantAlarmsJammed" = .ok r) ∧
      ∀ r, (ofInterface s { nameSeparator := "" } i).exception "plant::Alarms::Jam" ≠ .ok r := by
  have hbuilt : (build alarms).toOption.isSome = true := by decide +kernel
  cases h : build alarms with
  | error e =>
    rw [h] at hbuilt
    cases hbuilt
  | ok s =>
    have hall := ofInterface_exact alarms s { nameSeparator := "" } h
    generalize hinterfaces : s.interfaces = interfaces at hall
    obtain _ | @⟨_, i, _, _, ⟨hrealizes, hexact⟩, hnone⟩ := hall
    obtain rfl := List.forall₂_nil_left_iff.mp hnone
    refine ⟨s, i, rfl, hinterfaces, ?_, ?_⟩
    · rw [hexact.exists_exception_iff, hrealizes.name_eq]
      exact ⟨⟨"Jammed", [⟨"zone", "string"⟩]⟩, by decide, by decide +kernel⟩
    · intro r hr
      obtain ⟨e, he, hname⟩ := (hexact.exists_exception_iff _).mp ⟨r, hr⟩
      rw [hrealizes.name_eq] at hname
      revert e
      decide +kernel

end WireSchema.Dispatch
