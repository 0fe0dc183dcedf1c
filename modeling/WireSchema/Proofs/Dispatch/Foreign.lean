import WireSchema.Proofs.Dispatch
import WireSchema.Proofs.Schema.Acceptance
import WireSchema.Proofs.Value.Defaults
import WireSchema.Proofs.Value.Shape

/-!
# Messages of other operations

A message is judged by its fields. The name that a record value carries is not looked at, so that a
message of another operation is refused if its fields have other names or other shapes, and is taken
for one of the own messages if they are alike.
-/
namespace WireSchema

open Wire Schema

namespace Schema

variable {s : Schema} {cap : Nat} {r : RecordType} {v : Value}

theorem fills_iff {P : TypeId → Value → Prop} {members : List Member}
    {fields : List (String × Value)} :
    Fills P members fields ↔ fields.map (·.1) = members.map (·.name) ∧
      ∀ p ∈ members.zip fields, P p.1.type p.2.2 := by
  refine ⟨fun h => ⟨h.names, h.zip⟩, ?_⟩
  rintro ⟨hnames, hzip⟩
  induction members generalizing fields with
  | nil =>
    obtain rfl : fields = [] := by simpa using hnames
    exact .nil
  | cons m members ih =>
    cases fields with
    | nil => simp at hnames
    | cons f fields =>
      obtain ⟨hname, hnames⟩ := List.cons_eq_cons.mp hnames
      obtain ⟨hf, hzip⟩ := List.forall_mem_cons.mp hzip
      exact .cons ⟨hname, hf⟩ (ih hnames hzip)

theorem fits_iff {fields : List (String × Value)} :
    r.fits fields ↔ Fills (fun _ _ => True) r.members fields := by
  simp [fills_iff, RecordType.fits]

/-- The record values that have a field for each member, in their order, as `P` says. The name of
the record does not count. -/
def RecordType.Matches (P : TypeId → Value → Prop) (r : RecordType) (v : Value) : Prop :=
  ∃ name fields, v = .record name fields ∧ Fills P r.members fields

theorem matches_record_iff {P : TypeId → Value → Prop} {name : String}
    {fields : List (String × Value)} :
    r.Matches P (.record name fields) ↔ Fills P r.members fields := by
  simp [RecordType.Matches]

/-- A record has a size exactly if its fields have the names and the shapes of the members. -/
theorem matched_sizeRecord (r : RecordType) (v : Value) :
    Matched (r.Matches s.HasShape v) (s.sizeRecord r v) := by
  cases v with
  | record name fields =>
    rw [sizeRecord, matches_record_iff]
    split
    next hfit =>
      have hnames := names_of_fits hfit
      refine (matched_sizeFields hnames fun f _ id => matched_size id f.2).congr ?_
      rw [fills_iff, and_iff_right hnames]
    next hfit => exact .of_mismatch fun h => hfit (fits_iff.mpr (h.imp fun _ _ _ => trivial))
  | _ => exact .of_mismatch (by simp [RecordType.Matches])

theorem sizeRecord_of_names (h : ¬ r.Matches (fun _ _ => True) v) :
    s.sizeRecord r v = .error (.typeMismatch r.name.text) := by
  cases v with
  | record name fields =>
    rw [matches_record_iff, ← fits_iff] at h
    rw [sizeRecord, if_neg h]
    rfl
  | _ => rfl

theorem recordToBytes_of_size_error {e : WireError} (h : s.sizeRecord r v = .error e) :
    s.recordToBytes cap r v = .error e := by
  unfold recordToBytes
  rw [h]
  rfl

theorem recordToBytes_of_shape (h : ¬ r.Matches s.HasShape v) :
    ∃ typeName, s.recordToBytes cap r v = .error (.typeMismatch typeName) := by
  rcases matched_sizeRecord r v with ⟨hshape, -⟩ | ⟨-, typeName, hsize⟩
  · exact absurd hshape h
  · exact ⟨typeName, recordToBytes_of_size_error hsize⟩

theorem exists_encodeFields_iff {members : List Member} {fields : List (String × Value)}
    (hnames : fields.map (·.1) = members.map (·.name)) :
    (∃ bytes, (s.encodeFields cap members fields).result = .ok bytes) ↔
      Fills (s.HasType cap) members fields := by
  constructor
  · rintro ⟨bytes, h⟩
    refine encodeFields_induction (P := fun id v _ => s.HasType cap id v)
      (F := fun members fields _ => Fills (s.HasType cap) members fields)
      .nil ?_ (fun f _ => hasType_of_encode) hnames h
    intro m members v fields x y hv hfields
    exact .cons ⟨rfl, hv⟩ hfields
  · exact fun h => exists_encodeFields hnames fun p hp => exists_encode_of_hasType (h.zip p hp)

/-- A record is written exactly if its fields are values of the types of the members. -/
theorem exists_recordToBytes_iff :
    (∃ bytes, s.recordToBytes cap r v = .ok bytes) ↔ r.Matches (s.HasType cap) v := by
  simp only [recordToBytes_eq_result_iff, encodeRecord_eq_ok_iff]
  constructor
  · rintro ⟨bytes, name, fields, rfl, hfit, hbytes⟩
    have hfills := (exists_encodeFields_iff (names_of_fits hfit)).mp ⟨bytes, hbytes⟩
    exact ⟨name, fields, rfl, hfills⟩
  · rintro ⟨name, fields, rfl, hfills⟩
    obtain ⟨bytes, hbytes⟩ := (exists_encodeFields_iff hfills.names).mpr hfills
    have hfit := fits_iff.mpr (hfills.imp fun _ _ _ => trivial)
    exact ⟨bytes, name, fields, rfl, hfit, hbytes⟩

end Schema

namespace Dispatch

variable {s : Schema} {doc : Document} {i : Interface}

/-- How the encoder of the message `r` treats messages of another kind, whose record is `other`: by
the names and the shapes of their fields, whatever record they come from. -/
structure Screens (s : Schema) (cap : Nat) (r other : RecordType) (create : Except WireError Value)
    (encode : Value → Except WireError (List UInt8)) : Prop where
  other_names : ∀ v, v.typeName? = some other.name.text → ¬ r.Matches (fun _ _ => True) v →
    encode v = .error (.typeMismatch r.name.text)
  other_shape : ∀ v, v.typeName? = some other.name.text → ¬ r.Matches s.HasShape v →
    ∃ typeName, encode v = .error (.typeMismatch typeName)
  accepts_iff : ∀ v, v.typeName? = some other.name.text →
    ((∃ bytes, encode v = .ok bytes) ↔ r.Matches (s.HasType cap) v)
  renamed : ∀ fields,
    encode (.record other.name.text fields) = encode (.record r.name.text fields)
  empty_refused : ∀ v, create = .ok v →
    other.members.map (·.name) ≠ r.members.map (·.name) →
    encode v = .error (.typeMismatch r.name.text)
  empty_accepted : ∀ v, create = .ok v → other.members = r.members →
    ∃ bytes, encode v = .ok bytes

theorem screens (hfull : s.Populated) (cap : Nat) (r other : RecordType) :
    Screens s cap r other (s.defaultRecord other) (s.recordToBytes cap r) where
  other_names _ _ h := recordToBytes_of_size_error (sizeRecord_of_names h)
  other_shape _ _ h := recordToBytes_of_shape h
  accepts_iff _ _ := exists_recordToBytes_iff
  renamed _ := rfl
  empty_refused v hv hne := by
    obtain ⟨fields, rfl, hfills⟩ := emptyRecord_eq_ok hv
    apply recordToBytes_of_size_error
    apply sizeRecord_of_names
    rw [matches_record_iff]
    exact fun h => hne (hfills.names.symm.trans h.names)
  empty_accepted v hv heq := by
    obtain ⟨fields, rfl, hfills⟩ := emptyRecord_eq_ok hv
    rw [exists_recordToBytes_iff, matches_record_iff, ← heq]
    exact hfills.imp fun _ _ h => (settles_defaultWithin hfull cap h).hasType

/-- In every schema that was built from a document, the messages of one operation are screened alike
by the encoders of every other one. An operation without a response encodes none. -/
theorem encode_screens_foreign (doc : Document) (s : Schema) (h : build doc = .ok s)
    (config : Config) (i : Interface) (hi : i ∈ s.interfaces) (op other : Operation)
    (hop : op ∈ i.operations) (hother : other ∈ i.operations) :
    Screens s config.maxElements.toNat op.request other.request
        ((ofInterface s config i).createRequest other.uid)
        ((ofInterface s config i).encodeRequest op.uid) ∧
      (∀ r r', op.response? = some r → other.response? = some r' →
        Screens s config.maxElements.toNat r r'
          ((ofInterface s config i).createResponse other.uid)
          ((ofInterface s config i).encodeResponse op.uid)) ∧
      (op.oneway = true → ∀ v, (ofInterface s config i).encodeResponse op.uid v =
        .error (.unknownResponse i.name.text op.uid.toNat)) := by
  obtain ⟨decl, -, hbuilt⟩ := exists_of_mem_right (interfaces_of_build h).1 hi
  have hfull := populated_of_build h
  have hrequest : ∀ {op}, op ∈ i.operations → (ofInterface s config i).operation op.uid = .ok op :=
    fun hop => (operation_eq_ok_iff hbuilt.uids_nodup).mpr ⟨hop, rfl⟩
  have hresponse : ∀ {op r}, op ∈ i.operations → op.response? = some r →
      (ofInterface s config i).response op.uid = .ok r :=
    fun hop hr => (response_eq_ok_iff hbuilt.uids_nodup).mpr ⟨_, hop, rfl, hr⟩
  refine ⟨?_, ?_, ?_⟩
  · have hcreate : (ofInterface s config i).createRequest other.uid =
        s.defaultRecord other.request := by
      rw [createRequest, hrequest hother]
      rfl
    have hencode : (ofInterface s config i).encodeRequest op.uid =
        s.recordToBytes config.maxElements.toNat op.request := by
      funext v
      rw [encodeRequest, hrequest hop]
      rfl
    rw [hcreate, hencode]
    exact screens hfull _ _ _
  · intro r r' hr hr'
    have hcreate : (ofInterface s config i).createResponse other.uid = s.defaultRecord r' := by
      rw [createResponse, hresponse hother hr']
      rfl
    have hencode : (ofInterface s config i).encodeResponse op.uid =
        s.recordToBytes config.maxElements.toNat r := by
      funext v
      rw [encodeResponse, hresponse hop hr]
      rfl
    rw [hcreate, hencode]
    exact screens hfull _ _ _
  · intro honeway v
    cases hfound : (ofInterface s config i).response op.uid with
    | error e =>
      rw [encodeResponse, hfound, eq_unknown_of_response hfound]
      rfl
    | ok r =>
      obtain ⟨twin, htwin, huid, hanswered⟩ :=
        (exists_response_iff_answered hbuilt.uids_nodup).mp ⟨r, hfound⟩
      obtain rfl := List.inj_on_of_nodup_map hbuilt.uids_nodup htwin hop huid
      simp [honeway] at hanswered

/-- Two operations that take nothing and answer nothing, and one that is told where to go. -/
def rover : Document where
  modules := [{
    name := "field"
    modules := []
    types := []
    interfaces := [{
      name := "Rover"
      uid := 7
      operations := [
        { name := "start", uid := 1, params := [], returns := none, oneway := false },
        { name := "stop", uid := 2, params := [], returns := none, oneway := false },
        { name := "move", uid := 3, params := [⟨"place", "string", true, false⟩], returns := none,
          oneway := true }]
      exceptions := []
      constants := [] }]
    constants := [] }]

def roverStart : Operation := ⟨⟨["field", "Rover", "start"]⟩, 1, [], none, false⟩

def roverStop : Operation := ⟨⟨["field", "Rover", "stop"]⟩, 2, [], none, false⟩

def roverMove : Operation :=
  ⟨⟨["field", "Rover", "move"]⟩, 3, [⟨"place", ⟨0⟩, true, false⟩], none, true⟩

def roverInterface : Interface :=
  ⟨⟨["field", "Rover"]⟩, 7, [roverStart, roverStop, roverMove], [], []⟩

theorem interfaces_rover : ∃ s, build rover = .ok s ∧ s.interfaces = [roverInterface] :=
  exists_ok_of_toOption (by decide +kernel)

def stopRequest : Value := .record "field::Rover::stopRequest" []

theorem createRequest_stop (s : Schema) :
    (ofInterface s {} roverInterface).createRequest 2 = .ok stopRequest := by
  have hfound : (ofInterface s {} roverInterface).operation 2 = .ok roverStop :=
    (operation_eq_ok_iff (by decide)).mpr ⟨by decide, rfl⟩
  rw [createRequest, hfound]
  rfl

/-- An empty request to stop is not taken for a request to move. -/
theorem encode_screens_foreign_rover :
    ∃ s, build rover = .ok s ∧ (ofInterface s {} roverInterface).createRequest 2 = .ok stopRequest ∧
      (ofInterface s {} roverInterface).encodeRequest 3 stopRequest =
        .error (.typeMismatch "field::Rover::moveRequest") ∧
      ∀ v, (ofInterface s {} roverInterface).encodeResponse 3 v =
        .error (.unknownResponse "field::Rover" 3) := by
  obtain ⟨s, hs, hinterfaces⟩ := interfaces_rover
  have hi : roverInterface ∈ s.interfaces := by rw [hinterfaces]; exact List.mem_singleton_self _
  obtain ⟨hscreens, -, honeway⟩ := encode_screens_foreign rover s hs {} roverInterface hi
    roverMove roverStop (by decide) (by decide)
  exact ⟨s, hs, createRequest_stop s,
    hscreens.empty_refused stopRequest (createRequest_stop s) (by decide), honeway rfl⟩

/-- The empty request to stop is taken for a request to start, which has no fields, either. -/
theorem encode_accepts_foreign_rover :
    ∃ s, build rover = .ok s ∧ roverInterface ∈ s.interfaces ∧
      roverStart ∈ roverInterface.operations ∧ roverStop ∈ roverInterface.operations ∧
      roverStart.uid ≠ roverStop.uid ∧
      stopRequest.typeName? = some roverStop.request.name.text ∧
      (ofInterface s {} roverInterface).createRequest roverStop.uid = .ok stopRequest ∧
      (ofInterface s {} roverInterface).encodeRequest roverStart.uid stopRequest = .ok [] := by
  obtain ⟨s, hs, hinterfaces⟩ := interfaces_rover
  have hfound : (ofInterface s {} roverInterface).operation 1 = .ok roverStart :=
    (operation_eq_ok_iff (by decide)).mpr ⟨by decide, rfl⟩
  have hencode : (ofInterface s {} roverInterface).encodeRequest 1 stopRequest = .ok [] := by
    rw [encodeRequest, hfound]
    rfl
  exact ⟨s, hs, by simp [hinterfaces], by decide, by decide, by decide, by decide,
    createRequest_stop s, hencode⟩

end Dispatch
end WireSchema
