import WireSchema.Value.Size

/-!
# Encoding values

Records are written member by member, sequences as a count and their elements, maps as a count and
alternating keys and values. Sequences and maps have at most `cap` entries. The keys of a map differ
in their wire form, which is checked before anything of the map is written.
-/
namespace WireSchema.Schema

open Wire

/-- The first fault among the wire forms of a map's keys: a key without one, or a repeated one. -/
def keyFault? (typeName : String) :
    (seen : List (List UInt8)) → List (Except WireError (List UInt8)) → Option WireError
  | _, [] => none
  | _, .error e :: _ => some e
  | seen, .ok key :: keys =>
    if key ∈ seen then some (.duplicateMapKey typeName) else keyFault? typeName (key :: seen) keys

def cappedCount (typeName : String) (cap n : Nat) : Output :=
  if cap < n then .fail (.countExceeded typeName cap n) else .count n

variable (s : Schema) (cap : Nat)

mutual

def encode (id : TypeId) (v : Value) : Output :=
  match s.type id, v with
  | .bool, .bool b => .bool b
  | .numeric n, v =>
    match n.ofValue? v with
    | some w => .number n w
    | none => .fail (.typeMismatch n.keyword)
  | .text _, .text t => .text t
  | .blob, .blob bytes => .blob bytes
  | .enumeration e, .ordinal v =>
    if e.contains v then .number .int32 v else .fail (.invalidEnumValue e.name.text v.toInt)
  | .record r, .record _ fields =>
    if r.fits fields then encodeFields r.members fields else .fail (.typeMismatch r.name.text)
  | .sequence q, .sequence elements =>
    cappedCount q.name.text cap elements.length ++ encodeElements q.element elements
  | .map m, .map pairs =>
    if cap < pairs.length then .fail (.countExceeded m.name.text cap pairs.length)
    else
      match keyFault? m.name.text [] (keyForms m.key pairs) with
      | some e => .fail e
      | none => .count pairs.length ++ encodePairs m.key m.value pairs
  | t, _ => .fail (.typeMismatch t.describe)

def encodeFields : List Member → List (String × Value) → Output
  | m :: members, (_, v) :: fields => encode m.type v ++ encodeFields members fields
  | _, _ => .done

def encodeElements (element : TypeId) : List Value → Output
  | [] => .done
  | v :: elements => encode element v ++ encodeElements element elements

def encodePairs (key value : TypeId) : List (Value × Value) → Output
  | [] => .done
  | (k, v) :: pairs => encode key k ++ encode value v ++ encodePairs key value pairs

/-- The wire forms of the keys, each from its own sink. -/
def keyForms (key : TypeId) : List (Value × Value) → List (Except WireError (List UInt8))
  | [] => []
  | (k, _) :: pairs => (do let _ ← s.size key k; (encode key k).result) :: keyForms key pairs

end

/-- The wire form of a value. Its size is found first. -/
def toBytes (id : TypeId) (v : Value) : Except WireError (List UInt8) := do
  let _ ← s.size id v
  (s.encode cap id v).result

def encodeRecord (r : RecordType) : Value → Output
  | .record _ fields =>
    if r.fits fields then s.encodeFields cap r.members fields else .fail (.typeMismatch r.name.text)
  | _ => .fail (.typeMismatch r.name.text)

def recordToBytes (r : RecordType) (v : Value) : Except WireError (List UInt8) := do
  let _ ← s.sizeRecord r v
  (s.encodeRecord cap r v).result

end WireSchema.Schema
