import WireSchema.Value.Encode

/-!
# Decoding values

Decoding follows the type. A count above the cap is refused before any entry is read, and a key of a
map that repeats the wire form of an earlier one is refused before its value is read.

Records are read without consuming anything of their own, so a bound on their nesting is needed:
until a byte is consumed, a chain of records inside each other longer than the table repeats itself
and would never end.
-/
namespace WireSchema.Schema

open Wire

/-- Reads `n` pairs with distinct keys. `seen` holds the wire forms of the keys so far and `done`
the pairs, last one first. -/
def decodePairs (typeName : String) (keyForm : Value → Except WireError (List UInt8))
    (key value : Decoder Value) : (n : Nat) → (seen : List (List UInt8)) →
    (done : List (Value × Value)) → Decoder (List (Value × Value))
  | 0, _, done => return done.reverse
  | n + 1, seen, done => do
    let k ← key
    match keyForm k with
    | .error e => .fail e
    | .ok form =>
      if form ∈ seen then .fail (.duplicateMapKey typeName)
      else
        let v ← value
        decodePairs typeName keyForm key value n (form :: seen) ((k, v) :: done)

def decodeMembers (decode : TypeId → Decoder Value) (members : List Member) :
    Decoder (List (String × Value)) :=
  members.mapM fun m => do return (m.name, ← decode m.type)

variable (s : Schema) (cap : Nat)

/-- Decodes a value whose parts are decoded by `part`. -/
def decodeWith (part : TypeId → Decoder Value) (id : TypeId) : Decoder Value :=
  match s.type id with
  | .bool => return .bool (← Decoder.bool)
  | .numeric n => return n.toValue (← Decoder.number n)
  | .text _ => return .text (← Decoder.text)
  | .blob => return .blob (← Decoder.blob)
  | .enumeration e => do
    let v ← Decoder.number .int32
    if e.contains v then return .ordinal v else .fail (.invalidEnumValue e.name.text v.toInt)
  | .record r => return .record r.name.text (← decodeMembers part r.members)
  | .sequence q => do
    let n ← Decoder.count q.name.text cap
    return .sequence (← (part q.element).times n)
  | .map m => do
    let n ← Decoder.count m.name.text cap
    return .map
      (← decodePairs m.name.text (s.toBytes cap m.key) (part m.key) (part m.value) n [] [])
  | .forward name => .fail (.typeMismatch name.text)

/-- Decodes a value in which at most `depth` types hold each other. -/
def decodeWithin : (depth : Nat) → TypeId → Decoder Value
  | 0, _ => .endless
  | depth + 1, id => s.decodeWith cap (decodeWithin depth) id

/-- How deep a value can nest that is read from `unread` bytes: between two consumed bytes there is
room for every type of the table once. -/
def depthFor (unread : Nat) : Nat := (unread + 1) * (s.types.size + 2)

def decode (id : TypeId) : Decoder Value := fun input =>
  s.decodeWithin cap (s.depthFor input.length) id input

/-- Decodes one value from the front. What follows it does not matter. -/
def ofBytes (id : TypeId) (bytes : List UInt8) : Except WireError Value :=
  (s.decode cap id bytes).1

/-- Decodes a record, which need not be in the table. -/
def decodeRecord (r : RecordType) : Decoder Value := do
  return .record r.name.text (← decodeMembers (s.decode cap) r.members)

end WireSchema.Schema
