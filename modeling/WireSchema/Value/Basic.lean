import WireSchema.Schema.Basic

/-!
# Values

A value of any schema type. A value does not know its type; it is checked when the two are paired.
-/
namespace WireSchema

open Binary

inductive Value where
  | bool (b : Bool)
  /-- A value of a signed integer kind. -/
  | int (v : Int64)
  /-- A value of an unsigned integer kind. -/
  | uint (v : UInt64)
  | float (x : Binary64)
  | text (s : String)
  | blob (bytes : List UInt8)
  | ordinal (v : Int32)
  /-- Fields in the order of the members. -/
  | record (typeName : String) (fields : List (String × Value))
  | sequence (elements : List Value)
  /-- Pairs in the order in which they are written. -/
  | map (pairs : List (Value × Value))
deriving Repr, Inhabited

namespace Value

def field? (v : Value) (name : String) : Option Value :=
  match v with
  | .record _ fields => fields.lookup name
  | _ => none

def typeName? : Value → Option String
  | .record typeName _ => some typeName
  | _ => none

end Value

/-- Whether the fields have the names of the members, in their order. -/
def Schema.RecordType.fits (r : Schema.RecordType) (fields : List (String × Value)) : Bool :=
  fields.map (·.1) == r.members.map (·.name)

namespace Numeric

/-- The word of the kind that a value stands for, if it has one. -/
def ofValue? : (n : Numeric) → Value → Option n.Word
  | .int8, .int v => if holds .int8 v.toInt then some v.toInt8 else none
  | .uint8, .uint v => if holds .uint8 v.toNat then some v.toUInt8 else none
  | .int16, .int v => if holds .int16 v.toInt then some v.toInt16 else none
  | .uint16, .uint v => if holds .uint16 v.toNat then some v.toUInt16 else none
  | .int32, .int v => if holds .int32 v.toInt then some v.toInt32 else none
  | .uint32, .uint v => if holds .uint32 v.toNat then some v.toUInt32 else none
  | .int64, .int v => some v
  | .uint64, .uint v => some v
  | .float32, .float x => some x.narrow
  | .float64, .float x => some x
  | _, _ => none

def toValue : (n : Numeric) → n.Word → Value
  | .int8, w => .int w.toInt64
  | .uint8, w => .uint w.toUInt64
  | .int16, w => .int w.toInt64
  | .uint16, w => .uint w.toUInt64
  | .int32, w => .int w.toInt64
  | .uint32, w => .uint w.toUInt64
  | .int64, w => .int w
  | .uint64, w => .uint w
  | .float32, w => .float w.widen
  | .float64, w => .float w

end Numeric
end WireSchema
