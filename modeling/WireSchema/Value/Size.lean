import WireSchema.Value.Basic
import WireSchema.Wire.Shape

/-!
# Sizes of values

The number of bytes that a value of a type takes on the wire. Only the shape of the value counts:
ranges, enumerators, caps and repeated keys are not checked.
-/
namespace WireSchema.Schema

open Wire

variable (s : Schema)

mutual

def size (id : TypeId) (v : Value) : Except WireError Nat :=
  match s.type id, v with
  | .bool, .bool _ => return 4
  | .enumeration _, .ordinal _ => return 4
  | .numeric n, .int _ => return n.width
  | .numeric n, .uint _ => return n.width
  | .numeric n, .float _ => return n.width
  | .text _, .text t => return textSize t
  | .blob, .blob bytes => return blobSize bytes.length
  | .record r, .record _ fields =>
    if r.fits fields then sizeFields r.members fields else throw (.typeMismatch r.name.text)
  | .sequence q, .sequence elements => return 4 + (← sizeElements q.element elements)
  | .map m, .map pairs => return 4 + (← sizePairs m.key m.value pairs)
  | t, _ => throw (.typeMismatch t.describe)

def sizeFields : List Member → List (String × Value) → Except WireError Nat
  | m :: members, (_, v) :: fields => return (← size m.type v) + (← sizeFields members fields)
  | _, _ => return 0

def sizeElements (element : TypeId) : List Value → Except WireError Nat
  | [] => return 0
  | v :: elements => return (← size element v) + (← sizeElements element elements)

def sizePairs (key value : TypeId) : List (Value × Value) → Except WireError Nat
  | [] => return 0
  | (k, v) :: pairs => return (← size key k) + (← size value v) + (← sizePairs key value pairs)

end

/-- The size of a record, which need not be in the table. -/
def sizeRecord (r : RecordType) : Value → Except WireError Nat
  | .record _ fields =>
    if r.fits fields then s.sizeFields r.members fields else throw (.typeMismatch r.name.text)
  | _ => throw (.typeMismatch r.name.text)

end WireSchema.Schema
