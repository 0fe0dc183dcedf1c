import WireSchema.Value.Basic
import WireSchema.Wire.Basic

/-!
# Empty values

Every type that can be defaulted has an empty value: zero, false, nothing in it, or the first
enumerator. The empty value of a record holds the empty values of its members.
-/
namespace WireSchema

open Binary Schema

namespace Numeric

def zero (n : Numeric) : Value :=
  if n.isFloat then .float .zero else if n.isSigned then .int 0 else .uint 0

end Numeric

namespace Schema

variable (s : Schema)

/-- The empty value of a type. `depth` bounds how many records hold each other: a chain longer than
the table comes back to a record that it already holds. -/
def defaultWithin : (depth : Nat) → TypeId → Except WireError Value
  | 0, _ => .error .endlessRecord
  | depth + 1, id =>
    match s.type id with
    | .bool => .ok (.bool false)
    | .numeric n => .ok n.zero
    | .text _ => .ok (.text "")
    | .blob => .ok (.blob [])
    | .enumeration e => .ok (.ordinal ((e.enumerators.head?.map (·.value)).getD 0))
    | .record r => do
      let fields ← r.members.mapM fun m => do return (m.name, ← defaultWithin depth m.type)
      return .record r.name.text fields
    | .sequence _ => .ok (.sequence [])
    | .map _ => .ok (.map [])
    | .forward name => .error (.typeMismatch name.text)

def defaultValue (id : TypeId) : Except WireError Value :=
  s.defaultWithin (s.types.size + 1) id

def defaultRecord (r : RecordType) : Except WireError Value := do
  let fields ← r.members.mapM fun m => do return (m.name, ← s.defaultValue m.type)
  return .record r.name.text fields

end Schema
end WireSchema
