import WireSchema.Binary.Float

/-!
# JSON values

Numbers keep the difference between integers and floating-point numbers, and every floating-point
number is finite. Fields of an object keep their order, and a repeated key stays visible.
-/
namespace WireSchema

open Binary

inductive Json where
  | null
  | bool (b : Bool)
  | int (v : Int)
  | float (x : Binary64) (finite : x.isFinite = true)
  | str (s : String)
  | arr (items : List Json)
  | obj (fields : List (String × Json))
deriving Inhabited, Repr

namespace Json

def ofDouble? (x : Binary64) : Option Json :=
  if h : x.isFinite = true then some (.float x h) else none

def text? : Json → Option String
  | .str s => some s
  | _ => none

def bool? : Json → Option Bool
  | .bool b => some b
  | _ => none

def items? : Json → Option (List Json)
  | .arr items => some items
  | _ => none

def int64? : Json → Option Int64
  | .int v =>
    if -0x8000000000000000 ≤ v ∧ v < 0x8000000000000000 then some (Int64.ofInt v) else none
  | _ => none

def uint32? : Json → Option UInt32
  | .int v => if 0 ≤ v ∧ v < 0x100000000 then some (UInt32.ofNat v.toNat) else none
  | _ => none

/-- The first value under a key. -/
def field? (key : String) : Json → Option Json
  | .obj fields => fields.lookup key
  | _ => none

end Json
end WireSchema
