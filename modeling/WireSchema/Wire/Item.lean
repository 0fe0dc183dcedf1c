import WireSchema.Wire.Shape

/-!
# Items of a stream

A stream is written and read item by item: values of the shapes, ordinals of enumerations and
counts.
-/
namespace WireSchema.Wire

inductive Item where
  | plain (s : Shape) (v : s.Carrier)
  | ordinal (v : Int32)
  | count (n : Nat)

namespace Item

def write : Item → Output
  | .plain s v => s.write v
  | .ordinal v => .number .int32 v
  | .count n => .count n

def size : Item → Nat
  | .plain s v => s.size v
  | .ordinal _ => 4
  | .count _ => 4

/-- Writes items one after the other, up to the first failure. -/
def writeAll (items : List Item) : Output :=
  items.foldr (fun item rest => item.write ++ rest) .done

end Item

inductive ItemKind where
  | plain (s : Shape)
  | ordinal
  | count (typeName : String) (max : Nat)

namespace ItemKind

def read : ItemKind → Decoder Item
  | .plain s => do return .plain s (← s.read)
  | .ordinal => do return .ordinal (← Decoder.number .int32)
  | .count typeName max => do return .count (← Decoder.count typeName max)

def readAll : List ItemKind → Decoder (List Item)
  | [] => pure []
  | k :: kinds => do
    let item ← k.read
    let items ← readAll kinds
    return item :: items

end ItemKind
end WireSchema.Wire
