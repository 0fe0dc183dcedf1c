import WireSchema.Name
import WireSchema.Wire.Numeric

/-!
# Resolved types

The types of a schema refer to each other by their position in the schema's table. Primitive types
have no name of their own; every other type has a qualified name.
-/
namespace WireSchema

/-- Position of a type in the table of its schema. -/
structure TypeId where
  index : Nat
deriving DecidableEq, Repr, Inhabited

namespace Schema

structure Member where
  name : String
  type : TypeId
deriving DecidableEq, Repr, Inhabited

/-- What a record stands for. Requests and responses belong to the operation with the given number.
-/
inductive RecordKind where
  | plain
  | exception
  | request (number : UInt32)
  | response (number : UInt32)
deriving DecidableEq, Repr, Inhabited

structure RecordType where
  name : QualifiedName
  kind : RecordKind
  members : List Member
deriving DecidableEq, Repr, Inhabited

structure SequenceType where
  name : QualifiedName
  element : TypeId
deriving DecidableEq, Repr, Inhabited

structure MapType where
  name : QualifiedName
  key : TypeId
  value : TypeId
deriving DecidableEq, Repr, Inhabited

structure Enumerator where
  name : String
  value : Int32
deriving DecidableEq, Repr, Inhabited

structure EnumType where
  name : QualifiedName
  enumerators : List Enumerator
deriving DecidableEq, Repr, Inhabited

def EnumType.contains (e : EnumType) (v : Int32) : Bool :=
  e.enumerators.any (·.value == v)

end Schema

open Schema

inductive TypeDef where
  | bool
  | numeric (n : Numeric)
  | text (wide : Bool)
  | blob
  | record (r : RecordType)
  | sequence (s : SequenceType)
  | map (m : MapType)
  | enumeration (e : EnumType)
  /-- A type that is declared and not defined. -/
  | forward (name : QualifiedName)
deriving DecidableEq, Repr, Inhabited

namespace TypeDef

/-- Records, sequences, maps and types that are only declared. -/
def isCompound : TypeDef → Bool
  | .record _ | .sequence _ | .map _ | .forward _ => true
  | _ => false

def name? : TypeDef → Option QualifiedName
  | .record r => some r.name
  | .sequence s => some s.name
  | .map m => some m.name
  | .enumeration e => some e.name
  | .forward name => some name
  | _ => none

/-- Whether the values have a total order, so that they can be keys of a map. -/
def isOrderable : TypeDef → Bool
  | .bool | .text _ | .blob | .enumeration _ => true
  | .numeric n => !n.isFloat
  | _ => false

def describe : TypeDef → String
  | .bool => "bool"
  | .numeric n => n.keyword
  | .text false => "string"
  | .text true => "wstring"
  | .blob => "buffer"
  | .record r => r.name.text
  | .sequence s => s.name.text
  | .map m => m.name.text
  | .enumeration e => e.name.text
  | .forward name => name.text

/-- Names of primitive types. Most numeric kinds have several. -/
def primitiveNames : List (String × TypeDef) := [
  ("bool", .bool), ("boolean", .bool),
  ("string", .text false), ("char*", .text false), ("wstring", .text true),
  ("buffer", .blob), ("opaque", .blob), ("bytes", .blob),
  ("float", .numeric .float32), ("double", .numeric .float64),
  ("char", .numeric .int8), ("octet", .numeric .uint8), ("byte", .numeric .uint8),
  ("short", .numeric .int16), ("int", .numeric .int32), ("long", .numeric .int32),
  ("hyper", .numeric .int64),
  ("mode_t", .numeric .uint32), ("uid_t", .numeric .uint32), ("gid_t", .numeric .uint32),
  ("size_t", .numeric .uint64), ("off_t", .numeric .uint64), ("ino_t", .numeric .uint64),
  ("dev_t", .numeric .uint64),
  ("ssize_t", .numeric .int64), ("time_t", .numeric .int64),
  ("int8", .numeric .int8), ("int8_t", .numeric .int8),
  ("uint8", .numeric .uint8), ("uint8_t", .numeric .uint8),
  ("int16", .numeric .int16), ("int16_t", .numeric .int16),
  ("uint16", .numeric .uint16), ("uint16_t", .numeric .uint16),
  ("int32", .numeric .int32), ("int32_t", .numeric .int32),
  ("uint32", .numeric .uint32), ("uint32_t", .numeric .uint32),
  ("int64", .numeric .int64), ("int64_t", .numeric .int64),
  ("uint64", .numeric .uint64), ("uint64_t", .numeric .uint64)]

def primitive? (name : String) : Option TypeDef := primitiveNames.lookup name

end TypeDef
end WireSchema
