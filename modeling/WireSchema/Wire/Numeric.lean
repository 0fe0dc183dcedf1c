import WireSchema.Binary.Float
import WireSchema.Wire.Basic

/-!
# Numeric kinds

Ten kinds of fixed width: integers of one, two, four and eight bytes with and without sign, and the
two floating-point precisions. A value of a kind is a word of it.
-/
namespace WireSchema

open Binary Wire

inductive Numeric where
  | int8
  | uint8
  | int16
  | uint16
  | int32
  | uint32
  | int64
  | uint64
  | float32
  | float64
deriving DecidableEq, Repr, Inhabited

namespace Numeric

/-- Width on the wire, in bytes. -/
def width : Numeric → Nat
  | .int8 | .uint8 => 1
  | .int16 | .uint16 => 2
  | .int32 | .uint32 | .float32 => 4
  | .int64 | .uint64 | .float64 => 8

/-- Floating-point kinds count as signed. -/
def isSigned : Numeric → Bool
  | .uint8 | .uint16 | .uint32 | .uint64 => false
  | _ => true

def isFloat : Numeric → Bool
  | .float32 | .float64 => true
  | _ => false

/-- The Rust type of the same width and signedness. -/
def keyword : Numeric → String
  | .int8 => "i8"
  | .uint8 => "u8"
  | .int16 => "i16"
  | .uint16 => "u16"
  | .int32 => "i32"
  | .uint32 => "u32"
  | .int64 => "i64"
  | .uint64 => "u64"
  | .float32 => "f32"
  | .float64 => "f64"

def all : List Numeric :=
  [.int8, .uint8, .int16, .uint16, .int32, .uint32, .int64, .uint64, .float32, .float64]

def ofKeyword? (s : String) : Option Numeric := all.find? (·.keyword == s)

/-- The least and the greatest integer of an integer kind. -/
def range? (n : Numeric) : Option (Int × Int) :=
  if n.isFloat then none
  else if n.isSigned then some (-Int.pow 2 (8 * n.width - 1), Int.pow 2 (8 * n.width - 1) - 1)
  else some (0, Int.pow 2 (8 * n.width) - 1)

def holds (n : Numeric) (v : Int) : Bool :=
  match n.range? with
  | some (low, high) => low ≤ v && v ≤ high
  | none => false

@[reducible]
def Word : Numeric → Type
  | .int8 => Int8
  | .uint8 => UInt8
  | .int16 => Int16
  | .uint16 => UInt16
  | .int32 => Int32
  | .uint32 => UInt32
  | .int64 => Int64
  | .uint64 => UInt64
  | .float32 => Binary32
  | .float64 => Binary64

/-- The bits of a word as a natural number. -/
def toBits : (n : Numeric) → n.Word → Nat
  | .int8, v => v.toUInt8.toNat
  | .uint8, v => v.toNat
  | .int16, v => v.toUInt16.toNat
  | .uint16, v => v.toNat
  | .int32, v => v.toUInt32.toNat
  | .uint32, v => v.toNat
  | .int64, v => v.toUInt64.toNat
  | .uint64, v => v.toNat
  | .float32, v => v.bits.toNat
  | .float64, v => v.bits.toNat

def ofBits : (n : Numeric) → Nat → n.Word
  | .int8, b => (UInt8.ofNat b).toInt8
  | .uint8, b => UInt8.ofNat b
  | .int16, b => (UInt16.ofNat b).toInt16
  | .uint16, b => UInt16.ofNat b
  | .int32, b => (UInt32.ofNat b).toInt32
  | .uint32, b => UInt32.ofNat b
  | .int64, b => (UInt64.ofNat b).toInt64
  | .uint64, b => UInt64.ofNat b
  | .float32, b => ⟨UInt32.ofNat b⟩
  | .float64, b => ⟨UInt64.ofNat b⟩

@[simp]
theorem ofBits_toBits (n : Numeric) (w : n.Word) : n.ofBits (n.toBits w) = w := by
  cases n <;> simp [ofBits, toBits]

def bytes (n : Numeric) (w : n.Word) : List UInt8 := bigEndian n.width (n.toBits w)

@[simp]
theorem length_bytes (n : Numeric) (w : n.Word) : (n.bytes w).length = n.width :=
  length_bigEndian _ _

end Numeric
end WireSchema
