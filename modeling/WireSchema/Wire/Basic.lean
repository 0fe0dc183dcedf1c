/-!
# What the wire is made of

Words are written with their most significant byte first, in exactly as many bytes as they are wide.
Data of variable length is followed by zero bytes up to the next multiple of four. Lengths are words
of 64 bits; rounding one up clears its two lowest bits after adding three.

A failure says what went wrong while a value was written to a sink or read from bytes. Names are
written forms of qualified names.
-/
namespace WireSchema

inductive WireError where
  | unexpectedEof
  | invalidString
  | invalidEnumValue (typeName : String) (value : Int)
  | countExceeded (typeName : String) (max got : Nat)
  | lengthOverflow (max got : Nat)
  | duplicateMapKey (typeName : String)
  | unknownOperation (interface : String) (number : Nat)
  | unknownResponse (interface : String) (number : Nat)
  | unknownException (interface typeName : String)
  | typeMismatch (typeName : String)
  | io (cause : String)
  /-- A record that holds itself has no finite value. -/
  | endlessRecord
deriving DecidableEq, Repr

def WireError.message : WireError → String
  | .unexpectedEof => "unexpected end of input"
  | .invalidString => "string contains invalid bytes"
  | .invalidEnumValue typeName value => s!"{typeName}: invalid enum value {value}"
  | .countExceeded typeName max got => s!"{typeName}: element count {got} exceeds maximum {max}"
  | .lengthOverflow max got => s!"length {got} exceeds maximum {max}"
  | .duplicateMapKey typeName => s!"{typeName}: duplicate map key"
  | .unknownOperation interface number => s!"{interface}: unknown request number {number}"
  | .unknownResponse interface number => s!"{interface}: unknown response number {number}"
  | .unknownException interface typeName => s!"{interface}: unknown exception type {typeName}"
  | .typeMismatch typeName => s!"value does not match type {typeName}"
  | .io cause => s!"I/O error: {cause}"
  | .endlessRecord => "record holds itself"

namespace Wire

/-- The lowest `width` bytes of a number, most significant byte first. -/
def bigEndian : (width n : Nat) → List UInt8
  | 0, _ => []
  | width + 1, n => bigEndian width (n / 256) ++ [UInt8.ofNat (n % 256)]

def ofBigEndian (bytes : List UInt8) : Nat :=
  bytes.foldl (fun n b => n * 256 + b.toNat) 0

@[simp]
theorem length_bigEndian (width n : Nat) : (bigEndian width n).length = width := by
  induction width generalizing n with
  | zero => rfl
  | succ width ih => simp [bigEndian, ih]

theorem ofBigEndian_append_singleton (bytes : List UInt8) (b : UInt8) :
    ofBigEndian (bytes ++ [b]) = ofBigEndian bytes * 256 + b.toNat := by
  simp [ofBigEndian]

def paddedLength (n : UInt64) : UInt64 := (n + 3) &&& ~~~3

/-- How many zero bytes follow `n` bytes of data. -/
def paddingAfter (n : Nat) : Nat := if n % 4 = 0 then 0 else 4 - n % 4

end Wire
end WireSchema
