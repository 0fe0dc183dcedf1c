import WireSchema.Wire.Decoder
import WireSchema.Wire.Numeric
import WireSchema.Wire.Output
import WireSchema.Wire.Basic

/-!
# Shapes with a wire form of their own

Nothing at all, truth values, numbers, texts and byte blobs. Truth values take four bytes, numbers
their width, texts and blobs a four-byte length, the data and zero padding to a multiple of four.
-/
namespace WireSchema.Wire

inductive Shape where
  | void
  | bool
  | number (n : Numeric)
  | text
  | blob
deriving DecidableEq, Repr

def maxLength : Nat := 0xFFFFFFFF

def utf8 (s : String) : List UInt8 := s.toByteArray.data.toList

def ofUtf8? (bytes : List UInt8) : Option String := String.fromUTF8? ⟨bytes.toArray⟩

@[simp]
theorem ofUtf8?_utf8 (s : String) : ofUtf8? (utf8 s) = some s := by
  have h : (⟨(utf8 s).toArray⟩ : ByteArray) = s.toByteArray := by simp [utf8]
  simp only [ofUtf8?, h, String.fromUTF8?, s.isValidUTF8, dif_pos]
  rfl

namespace Output

def word (width n : Nat) : Output := block (bigEndian width n)

def bool (b : Bool) : Output := word 4 b.toNat

def number (n : Numeric) (w : n.Word) : Output := block (n.bytes w)

/-- Data and its padding. No block is handed over for empty padding. -/
def padded (data : List UInt8) : Output :=
  block data ++
    if data.length % 4 = 0 then done else block (List.replicate (paddingAfter data.length) 0)

def blob (data : List UInt8) : Output :=
  if data.length ≤ maxLength then word 4 data.length ++ padded data
  else fail (.lengthOverflow maxLength data.length)

def text (s : String) : Output := blob (utf8 s)

def count (n : Nat) : Output :=
  if n ≤ maxLength then word 4 n else fail (.lengthOverflow maxLength n)

end Output

namespace Decoder

/-- Any word other than zero is true. -/
def bool : Decoder Bool := do
  return (← word 4) != 0

def number (n : Numeric) : Decoder n.Word := do
  return n.ofBits (← word n.width)

/-- `n` bytes of data followed by their padding, whatever it holds. -/
def padded (n : Nat) : Decoder (List UInt8) := do
  let data ← take n
  if n % 4 ≠ 0 then
    let _ ← take (paddingAfter n)
  return data

def blob : Decoder (List UInt8) := do
  padded (← word 4)

def text : Decoder String := do
  match ofUtf8? (← blob) with
  | some s => return s
  | none => fail .invalidString

/-- The number of elements of `typeName` that follow, at most `max`. -/
def count (typeName : String) (max : Nat) : Decoder Nat := do
  let n ← word 4
  if max < n then fail (.countExceeded typeName max n)
  return n

end Decoder

/-- The size of a length, that many bytes of data and their padding. -/
def blobSize (length : Nat) : Nat := 4 + (paddedLength (UInt64.ofNat length)).toNat

def textSize (s : String) : Nat := blobSize (utf8 s).length

namespace Shape

@[reducible]
def Carrier : Shape → Type
  | .void => Unit
  | .bool => Bool
  | .number n => n.Word
  | .text => String
  | .blob => List UInt8

def write : (s : Shape) → s.Carrier → Output
  | .void, _ => .done
  | .bool, b => .bool b
  | .number n, w => .number n w
  | .text, t => .text t
  | .blob, data => .blob data

def read : (s : Shape) → Decoder s.Carrier
  | .void => pure ()
  | .bool => .bool
  | .number n => .number n
  | .text => .text
  | .blob => .blob

/-- How many bytes `write` hands over. -/
def size : (s : Shape) → s.Carrier → Nat
  | .void, _ => 0
  | .bool, _ => 4
  | .number n, _ => n.width
  | .text, t => textSize t
  | .blob, data => blobSize data.length

end Shape

/-- Bytes from outside: they end, or reading them breaks off with a failure. -/
structure ByteSource where
  bytes : List UInt8
  failure : Option String

/-- Reads a source to its end and decodes one value from the front. -/
def ByteSource.decode {α : Type} (s : ByteSource) (d : Decoder α) : Except WireError α :=
  match s.failure with
  | some cause => .error (.io cause)
  | none => (d s.bytes).1

end WireSchema.Wire
