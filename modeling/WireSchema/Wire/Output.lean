import WireSchema.Wire.Basic

/-!
# Writing to a sink

Writing a value hands blocks of bytes to a sink, one after the other, and may end in a failure. A
sink with limited room stores what fits of a block; the first block that does not fit ends the
writing.
-/
namespace WireSchema.Wire

/-- The blocks that a writer hands over, and the failure that ends it, if any. -/
structure Output where
  blocks : List (List UInt8)
  failure : Option WireError
deriving DecidableEq, Repr

namespace Output

def done : Output := ⟨[], none⟩

def block (bytes : List UInt8) : Output := ⟨[bytes], none⟩

def fail (e : WireError) : Output := ⟨[], some e⟩

/-- Writes `a`, then `b` unless `a` failed. -/
def andThen (a b : Output) : Output :=
  match a.failure with
  | none => ⟨a.blocks ++ b.blocks, b.failure⟩
  | some e => ⟨a.blocks, some e⟩

instance : Append Output := ⟨andThen⟩

variable (o : Output)

/-- Everything handed over, up to the failure. -/
def bytes : List UInt8 := o.blocks.flatten

def result : Except WireError (List UInt8) :=
  match o.failure with
  | none => .ok o.bytes
  | some e => .error e

@[simp]
theorem failure_done : done.failure = none := rfl

@[simp]
theorem bytes_done : done.bytes = [] := rfl

@[simp]
theorem bytes_block (bytes : List UInt8) : (block bytes).bytes = bytes := by
  simp [block, Output.bytes]

theorem append_of_failure_none {a : Output} (b : Output) (h : a.failure = none) :
    a ++ b = ⟨a.blocks ++ b.blocks, b.failure⟩ := by
  show andThen a b = _
  simp [andThen, h]

theorem append_of_failure_some {a : Output} (b : Output) {e : WireError} (h : a.failure = some e) :
    a ++ b = a := by
  show andThen a b = _
  cases a
  simp_all [andThen]

end Output

/-- A byte sink: the room that is left, unlimited if absent, and what has been stored. -/
structure Sink where
  room : Option Nat
  stored : List UInt8
deriving DecidableEq, Repr

namespace Sink

def unbounded : Sink := ⟨none, []⟩

def bounded (room : Nat) : Sink := ⟨some room, []⟩

/-- The failure of a sink that has no room for a whole block. -/
def full : WireError := .io "failed to write whole buffer"

def accept (s : Sink) (block : List UInt8) : Except WireError Unit × Sink :=
  match s.room with
  | none => (.ok (), { s with stored := s.stored ++ block })
  | some room =>
    if block.length ≤ room then (.ok (), ⟨some (room - block.length), s.stored ++ block⟩)
    else (.error full, ⟨some 0, s.stored ++ block.take room⟩)

def acceptAll (s : Sink) : List (List UInt8) → Except WireError Unit × Sink
  | [] => (.ok (), s)
  | block :: blocks =>
    match s.accept block with
    | (.ok (), s) => s.acceptAll blocks
    | (.error e, s) => (.error e, s)

def drain (s : Sink) (o : Output) : Except WireError Unit × Sink :=
  match s.acceptAll o.blocks with
  | (.ok (), s) =>
    match o.failure with
    | none => (.ok (), s)
    | some e => (.error e, s)
  | (.error e, s) => (.error e, s)

end Sink
end WireSchema.Wire
