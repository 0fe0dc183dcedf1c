import Mathlib.Algebra.GroupWithZero.Nat
import WireSchema.Proofs.Wire.Decoder
import WireSchema.Wire.Item

/-!
# Streams of items

Items of a stream are written without any alignment, so what is read next depends on every byte
before it. Each item has one wire form, which has the size that is announced for it and which is
read back as that item whatever follows. A stream is the wire forms of its items, one after the
other, and the same holds of it.
-/
namespace WireSchema.Wire

namespace Shape

/-- Texts and blobs are no longer than their length can say. -/
def Fits : (s : Shape) → s.Carrier → Prop
  | .text, t => (utf8 t).length ≤ maxLength
  | .blob, data => data.length ≤ maxLength
  | .void, _ | .bool, _ | .number _, _ => True

instance : (s : Shape) → (v : s.Carrier) → Decidable (s.Fits v)
  | .text, t => inferInstanceAs (Decidable ((utf8 t).length ≤ maxLength))
  | .blob, data => inferInstanceAs (Decidable (data.length ≤ maxLength))
  | .void, _ | .bool, _ | .number _, _ => .isTrue trivial

def form : (s : Shape) → s.Carrier → List UInt8
  | .void, _ => []
  | .bool, b => bigEndian 4 b.toNat
  | .number n, w => n.bytes w
  | .text, t => blobForm (utf8 t)
  | .blob, data => blobForm data

variable {s : Shape} {v : s.Carrier} {bytes : List UInt8}

theorem result_write_eq_ok_iff :
    (s.write v).result = .ok bytes ↔ s.Fits v ∧ bytes = s.form v := by
  have hplain : ∀ {form : List UInt8}, (s.write v).result = .ok form →
      ((s.write v).result = .ok bytes ↔ True ∧ bytes = form) := by
    intro form h
    rw [h, Except.ok.injEq, true_and, eq_comm]
  cases s with
  | void => exact hplain Output.result_done
  | bool => exact hplain (Output.result_bool v)
  | number n => exact hplain (Output.result_number n v)
  | text | blob => exact Output.result_blob_eq_ok_iff

theorem result_write (h : s.Fits v) : (s.write v).result = .ok (s.form v) :=
  result_write_eq_ok_iff.mpr ⟨h, rfl⟩

theorem length_form (h : s.Fits v) : (s.form v).length = s.size v := by
  cases s with
  | void => rfl
  | bool => exact length_bigEndian 4 v.toNat
  | number n => exact n.length_bytes v
  | text => exact (length_blobForm (utf8 v)).trans (blobSize_eq h).symm
  | blob => exact (length_blobForm v).trans (blobSize_eq h).symm

theorem size_of_write (h : (s.write v).result = .ok bytes) : s.size v = bytes.length := by
  obtain ⟨hfits, rfl⟩ := result_write_eq_ok_iff.mp h
  exact (length_form hfits).symm

theorem reads_form (h : s.Fits v) : s.read.Reads (s.form v) v := by
  cases s with
  | void => exact Decoder.Reads.pure ()
  | bool => exact Decoder.reads_bool v
  | number n => exact Decoder.reads_number n v
  | text => exact Decoder.reads_text h
  | blob => exact Decoder.reads_blob h

end Shape

namespace Item

def Fits : Item → Prop
  | .plain s v => s.Fits v
  | .ordinal _ => True
  | .count n => n ≤ maxLength

instance : (i : Item) → Decidable i.Fits
  | .plain s v => inferInstanceAs (Decidable (s.Fits v))
  | .ordinal _ => .isTrue trivial
  | .count n => inferInstanceAs (Decidable (n ≤ maxLength))

def form : Item → List UInt8
  | .plain s v => s.form v
  | .ordinal v => Numeric.bytes .int32 v
  | .count n => bigEndian 4 n

variable {i : Item}

theorem result_write (h : i.Fits) : i.write.result = .ok i.form := by
  cases i with
  | plain s v => exact Shape.result_write h
  | ordinal v => exact Output.result_number .int32 v
  | count n => exact Output.result_count_eq_ok_iff.mpr ⟨h, rfl⟩

theorem length_form (h : i.Fits) : i.form.length = i.size := by
  cases i with
  | plain s v => exact Shape.length_form h
  | ordinal v => exact Numeric.length_bytes .int32 v
  | count n => exact length_bigEndian 4 n

end Item

/-- Items of a kind. A count is one that does not exceed the greatest that is accepted. -/
inductive ItemKind.Matches : ItemKind → Item → Prop
  | plain (s : Shape) (v : s.Carrier) : Matches (.plain s) (.plain s v)
  | ordinal (v : Int32) : Matches .ordinal (.ordinal v)
  | count {typeName : String} {max n : Nat} (h : n ≤ max) : Matches (.count typeName max) (.count n)

theorem ItemKind.Matches.reads_form {k : ItemKind} {i : Item} (h : k.Matches i) (hfit : i.Fits) :
    k.read.Reads i.form i := by
  cases h with
  | plain s v => exact (Shape.reads_form hfit).map (Item.plain s)
  | ordinal v => exact (Decoder.reads_number .int32 v).map Item.ordinal
  | count hmax => exact (Decoder.reads_count hmax hfit).map Item.count

variable {items : List Item}

theorem Item.result_writeAll (h : ∀ i ∈ items, i.Fits) :
    (writeAll items).result = .ok (items.flatMap form) := by
  induction items with
  | nil => rfl
  | cons i items ih =>
    rw [List.forall_mem_cons] at h
    exact Output.result_append_eq_ok_iff.mpr ⟨_, _, result_write h.1, ih h.2, rfl⟩

theorem Item.length_forms (h : ∀ i ∈ items, i.Fits) :
    (items.flatMap form).length = (items.map size).sum := by
  induction items with
  | nil => rfl
  | cons i items ih =>
    rw [List.forall_mem_cons] at h
    rw [List.flatMap_cons, List.length_append, length_form h.1, ih h.2, List.map_cons,
      List.sum_cons]

theorem ItemKind.reads_readAll {kinds : List ItemKind} (h : ∀ i ∈ items, i.Fits)
    (hkinds : List.Forall₂ ItemKind.Matches kinds items) :
    (readAll kinds).Reads (items.flatMap Item.form) items := by
  induction hkinds with
  | nil => exact Decoder.Reads.pure []
  | cons hfirst _ ih =>
    rw [List.forall_mem_cons] at h
    exact (hfirst.reads_form h.1).bind ((ih h.2).map (_ :: ·))

/-- A stream of items whose lengths and counts can be written is written to its end, each item with
the bytes of its size, and is read back item by item if every item is read as what it is. What
follows the stream is left. -/
theorem Item.readAll_written (items : List Item) (kinds : List ItemKind) (rest : List UInt8)
    (hfit : ∀ i ∈ items, i.Fits) (hkinds : List.Forall₂ ItemKind.Matches kinds items) :
    (∀ i ∈ items, ∀ stored, ∃ form, form.length = i.size ∧
      (Sink.mk none stored).drain i.write = (.ok (), ⟨none, stored ++ form⟩)) ∧
    ∃ bytes, Sink.unbounded.drain (writeAll items) = (.ok (), ⟨none, bytes⟩) ∧
      bytes.length = (items.map size).sum ∧
      ItemKind.readAll kinds (bytes ++ rest) = (.ok items, rest) := by
  refine ⟨?_, items.flatMap form, ?_, length_forms hfit, ?_⟩
  · intro i hi stored
    have hwritten := result_write (hfit i hi)
    exact ⟨i.form, length_form (hfit i hi), Sink.drain_of_room_none hwritten stored⟩
  · exact Sink.drain_unbounded_eq_ok_iff.mpr (result_writeAll hfit)
  · exact ItemKind.reads_readAll hfit hkinds rest

/-- Items of all widths, of which only some end at a multiple of four bytes. -/
def mixture : List Item :=
  [.plain .bool true, .plain (.number .int8) (-1), .plain .text "ß∂", .count 2, .ordinal (-7),
    .plain (.number .float64) ⟨0x7FF8000000000001⟩, .plain .blob [1, 2, 3, 4],
    .plain (.number .uint16) 65535]

def mixtureKinds : List ItemKind :=
  [.plain .bool, .plain (.number .int8), .plain .text, .count "Pair" 2, .ordinal,
    .plain (.number .float64), .plain .blob, .plain (.number .uint16)]

theorem Item.readAll_written_mixture :
    (∀ i ∈ mixture, i.Fits) ∧ List.Forall₂ ItemKind.Matches mixtureKinds mixture ∧
    ∃ bytes, Sink.unbounded.drain (writeAll mixture) = (.ok (), ⟨none, bytes⟩) ∧
      bytes.length = 43 ∧ ItemKind.readAll mixtureKinds (bytes ++ [9]) = (.ok mixture, [9]) := by
  have hfit : ∀ i ∈ mixture, i.Fits := by decide +kernel
  have hkinds : List.Forall₂ ItemKind.Matches mixtureKinds mixture :=
    .cons (.plain _ _) <| .cons (.plain _ _) <| .cons (.plain _ _) <| .cons (.count (by decide)) <|
      .cons (.ordinal _) <| .cons (.plain _ _) <| .cons (.plain _ _) <| .cons (.plain _ _) .nil
  have hsize : (mixture.map size).sum = 43 := by decide +kernel
  obtain ⟨-, bytes, hwritten, hlength, hread⟩ :=
    readAll_written mixture mixtureKinds [9] hfit hkinds
  exact ⟨hfit, hkinds, bytes, hwritten, hlength.trans hsize, hread⟩

end WireSchema.Wire
