import WireSchema.Proofs.Value.Size
import WireSchema.Proofs.Wire.Stream

/-!
# Sinks with limited room

A sink that has room for so many bytes keeps what fits of every block that it is handed. A block
that does not fit ends the writing, and by then there is no room left. So the sink holds the front
of the wire form, however the wire form is cut into blocks, and the writer is told of a failure
exactly if something is missing. The size that is announced for a value decides beforehand which it
will be.
-/
namespace WireSchema

open Wire

namespace Wire.Sink

theorem accept_of_room_some (room : Nat) (stored block : List UInt8) :
    (Sink.mk (some room) stored).accept block =
      (if block.length ≤ room then .ok () else .error full,
        ⟨some (room - block.length), stored ++ block.take room⟩) := by
  unfold accept
  dsimp only
  split
  · rename_i hfits
    rw [List.take_of_length_le hfits]
  · rename_i hfull
    rw [Nat.sub_eq_zero_of_le (Nat.le_of_not_le hfull)]

/-- Blocks are taken as if they were one. -/
theorem acceptAll_of_room_some (room : Nat) (stored : List UInt8) (blocks : List (List UInt8)) :
    (Sink.mk (some room) stored).acceptAll blocks =
      (if blocks.flatten.length ≤ room then .ok () else .error full,
        ⟨some (room - blocks.flatten.length), stored ++ blocks.flatten.take room⟩) := by
  induction blocks generalizing room stored with
  | nil => simp [acceptAll]
  | cons block blocks ih =>
    rw [acceptAll, accept_of_room_some, List.flatten_cons, List.length_append, List.take_append]
    by_cases hfits : block.length ≤ room
    · -- The other blocks have the room that this one leaves.
      have hrest : block.length + blocks.flatten.length ≤ room ↔
          blocks.flatten.length ≤ room - block.length := by omega
      simp only [if_pos hfits, ih, hrest, Nat.sub_sub, List.append_assoc]
    · have hnone : room - block.length = 0 := by omega
      have hall : ¬ block.length + blocks.flatten.length ≤ room := by omega
      have hleft : room - (block.length + blocks.flatten.length) = 0 := by omega
      simp only [if_neg hfits, if_neg hall, hnone, hleft, List.take_zero, List.append_nil]

theorem drain_of_room_some {o : Output} {bytes : List UInt8} (h : o.result = .ok bytes)
    (room : Nat) (stored : List UInt8) :
    (Sink.mk (some room) stored).drain o =
      (if bytes.length ≤ room then .ok () else .error full,
        ⟨some (room - bytes.length), stored ++ bytes.take room⟩) := by
  obtain ⟨hfailure, rfl⟩ := Output.result_eq_ok_iff.mp h
  rw [drain, acceptAll_of_room_some, Output.bytes]
  by_cases hfits : o.blocks.flatten.length ≤ room
  · simp only [if_pos hfits, hfailure]
  · simp only [if_neg hfits]

/-- How the writing of `bytes` ends at a sink that was empty and had room for `room` bytes: the sink
has as many of them as there was room for, and the writer is told if these are not all. -/
structure KeepsFront (room : Nat) (bytes : List UInt8) (outcome : Except WireError Unit × Sink) :
    Prop where
  stored_eq : outcome.2.stored = bytes.take (min room bytes.length)
  ok_iff : outcome.1 = .ok () ↔ bytes.length ≤ room
  error_of_lt : room < bytes.length → outcome.1 = .error (.io "failed to write whole buffer")

theorem keepsFront_drain {o : Output} {bytes : List UInt8}
    (h : unbounded.drain o = (.ok (), ⟨none, bytes⟩)) (room : Nat) :
    KeepsFront room bytes ((bounded room).drain o) := by
  rw [bounded, drain_of_room_some (drain_unbounded_eq_ok_iff.mp h), List.nil_append]
  refine ⟨?_, ?_, ?_⟩
  · rw [List.take_eq_take_iff]
    omega
  · split <;> simp_all
  · intro hlt
    exact if_neg (Nat.not_le_of_lt hlt)

end Wire.Sink

namespace Schema

open Sink (KeepsFront)

/-- Whatever has a wire form, a value of a type, a message or a plain shape, leaves the front of it
in a sink with limited room, and the writing fails exactly if the wire form, whose length is the
announced size, does not fit. -/
theorem bounded_sink_keeps_front (s : Schema) (cap room : Nat) (bytes : List UInt8) :
    (∀ (id : TypeId) (v : Value),
      Sink.unbounded.drain (s.encode cap id v) = (.ok (), ⟨none, bytes⟩) →
      s.size id v = .ok bytes.length ∧
        KeepsFront room bytes ((Sink.bounded room).drain (s.encode cap id v))) ∧
    (∀ (r : RecordType) (v : Value),
      Sink.unbounded.drain (s.encodeRecord cap r v) = (.ok (), ⟨none, bytes⟩) →
      s.sizeRecord r v = .ok bytes.length ∧
        KeepsFront room bytes ((Sink.bounded room).drain (s.encodeRecord cap r v))) ∧
    ∀ (shape : Shape) (v : shape.Carrier),
      Sink.unbounded.drain (shape.write v) = (.ok (), ⟨none, bytes⟩) →
      shape.size v = bytes.length ∧
        KeepsFront room bytes ((Sink.bounded room).drain (shape.write v)) := by
  refine ⟨?_, ?_, ?_⟩
  · intro id v h
    exact ⟨size_of_encode (Sink.drain_unbounded_eq_ok_iff.mp h), Sink.keepsFront_drain h room⟩
  · intro r v h
    exact ⟨sizeRecord_of_encodeRecord (Sink.drain_unbounded_eq_ok_iff.mp h),
      Sink.keepsFront_drain h room⟩
  · intro shape v h
    exact ⟨Shape.size_of_write (Sink.drain_unbounded_eq_ok_iff.mp h), Sink.keepsFront_drain h room⟩

/-- Room that ends in the padding of the title, and room that is just enough. -/
theorem bounded_sink_keeps_front_report :
    Sink.unbounded.drain (station.encode 8 ⟨3⟩ report) = (.ok (), ⟨none, reportBytes⟩) ∧
    station.size ⟨3⟩ report = .ok 28 ∧
    ((Sink.bounded 10).drain (station.encode 8 ⟨3⟩ report)).2.stored =
      [0, 0, 0, 5, 74, 117, 110, 101, 10, 0] ∧
    ((Sink.bounded 10).drain (station.encode 8 ⟨3⟩ report)).1 =
      .error (.io "failed to write whole buffer") ∧
    ((Sink.bounded 28).drain (station.encode 8 ⟨3⟩ report)).1 = .ok () ∧
    ((Sink.bounded 3).drain (Shape.text.write "ab")).2.stored = [0, 0, 0] := by
  have hreport : Sink.unbounded.drain (station.encode 8 ⟨3⟩ report) =
      (.ok (), ⟨none, reportBytes⟩) := by decide +kernel
  have htext : Sink.unbounded.drain (Shape.text.write "ab") =
      (.ok (), ⟨none, [0, 0, 0, 2, 97, 98, 0, 0]⟩) := by decide +kernel
  obtain ⟨-, hfront⟩ := (bounded_sink_keeps_front station 8 10 reportBytes).1 ⟨3⟩ report hreport
  obtain ⟨hsize, hwhole⟩ := (bounded_sink_keeps_front station 8 28 reportBytes).1 ⟨3⟩ report hreport
  obtain ⟨-, hcut⟩ := (bounded_sink_keeps_front station 8 3 _).2.2 .text "ab" htext
  exact ⟨hreport, hsize, hfront.stored_eq, hfront.error_of_lt (by decide),
    hwhole.ok_iff.mpr (by decide), hcut.stored_eq⟩

end Schema
end WireSchema
