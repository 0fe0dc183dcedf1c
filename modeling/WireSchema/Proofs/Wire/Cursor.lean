import WireSchema.Proofs.Value.FixedPoint
import WireSchema.Proofs.Wire.Padding
import WireSchema.Wire.Item

/-!
# Where reads stop

Whatever is read from an input, and whether or not it can be read, the unread bytes are an end of
the input that only gets shorter. A read that fails has consumed the parts that it took before: the
four bytes in front of data, then the data, then its padding. So it is known for every kind of read
and every failure how far it has come.
-/
namespace WireSchema.Wire

namespace Decoder

variable {α β : Type} {left rest : List UInt8} {e : WireError}

theorem bind_eq_error_iff {d : Decoder α} {f : α → Decoder β} :
    (d >>= f) left = (.error e, rest) ↔
      d left = (.error e, rest) ∨ ∃ a mid, d left = (.ok a, mid) ∧ f a mid = (.error e, rest) := by
  rw [run_bind]
  match d left with
  | (.ok a, mid) => simp
  | (.error e', mid) => simp

theorem map_eq_error_iff {d : Decoder α} (f : α → β) :
    (d >>= fun a => pure (f a)) left = (.error e, rest) ↔ d left = (.error e, rest) := by
  rw [bind_eq_error_iff]
  simp

theorem take_eq_error_iff {n : Nat} :
    take n left = (.error e, rest) ↔ left.length < n ∧ e = .unexpectedEof ∧ rest = left := by
  unfold take
  split_ifs with h
  · simp [Nat.not_lt.mpr h]
  · simp [Nat.lt_of_not_le h, eq_comm]

theorem word_eq_error_iff {width : Nat} :
    word width left = (.error e, rest) ↔
      left.length < width ∧ e = .unexpectedEof ∧ rest = left :=
  (map_eq_error_iff ofBigEndian).trans take_eq_error_iff

theorem bool_eq_error_iff :
    bool left = (.error e, rest) ↔ left.length < 4 ∧ e = .unexpectedEof ∧ rest = left :=
  (map_eq_error_iff (· != 0)).trans word_eq_error_iff

theorem number_eq_error_iff {n : Numeric} :
    number n left = (.error e, rest) ↔
      left.length < n.width ∧ e = .unexpectedEof ∧ rest = left :=
  (map_eq_error_iff n.ofBits).trans word_eq_error_iff

end Decoder

/-- The number that the four bytes at the front spell. -/
def announced (left : List UInt8) : Nat := ofBigEndian (left.take 4)

namespace Decoder

variable {left rest : List UInt8} {e : WireError}

theorem announced_le (left : List UInt8) : announced left ≤ maxLength := by
  have hlt := ofBigEndian_lt (left.take 4)
  have hpow : 256 ^ (left.take 4).length ≤ 256 ^ 4 :=
    Nat.pow_le_pow_right (by decide) (List.length_take_le 4 left)
  exact Nat.le_of_lt_succ (Nat.lt_of_lt_of_le hlt hpow)

theorem header_eq_ok_iff {n : Nat} :
    word 4 left = (.ok n, rest) ↔ 4 ≤ left.length ∧ announced left = n ∧ rest = left.drop 4 := by
  rw [word, run_bind]
  by_cases h : 4 ≤ left.length
  · simp [take_of_le h, h, announced, eq_comm]
  · simp [take_of_lt (Nat.lt_of_not_le h), h]

/-- Data is missing, or its padding is. -/
theorem padded_eq_error_iff {n : Nat} :
    padded n left = (.error e, rest) ↔ e = .unexpectedEof ∧
      (left.length < n ∧ rest = left ∨
        n ≤ left.length ∧ left.length < n + paddingAfter n ∧ rest = left.drop n) := by
  rw [run_padded]
  split_ifs with hdata hpadding
  · simp [hdata, Nat.not_le_of_lt hdata, eq_comm]
  · simp [hdata, Nat.le_of_not_lt hdata, hpadding, eq_comm]
  · simp [hdata, hpadding]

theorem blob_eq_error_iff :
    blob left = (.error e, rest) ↔ e = .unexpectedEof ∧
      (left.length < 4 ∧ rest = left ∨
        4 ≤ left.length ∧ left.length < 4 + announced left ∧ rest = left.drop 4 ∨
        4 + announced left ≤ left.length ∧ left.length < blobSize (announced left) ∧
          rest = left.drop (4 + announced left)) := by
  rw [blobSize_eq (announced_le left), blob, bind_eq_error_iff, word_eq_error_iff]
  simp only [header_eq_ok_iff, padded_eq_error_iff]
  constructor
  · rintro (⟨hshort, rfl, rfl⟩ | ⟨n, mid, ⟨hfour, rfl, rfl⟩, rfl, hmissing⟩)
    · exact ⟨rfl, .inl ⟨hshort, rfl⟩⟩
    · rw [List.length_drop, List.drop_drop] at hmissing
      rcases hmissing with ⟨hdata, rfl⟩ | ⟨hdata, hpadding, rfl⟩
      · exact ⟨rfl, .inr (.inl ⟨hfour, by omega, rfl⟩)⟩
      · exact ⟨rfl, .inr (.inr ⟨by omega, by omega, rfl⟩)⟩
  · rintro ⟨rfl, ⟨hshort, rfl⟩ | ⟨hfour, hdata, rfl⟩ | ⟨hdata, hpadding, rfl⟩⟩
    · exact .inl ⟨hshort, rfl, rfl⟩
    · refine .inr ⟨_, _, ⟨hfour, rfl, rfl⟩, rfl, .inl ⟨?_, rfl⟩⟩
      rw [List.length_drop]
      omega
    · refine .inr ⟨_, _, ⟨by omega, rfl, rfl⟩, rfl, .inr ⟨?_, ?_, ?_⟩⟩
      · rw [List.length_drop]
        omega
      · rw [List.length_drop]
        omega
      · rw [List.drop_drop]

theorem blob_eq_ok_announced_iff {data : List UInt8} :
    blob left = (.ok data, rest) ↔ blobSize (announced left) ≤ left.length ∧
      data = (left.drop 4).take (announced left) ∧
      rest = left.drop (blobSize (announced left)) := by
  rw [blobSize_eq (announced_le left), blob, bind_eq_ok_iff]
  simp only [header_eq_ok_iff]
  constructor
  · rintro ⟨n, mid, ⟨hfour, rfl, rfl⟩, hpadded⟩
    have hlength := padded_ok_iff.mp ⟨data, congrArg Prod.fst hpadded⟩
    rw [padded_of_le hlength, Prod.mk.injEq, Except.ok.injEq, List.drop_drop] at hpadded
    rw [List.length_drop] at hlength
    exact ⟨by omega, hpadded.1.symm, hpadded.2.symm⟩
  · rintro ⟨hlength, rfl, rfl⟩
    refine ⟨_, _, ⟨by omega, rfl, rfl⟩, ?_⟩
    rw [padded_of_le (by rw [List.length_drop]; omega), List.drop_drop]

/-- A text fails as a blob does, or at its end if the data spells none. -/
theorem text_eq_error_iff :
    text left = (.error e, rest) ↔ blob left = (.error e, rest) ∨
      e = .invalidString ∧ blobSize (announced left) ≤ left.length ∧
        ofUtf8? ((left.drop 4).take (announced left)) = none ∧
        rest = left.drop (blobSize (announced left)) := by
  rw [text, bind_eq_error_iff]
  simp only [blob_eq_ok_announced_iff]
  refine or_congr_right ⟨?_, ?_⟩
  · rintro ⟨data, mid, ⟨hlength, rfl, rfl⟩, hspelling⟩
    cases hdata : ofUtf8? ((left.drop 4).take (announced left)) with
    | some s => simp [hdata] at hspelling
    | none =>
      simp only [hdata, run_fail, Prod.mk.injEq, Except.error.injEq] at hspelling
      exact ⟨hspelling.1.symm, hlength, rfl, hspelling.2.symm⟩
  · rintro ⟨rfl, hlength, hdata, rfl⟩
    refine ⟨_, _, ⟨hlength, rfl, rfl⟩, ?_⟩
    rw [hdata]
    rfl

theorem count_eq_error_iff {typeName : String} {max : Nat} :
    count typeName max left = (.error e, rest) ↔
      left.length < 4 ∧ e = .unexpectedEof ∧ rest = left ∨
      4 ≤ left.length ∧ max < announced left ∧
        e = .countExceeded typeName max (announced left) ∧ rest = left.drop 4 := by
  rw [count, bind_eq_error_iff, word_eq_error_iff]
  simp only [header_eq_ok_iff]
  refine or_congr_right ⟨?_, ?_⟩
  · rintro ⟨n, mid, ⟨hfour, rfl, rfl⟩, hcheck⟩
    split_ifs at hcheck with hmax
    · simp only [run_bind, run_fail, Prod.mk.injEq, Except.error.injEq] at hcheck
      exact ⟨hfour, hmax, hcheck.1.symm, hcheck.2.symm⟩
    · simp at hcheck
  · rintro ⟨hfour, hmax, rfl, rfl⟩
    refine ⟨_, _, ⟨hfour, rfl, rfl⟩, ?_⟩
    rw [if_pos hmax]
    rfl

end Decoder

namespace ItemKind

def width? : ItemKind → Option Nat
  | .plain .void => some 0
  | .plain .bool => some 4
  | .plain (.number n) => some n.width
  | .ordinal => some 4
  | .plain .text | .plain .blob | .count _ _ => none

/-- Whether data follows the header. -/
def hasData : ItemKind → Bool
  | .plain .text | .plain .blob => true
  | _ => false

/-- How a read fails where some bytes are left: its failure, and how many of them it consumes. -/
inductive Stops (left : List UInt8) : ItemKind → WireError → Nat → Prop
  | width {k : ItemKind} {n : Nat} (hk : k.width? = some n) (h : left.length < n) :
    Stops left k .unexpectedEof 0
  | header {k : ItemKind} (hk : k.width? = none) (h : left.length < 4) :
    Stops left k .unexpectedEof 0
  | data {k : ItemKind} (hk : k.hasData = true) (hheader : 4 ≤ left.length)
    (h : left.length < 4 + announced left) :
    Stops left k .unexpectedEof 4
  | padding {k : ItemKind} (hk : k.hasData = true) (hdata : 4 + announced left ≤ left.length)
    (h : left.length < blobSize (announced left)) :
    Stops left k .unexpectedEof (4 + announced left)
  | spelling (hlength : blobSize (announced left) ≤ left.length)
    (h : ofUtf8? ((left.drop 4).take (announced left)) = none) :
    Stops left (.plain .text) .invalidString (blobSize (announced left))
  | count {typeName : String} {max : Nat} (hheader : 4 ≤ left.length) (h : max < announced left) :
    Stops left (.count typeName max) (.countExceeded typeName max (announced left)) 4

variable {k : ItemKind} {left rest : List UInt8} {e : WireError} {n : Nat}

theorem Stops.le_length (h : Stops left k e n) : n ≤ left.length := by
  cases h <;> omega

theorem width?_of_hasData (hk : k.hasData = true) : k.width? = none := by
  match k, hk with
  | .plain .text, _ => rfl
  | .plain .blob, _ => rfl

theorem stops_of_blob (hk : k.hasData = true) (h : Decoder.blob left = (.error e, rest)) :
    ∃ n, Stops left k e n ∧ rest = left.drop n := by
  obtain ⟨rfl, ⟨hshort, rfl⟩ | ⟨hheader, hdata, rfl⟩ | ⟨hdata, hpadding, rfl⟩⟩ :=
    Decoder.blob_eq_error_iff.mp h
  · exact ⟨0, .header (width?_of_hasData hk) hshort, rfl⟩
  · exact ⟨4, .data hk hheader hdata, rfl⟩
  · exact ⟨_, .padding hk hdata hpadding, rfl⟩

theorem stops_of_read (h : k.read left = (.error e, rest)) :
    ∃ n, Stops left k e n ∧ rest = left.drop n := by
  match k, h with
  | .plain .void, h => simp [read, Shape.read] at h
  | .plain .bool, h =>
    obtain ⟨hshort, rfl, rfl⟩ := Decoder.bool_eq_error_iff.mp ((Decoder.map_eq_error_iff _).mp h)
    exact ⟨0, .width rfl hshort, rfl⟩
  | .plain (.number n), h =>
    obtain ⟨hshort, rfl, rfl⟩ := Decoder.number_eq_error_iff.mp ((Decoder.map_eq_error_iff _).mp h)
    exact ⟨0, .width rfl hshort, rfl⟩
  | .ordinal, h =>
    obtain ⟨hshort, rfl, rfl⟩ := Decoder.number_eq_error_iff.mp ((Decoder.map_eq_error_iff _).mp h)
    exact ⟨0, .width rfl hshort, rfl⟩
  | .plain .blob, h => exact stops_of_blob rfl ((Decoder.map_eq_error_iff _).mp h)
  | .plain .text, h =>
    rcases Decoder.text_eq_error_iff.mp ((Decoder.map_eq_error_iff _).mp h) with
      h | ⟨rfl, hlength, hspelling, rfl⟩
    · exact stops_of_blob rfl h
    · exact ⟨_, .spelling hlength hspelling, rfl⟩
  | .count typeName max, h =>
    rcases Decoder.count_eq_error_iff.mp ((Decoder.map_eq_error_iff _).mp h) with
      ⟨hshort, rfl, rfl⟩ | ⟨hheader, hmax, rfl, rfl⟩
    · exact ⟨0, .header rfl hshort, rfl⟩
    · exact ⟨4, .count hheader hmax, rfl⟩

theorem read_of_blob (hk : k.hasData = true) (h : Decoder.blob left = (.error e, rest)) :
    k.read left = (.error e, rest) := by
  match k, hk with
  | .plain .blob, _ => exact (Decoder.map_eq_error_iff _).mpr h
  | .plain .text, _ =>
    exact (Decoder.map_eq_error_iff _).mpr (Decoder.text_eq_error_iff.mpr (.inl h))

theorem read_of_short (hk : k.width? = some n) (h : left.length < n) :
    k.read left = (.error .unexpectedEof, left) := by
  match k, hk with
  | .plain .void, rfl => exact absurd h (Nat.not_lt_zero _)
  | .plain .bool, rfl =>
    exact (Decoder.map_eq_error_iff _).mpr (Decoder.bool_eq_error_iff.mpr ⟨h, rfl, rfl⟩)
  | .plain (.number _), rfl =>
    exact (Decoder.map_eq_error_iff _).mpr (Decoder.number_eq_error_iff.mpr ⟨h, rfl, rfl⟩)
  | .ordinal, rfl =>
    exact (Decoder.map_eq_error_iff _).mpr (Decoder.number_eq_error_iff.mpr ⟨h, rfl, rfl⟩)

theorem read_of_header (hk : k.width? = none) (h : left.length < 4) :
    k.read left = (.error .unexpectedEof, left) := by
  have hblob : Decoder.blob left = (.error .unexpectedEof, left) :=
    Decoder.blob_eq_error_iff.mpr ⟨rfl, .inl ⟨h, rfl⟩⟩
  match k, hk with
  | .plain .blob, _ => exact read_of_blob rfl hblob
  | .plain .text, _ => exact read_of_blob rfl hblob
  | .count _ _, _ =>
    exact (Decoder.map_eq_error_iff _).mpr (Decoder.count_eq_error_iff.mpr (.inl ⟨h, rfl, rfl⟩))

theorem Stops.read_eq (h : Stops left k e n) : k.read left = (.error e, left.drop n) := by
  cases h with
  | width hk h => exact read_of_short hk h
  | header hk h => exact read_of_header hk h
  | data hk hheader h =>
    exact read_of_blob hk (Decoder.blob_eq_error_iff.mpr ⟨rfl, .inr (.inl ⟨hheader, h, rfl⟩)⟩)
  | padding hk hdata h =>
    exact read_of_blob hk (Decoder.blob_eq_error_iff.mpr ⟨rfl, .inr (.inr ⟨hdata, h, rfl⟩)⟩)
  | spelling hlength h =>
    exact (Decoder.map_eq_error_iff _).mpr
      (Decoder.text_eq_error_iff.mpr (.inr ⟨rfl, hlength, h, rfl⟩))
  | count hheader h =>
    exact (Decoder.map_eq_error_iff _).mpr
      (Decoder.count_eq_error_iff.mpr (.inr ⟨hheader, h, rfl, rfl⟩))

theorem shrinks_read (k : ItemKind) : k.read.Shrinks := by
  have hR := Decoder.congruence_shrinks
  have hmap : ∀ {α : Type} {d : Decoder α} (f : α → Item), d.Shrinks →
      (d >>= fun a => pure (f a)).Shrinks := fun f hd => hd.bind fun a => hR.pure (f a)
  match k with
  | .plain .void => exact hR.pure (Item.plain .void ())
  | .plain .bool => exact hmap _ hR.bool
  | .plain (.number n) => exact hmap _ (hR.number n)
  | .plain .text => exact hmap _ hR.text
  | .plain .blob => exact hmap _ hR.blob
  | .ordinal => exact hmap _ (hR.number .int32)
  | .count typeName max => exact hmap _ (hR.count typeName max)

/-- What is left after reads of some kinds, whatever comes of each of them. -/
def leftAfter (kinds : List ItemKind) (input : List UInt8) : List UInt8 :=
  kinds.foldl (fun left k => (k.read left).2) input

theorem leftAfter_append (kinds more : List ItemKind) (input : List UInt8) :
    leftAfter (kinds ++ more) input = leftAfter more (leftAfter kinds input) :=
  List.foldl_append

theorem leftAfter_suffix (kinds : List ItemKind) (input : List UInt8) :
    leftAfter kinds input <:+ input := by
  induction kinds generalizing input with
  | nil => exact List.suffix_rfl
  | cons k kinds ih => exact (ih (k.read input).2).trans (k.shrinks_read input)

def position (input : List UInt8) (kinds : List ItemKind) : Nat :=
  input.length - (leftAfter kinds input).length

theorem leftAfter_eq_drop (kinds : List ItemKind) (input : List UInt8) :
    leftAfter kinds input = input.drop (position input kinds) :=
  List.suffix_iff_eq_drop.mp (leftAfter_suffix kinds input)

theorem position_append_singleton {input : List UInt8} {kinds : List ItemKind}
    (hn : n ≤ (leftAfter kinds input).length)
    (h : (k.read (leftAfter kinds input)).2 = (leftAfter kinds input).drop n) :
    position input (kinds ++ [k]) = position input kinds + n := by
  have hlength := (leftAfter_suffix kinds input).length_le
  have hleft : leftAfter (kinds ++ [k]) input = (leftAfter kinds input).drop n := by
    rw [leftAfter_append]
    exact h
  rw [position, position, hleft, List.length_drop]
  omega

/-- Whatever is read from an input, the position only moves forward and stays inside, and what is
left is the input from there on. A read fails exactly where its kind stops, and has moved the
position by as much as it then consumes. -/
theorem reads_stay_in_input (input : List UInt8) (kinds : List ItemKind) :
    (position input kinds ≤ input.length ∧
      leftAfter kinds input = input.drop (position input kinds) ∧
      leftAfter kinds input <:+ input) ∧
    (∀ more, position input kinds ≤ position input (kinds ++ more)) ∧
    ∀ (k : ItemKind) (e : WireError), (k.read (leftAfter kinds input)).1 = .error e ↔
      k.Stops (leftAfter kinds input) e (position input (kinds ++ [k]) - position input kinds) := by
  refine ⟨⟨Nat.sub_le _ _, leftAfter_eq_drop kinds input, leftAfter_suffix kinds input⟩, ?_, ?_⟩
  · intro more
    have hmore := (leftAfter_suffix more (leftAfter kinds input)).length_le
    rw [position, position, leftAfter_append]
    omega
  · intro k e
    constructor
    · intro hfail
      obtain ⟨n, hstops, hrest⟩ := stops_of_read (Prod.ext hfail rfl)
      rw [position_append_singleton hstops.le_length hrest, Nat.add_sub_cancel_left]
      exact hstops
    · intro hstops
      rw [hstops.read_eq]

/-- Bytes that spell no text are consumed with their padding, and nothing of what is too short for a
truth value after them. -/
example : position [0, 0, 0, 2, 0xC3, 0x28, 0, 0, 0, 0, 1] [.plain .text, .plain .bool] = 8 := by
  decide +kernel

end ItemKind
end WireSchema.Wire
