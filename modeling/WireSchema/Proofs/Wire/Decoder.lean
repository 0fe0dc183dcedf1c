import WireSchema.Proofs.Wire.Output
import WireSchema.Proofs.Wire.Word

/-!
# Laws of decoders

Two ways to reason about a decoder. `Reads` says what it makes of the bytes at the front of its
input, whatever follows them. A `Congruence` is a relation between decoders that holds of the basic
reads and survives sequencing; it then holds of everything that is composed of them, so that a
property of all decoders is proved for four cases only.
-/
namespace WireSchema.Wire.Decoder

variable {α β : Type}

theorem bind_eq_ok_iff {d : Decoder α} {f : α → Decoder β} {input rest : List UInt8} {b : β} :
    (d >>= f) input = (.ok b, rest) ↔
      ∃ a mid, d input = (.ok a, mid) ∧ f a mid = (.ok b, rest) := by
  rw [run_bind]
  match d input with
  | (.ok a, mid) => simp
  | (.error e, mid) => simp

theorem pure_eq_ok_iff {a b : α} {input rest : List UInt8} :
    (pure a : Decoder α) input = (.ok b, rest) ↔ a = b ∧ input = rest := by
  simp

theorem take_eq_ok_iff {n : Nat} {input bytes rest : List UInt8} :
    take n input = (.ok bytes, rest) ↔ bytes.length = n ∧ input = bytes ++ rest := by
  unfold take
  constructor
  · intro h
    split_ifs at h with hn
    · simp only [Prod.mk.injEq, Except.ok.injEq] at h
      obtain ⟨rfl, rfl⟩ := h
      simp [hn]
    · simp at h
  · rintro ⟨rfl, rfl⟩
    simp

theorem word_eq_ok_iff {width n : Nat} {input rest : List UInt8} :
    word width input = (.ok n, rest) ↔
      ∃ bytes, bytes.length = width ∧ ofBigEndian bytes = n ∧ input = bytes ++ rest := by
  unfold word
  rw [bind_eq_ok_iff]
  constructor
  · rintro ⟨bytes, mid, htake, hpure⟩
    obtain ⟨hlen, rfl⟩ := take_eq_ok_iff.mp htake
    obtain ⟨hn, rfl⟩ := pure_eq_ok_iff.mp hpure
    exact ⟨bytes, hlen, hn, rfl⟩
  · rintro ⟨bytes, hlen, hn, rfl⟩
    exact ⟨bytes, rest, take_eq_ok_iff.mpr ⟨hlen, rfl⟩, pure_eq_ok_iff.mpr ⟨hn, rfl⟩⟩

theorem bool_eq_ok_iff {b : Bool} {input rest : List UInt8} :
    bool input = (.ok b, rest) ↔
      ∃ bytes, bytes.length = 4 ∧ (ofBigEndian bytes != 0) = b ∧ input = bytes ++ rest := by
  unfold bool
  rw [bind_eq_ok_iff]
  constructor
  · rintro ⟨n, mid, hword, hpure⟩
    obtain ⟨bytes, hlen, rfl, rfl⟩ := word_eq_ok_iff.mp hword
    obtain ⟨hb, rfl⟩ := pure_eq_ok_iff.mp hpure
    exact ⟨bytes, hlen, hb, rfl⟩
  · rintro ⟨bytes, hlen, hb, rfl⟩
    exact ⟨_, rest, word_eq_ok_iff.mpr ⟨bytes, hlen, rfl, rfl⟩, pure_eq_ok_iff.mpr ⟨hb, rfl⟩⟩

theorem number_eq_ok_iff {n : Numeric} {w : n.Word} {input rest : List UInt8} :
    number n input = (.ok w, rest) ↔
      ∃ bytes, bytes.length = n.width ∧ n.ofBits (ofBigEndian bytes) = w ∧
        input = bytes ++ rest := by
  unfold number
  rw [bind_eq_ok_iff]
  constructor
  · rintro ⟨b, mid, hword, hpure⟩
    obtain ⟨bytes, hlen, rfl, rfl⟩ := word_eq_ok_iff.mp hword
    obtain ⟨hw, rfl⟩ := pure_eq_ok_iff.mp hpure
    exact ⟨bytes, hlen, hw, rfl⟩
  · rintro ⟨bytes, hlen, hw, rfl⟩
    exact ⟨_, rest, word_eq_ok_iff.mpr ⟨bytes, hlen, rfl, rfl⟩, pure_eq_ok_iff.mpr ⟨hw, rfl⟩⟩

theorem count_eq_ok_iff {typeName : String} {max n : Nat} {input rest : List UInt8} :
    count typeName max input = (.ok n, rest) ↔
      n ≤ max ∧ ∃ bytes, bytes.length = 4 ∧ ofBigEndian bytes = n ∧ input = bytes ++ rest := by
  unfold count
  rw [bind_eq_ok_iff]
  constructor
  · rintro ⟨m, mid, hword, hcheck⟩
    split_ifs at hcheck with hm
    · simp [run_bind] at hcheck
    obtain ⟨rfl, rfl⟩ := pure_eq_ok_iff.mp hcheck
    exact ⟨Nat.le_of_not_lt hm, word_eq_ok_iff.mp hword⟩
  · rintro ⟨hm, hword⟩
    refine ⟨n, rest, word_eq_ok_iff.mpr hword, ?_⟩
    rw [if_neg (Nat.not_lt.mpr hm)]
    rfl

/-- From input that starts with `bytes` the decoder reads `a` and leaves what follows. -/
def Reads (d : Decoder α) (bytes : List UInt8) (a : α) : Prop :=
  ∀ rest, d (bytes ++ rest) = (.ok a, rest)

theorem Reads.pure (a : α) : Reads (Pure.pure a : Decoder α) [] a := fun _ => rfl

theorem Reads.bind {d : Decoder α} {f : α → Decoder β} {x y : List UInt8} {a : α} {b : β}
    (hd : d.Reads x a) (hf : (f a).Reads y b) : (d >>= f).Reads (x ++ y) b := by
  intro rest
  rw [List.append_assoc, bind_eq_ok_iff]
  exact ⟨a, y ++ rest, hd _, hf _⟩

/-- The second decoder only looks at what the first one read. -/
theorem Reads.bind_nil {d : Decoder α} {f : α → Decoder β} {x : List UInt8} {a : α} {b : β}
    (hd : d.Reads x a) (hf : (f a).Reads [] b) : (d >>= f).Reads x b := by
  have h := hd.bind hf
  rwa [List.append_nil] at h

theorem Reads.map {d : Decoder α} {x : List UInt8} {a : α} (hd : d.Reads x a) (f : α → β) :
    (d >>= fun a => Pure.pure (f a)).Reads x (f a) :=
  hd.bind_nil (Reads.pure (f a))

theorem reads_take {bytes : List UInt8} {n : Nat} (h : bytes.length = n) :
    (take n).Reads bytes bytes :=
  fun _ => take_eq_ok_iff.mpr ⟨h, rfl⟩

theorem reads_word {width n : Nat} (hlt : n < 256 ^ width) :
    (word width).Reads (bigEndian width n) n := by
  have hn : ofBigEndian (bigEndian width n) = n := by
    rw [ofBigEndian_bigEndian, Nat.mod_eq_of_lt hlt]
  have h := (reads_take (length_bigEndian width n)).map ofBigEndian
  rwa [hn] at h

theorem reads_bool (b : Bool) : bool.Reads (bigEndian 4 b.toNat) b := by
  have hb : b.toNat < 256 ^ 4 := by cases b <;> decide
  have hv : (b.toNat != 0) = b := by cases b <;> rfl
  have h := (reads_word hb).map (· != 0)
  rwa [hv] at h

theorem reads_number (n : Numeric) (w : n.Word) : (number n).Reads (n.bytes w) w := by
  have hw : n.toBits w < 256 ^ n.width := n.toBits_lt w
  have h := (reads_word hw).map n.ofBits
  rwa [n.ofBits_toBits] at h

theorem padded_eq (n : Nat) :
    padded n = do
      let data ← take n
      let _ ← take (paddingAfter n)
      return data := by
  unfold padded
  by_cases h : n % 4 = 0
  · have h0 : take 0 = (pure [] : Decoder (List UInt8)) := by
      funext input
      simp [take]
    simp [h, paddingAfter, h0]
  · simp [h]

theorem blob_eq_ok_iff {data input rest : List UInt8} :
    blob input = (.ok data, rest) ↔
      ∃ header padding, header.length = 4 ∧ ofBigEndian header = data.length ∧
        padding.length = paddingAfter data.length ∧
        input = header ++ (data ++ padding) ++ rest := by
  unfold blob
  rw [bind_eq_ok_iff]
  constructor
  · rintro ⟨n, mid, hword, hpadded⟩
    obtain ⟨header, hlen, hn, rfl⟩ := word_eq_ok_iff.mp hword
    rw [padded_eq, bind_eq_ok_iff] at hpadded
    obtain ⟨data', mid', htake, hrest⟩ := hpadded
    obtain ⟨hdata, rfl⟩ := take_eq_ok_iff.mp htake
    obtain ⟨padding, mid'', htake', hpure⟩ := bind_eq_ok_iff.mp hrest
    obtain ⟨hpadding, rfl⟩ := take_eq_ok_iff.mp htake'
    obtain ⟨rfl, rfl⟩ := pure_eq_ok_iff.mp hpure
    refine ⟨header, padding, hlen, hn.trans hdata.symm, ?_, by simp⟩
    rw [hpadding, hdata]
  · rintro ⟨header, padding, hlen, hn, hpadding, rfl⟩
    refine ⟨data.length, data ++ padding ++ rest, ?_, ?_⟩
    · exact word_eq_ok_iff.mpr ⟨header, hlen, hn, List.append_assoc _ _ _⟩
    · rw [padded_eq]
      refine bind_eq_ok_iff.mpr ⟨data, padding ++ rest, take_eq_ok_iff.mpr ⟨rfl, by simp⟩, ?_⟩
      exact bind_eq_ok_iff.mpr ⟨padding, rest, take_eq_ok_iff.mpr ⟨hpadding, rfl⟩, rfl⟩

theorem text_eq_ok_iff {s : String} {input rest : List UInt8} :
    text input = (.ok s, rest) ↔ blob input = (.ok (utf8 s), rest) := by
  unfold text
  rw [bind_eq_ok_iff]
  constructor
  · rintro ⟨data, mid, hblob, hs⟩
    cases hu : ofUtf8? data with
    | none => simp [hu] at hs
    | some s' =>
      simp only [hu] at hs
      obtain ⟨rfl, rfl⟩ := pure_eq_ok_iff.mp hs
      rwa [utf8_of_ofUtf8? hu]
  · intro hblob
    refine ⟨utf8 s, rest, hblob, ?_⟩
    rw [ofUtf8?_utf8]
    rfl

theorem reads_padded {data padding : List UInt8} {n : Nat} (hd : data.length = n)
    (hp : padding.length = paddingAfter n) : (padded n).Reads (data ++ padding) data := by
  rw [padded_eq]
  exact (reads_take hd).bind ((reads_take hp).map fun _ => data)

theorem reads_blob {data : List UInt8} (h : data.length ≤ maxLength) :
    blob.Reads (blobForm data) data := by
  have hlt : data.length < 256 ^ 4 := Nat.lt_of_le_of_lt h (by decide)
  exact (reads_word hlt).bind (reads_padded rfl List.length_replicate)

theorem reads_text {s : String} (h : (utf8 s).length ≤ maxLength) :
    text.Reads (blobForm (utf8 s)) s := by
  refine (reads_blob h).bind_nil ?_
  rw [ofUtf8?_utf8]
  exact Reads.pure s

theorem reads_count {typeName : String} {max n : Nat} (hm : n ≤ max) (h : n ≤ maxLength) :
    (count typeName max).Reads (bigEndian 4 n) n := by
  have hlt : n < 256 ^ 4 := Nat.lt_of_le_of_lt h (by decide)
  refine (reads_word hlt).bind_nil ?_
  rw [if_neg (Nat.not_lt.mpr hm)]
  exact Reads.pure n

theorem repeatInto_succ (d : Decoder α) (n : Nat) (done : List α) :
    d.repeatInto (n + 1) done = d >>= fun a => d.repeatInto n (a :: done) := rfl

/-- A relation between decoders that holds of the basic reads and survives sequencing. -/
structure Congruence (R : ∀ {α : Type}, Decoder α → Decoder α → Prop) : Prop where
  pure : ∀ {α : Type} (a : α), R (Pure.pure a : Decoder α) (Pure.pure a)
  fail : ∀ {α : Type} (e : WireError), R (Decoder.fail e : Decoder α) (Decoder.fail e)
  take : ∀ n, R (Decoder.take n) (Decoder.take n)
  bind : ∀ {α β : Type} {d d' : Decoder α} {f f' : α → Decoder β},
    R d d' → (∀ a, R (f a) (f' a)) → R (d >>= f) (d' >>= f')

namespace Congruence

variable {R : ∀ {α : Type}, Decoder α → Decoder α → Prop} (hR : Congruence R)
include hR

theorem map {d d' : Decoder α} (h : R d d') (f : α → β) :
    R (d >>= fun a => Pure.pure (f a)) (d' >>= fun a => Pure.pure (f a)) :=
  hR.bind h fun a => hR.pure (f a)

theorem word (width : Nat) : R (Decoder.word width) (Decoder.word width) :=
  hR.map (hR.take width) ofBigEndian

theorem bool : R Decoder.bool Decoder.bool := hR.map (hR.word 4) (· != 0)

theorem number (n : Numeric) : R (Decoder.number n) (Decoder.number n) :=
  hR.map (hR.word n.width) n.ofBits

theorem blob : R Decoder.blob Decoder.blob := by
  refine hR.bind (hR.word 4) fun n => ?_
  rw [padded_eq]
  exact hR.bind (hR.take n) fun data => hR.map (hR.take _) fun _ => data

theorem text : R Decoder.text Decoder.text := by
  refine hR.bind hR.blob fun bytes => ?_
  cases ofUtf8? bytes with
  | none => exact hR.fail _
  | some s => exact hR.pure s

theorem count (typeName : String) (max : Nat) :
    R (Decoder.count typeName max) (Decoder.count typeName max) := by
  refine hR.bind (hR.word 4) fun n => ?_
  split_ifs
  · exact hR.bind (hR.fail _) fun _ => hR.pure n
  · exact hR.pure n

theorem repeatInto {d d' : Decoder α} (h : R d d') (n : Nat) (done : List α) :
    R (d.repeatInto n done) (d'.repeatInto n done) := by
  induction n generalizing done with
  | zero => exact hR.pure done.reverse
  | succ n ih => exact hR.bind h fun a => ih (a :: done)

theorem times {d d' : Decoder α} (h : R d d') (n : Nat) : R (d.times n) (d'.times n) :=
  hR.repeatInto h n []

theorem mapM {γ : Type} {f f' : γ → Decoder α} {cs : List γ} (h : ∀ c ∈ cs, R (f c) (f' c)) :
    R (cs.mapM f) (cs.mapM f') := by
  induction cs with
  | nil => simpa using hR.pure ([] : List α)
  | cons c cs ih =>
    rw [List.mapM_cons, List.mapM_cons]
    refine hR.bind (h c List.mem_cons_self) fun a => hR.map (ih ?_) (a :: ·)
    exact fun c hc => h c (List.mem_cons_of_mem _ hc)

end Congruence

end WireSchema.Wire.Decoder
