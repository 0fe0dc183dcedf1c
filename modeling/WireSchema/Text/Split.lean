/-!
# Cutting texts at separators

`splitWhere p` cuts a text at every character that `p` selects and drops those characters. A text
with `n` separators has `n + 1` pieces, some of them possibly empty.
-/
namespace WireSchema.Text

def extendFirst (c : Char) : List (List Char) → List (List Char)
  | [] => [[c]]
  | piece :: pieces => (c :: piece) :: pieces

def splitWhere (p : Char → Bool) : List Char → List (List Char)
  | [] => [[]]
  | c :: cs => if p c then [] :: splitWhere p cs else extendFirst c (splitWhere p cs)

@[simp]
theorem splitWhere_nil (p : Char → Bool) : splitWhere p [] = [[]] := rfl

variable {p : Char → Bool} {x c : Char}

theorem exists_mem_extendFirst_iff {pieces : List (List Char)} :
    (∃ piece ∈ extendFirst c pieces, x ∈ piece) ↔ x = c ∨ ∃ piece ∈ pieces, x ∈ piece := by
  cases pieces with
  | nil => simp [extendFirst]
  | cons first pieces => simp [extendFirst, or_assoc]

/-- The pieces of a text hold the characters at which it was not cut. -/
theorem exists_mem_splitWhere_iff {cs : List Char} :
    (∃ piece ∈ splitWhere p cs, x ∈ piece) ↔ x ∈ cs ∧ p x = false := by
  induction cs with
  | nil => simp
  | cons d cs ih =>
    cases hd : p d with
    | true =>
      have hne : p x = false → x ≠ d := by
        intro hx heq
        rw [heq, hd] at hx
        cases hx
      simp only [splitWhere, hd, if_true, List.mem_cons, exists_eq_or_imp, List.not_mem_nil,
        false_or, ih]
      constructor
      · exact fun h => ⟨.inr h.1, h.2⟩
      · exact fun h => ⟨h.1.resolve_left (hne h.2), h.2⟩
    | false =>
      simp only [splitWhere, hd, Bool.false_eq_true, if_false, exists_mem_extendFirst_iff, ih,
        List.mem_cons]
      constructor
      · rintro (rfl | h)
        · exact ⟨.inl rfl, hd⟩
        · exact ⟨.inr h.1, h.2⟩
      · rintro ⟨h | h, hx⟩
        · exact .inl h
        · exact .inr ⟨h, hx⟩

theorem splitWhere_of_notMem {word : List Char} (h : c ∉ word) :
    splitWhere (· == c) word = [word] := by
  induction word with
  | nil => rfl
  | cons d word ih =>
    simp only [List.mem_cons, not_or] at h
    simp [splitWhere, Ne.symm h.1, ih h.2, extendFirst]

theorem splitWhere_append {word : List Char} (h : c ∉ word) (rest : List Char) :
    splitWhere (· == c) (word ++ c :: rest) = word :: splitWhere (· == c) rest := by
  induction word with
  | nil => simp [splitWhere]
  | cons d word ih =>
    simp only [List.mem_cons, not_or] at h
    simp [splitWhere, Ne.symm h.1, ih h.2, extendFirst]

theorem flatMap_splitWhere (c : Char) (cs : List Char) :
    (splitWhere (· == c) cs).flatMap (· ++ [c]) = cs ++ [c] := by
  induction cs with
  | nil => rfl
  | cons d cs ih =>
    by_cases hd : d = c
    · simp [splitWhere, hd, ih]
    · cases hpieces : splitWhere (· == c) cs with
      | nil => simp [hpieces] at ih
      | cons piece pieces => simpa [splitWhere, hd, hpieces, extendFirst] using ih

end WireSchema.Text
