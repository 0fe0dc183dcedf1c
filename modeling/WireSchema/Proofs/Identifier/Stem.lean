import WireSchema.Proofs.Identifier.Spelling

/-!
# Stems of files

The stem of a file is the identifier of its module without the mark of a raw identifier. It holds no
punctuation but underscores, and the stem of an identifier is not empty.
-/
namespace WireSchema.Identifier

open Text

/-- A name of letters, digits and underscores, not of underscores alone. -/
structure IsIdentifier (name : String) : Prop where
  chars : ∀ c ∈ name.toList, c.isAlphanum = true ∨ c = '_'
  exists_alphanum : ∃ c ∈ name.toList, c.isAlphanum = true

theorem isIdentifier_iff {name : String} :
    (name.toList.all (fun c => c.isAlphanum || c == '_') &&
      name.toList.any Char.isAlphanum) = true ↔ IsIdentifier name := by
  rw [Bool.and_eq_true, List.all_eq_true, List.any_eq_true]
  constructor
  · rintro ⟨hchars, halphanum⟩
    exact ⟨fun c hc => by simpa using hchars c hc, halphanum⟩
  · rintro ⟨hchars, halphanum⟩
    exact ⟨fun c hc => by simpa using hchars c hc, halphanum⟩

instance (name : String) : Decidable (IsIdentifier name) := decidable_of_iff _ isIdentifier_iff

variable {x : Char}

theorem exists_mem_humps {mode : WordMode} {pending cs : List Char}
    (h : x ∈ pending ∨ x ∈ cs) : ∃ word ∈ humps mode pending cs, x ∈ word := by
  fun_induction humps mode pending cs with
  | case1 => simp at h
  | case2 mode pending => exact ⟨pending.reverse, by simp, by simpa using h⟩
  | case3 mode pending c => exact ⟨(c :: pending).reverse, by simp, by grind⟩
  | case4 mode pending c next rest _ ih =>
    by_cases hfirst : x ∈ (c :: pending).reverse
    · exact ⟨_, List.mem_cons_self, hfirst⟩
    · obtain ⟨word, hword, hx⟩ := ih (by grind)
      exact ⟨word, .tail _ hword, hx⟩
  | case5 mode pending c next rest _ _ ih =>
    by_cases hfirst : x ∈ pending.reverse
    · exact ⟨_, List.mem_cons_self, hfirst⟩
    · obtain ⟨word, hword, hx⟩ := ih (by grind)
      exact ⟨word, .tail _ hword, hx⟩
  | case6 mode pending c next rest _ _ ih => exact ih (by grind)

theorem exists_mem_words (hx : isAlphanumeric x = true) {name : List Char} (h : x ∈ name) :
    ∃ word ∈ words name, x ∈ word := by
  obtain ⟨piece, hpiece, hmem⟩ : ∃ piece ∈ splitWhere (!isAlphanumeric ·) name, x ∈ piece :=
    exists_mem_splitWhere_iff.mpr ⟨h, by simp [hx]⟩
  obtain ⟨word, hword, hmem⟩ : ∃ word ∈ humps .boundary [] piece, x ∈ word :=
    exists_mem_humps (.inr hmem)
  exact ⟨word, List.mem_flatMap.mpr ⟨piece, hpiece, hword⟩, hmem⟩

theorem lowerWord_ne_nil (hx : x.toNat < 128) {word : List Char} (h : x ∈ word) :
    lowerWord word ≠ [] := by
  have hone : toLowercase x = [x.toLower] := if_pos hx
  fun_induction lowerWord word with
  | case1 => simp at h
  | case2 => simp
  | case3 c _ =>
    obtain rfl := List.mem_singleton.mp h
    simp [hone]
  | case4 c cs _ ih =>
    rcases List.mem_cons.mp h with rfl | h
    · simp [hone]
    · simp [ih h]

theorem intercalate_ne_nil {separator w : List Char} {ws : List (List Char)} (hw : w ∈ ws)
    (hne : w ≠ []) : separator.intercalate ws ≠ [] := by
  induction ws with
  | nil => simp at hw
  | cons first ws ih =>
    cases ws with
    | nil =>
      obtain rfl := List.mem_singleton.mp hw
      simpa using hne
    | cons second ws =>
      rw [List.intercalate_cons_cons]
      rcases List.mem_cons.mp hw with rfl | hw
      · simp [hne]
      · simp [ih hw]

theorem toNat_lt_of_isAlphanum (h : x.isAlphanum = true) : x.toNat < 128 := by
  change ((decide (x.val ≥ 'A'.val ∧ x.val ≤ 'Z'.val) ||
    (decide (x.val ≥ 'a'.val) && decide (x.val ≤ 'z'.val))) ||
    (decide (x.val ≥ '0'.val) && decide (x.val ≤ '9'.val))) = true at h
  simp only [Bool.or_eq_true, Bool.and_eq_true, decide_eq_true_eq, UInt32.le_iff_toNat_le,
    ge_iff_le] at h
  have htop : 'z'.val.toNat = 122 := rfl
  have hupper : 'Z'.val.toNat = 90 := rfl
  have hdigit : '9'.val.toNat = 57 := rfl
  change x.val.toNat < 128
  omega

theorem snakeCase_ne_empty {name : String} (h : IsIdentifier name) :
    (snakeCase name).toList ≠ [] := by
  obtain ⟨c, hc, halphanum⟩ := h.exists_alphanum
  obtain ⟨word, hword, hmem⟩ := exists_mem_words (isAlphanumeric_of_isAlphanum halphanum) hc
  rw [snakeCase, joinWords, String.toList_ofList]
  exact intercalate_ne_nil (List.mem_map_of_mem hword)
    (lowerWord_ne_nil (toNat_lt_of_isAlphanum halphanum) hmem)

theorem dropRawMarks_suffix (cs : List Char) : dropRawMarks cs <:+ cs := by
  fun_induction dropRawMarks cs with
  | case1 cs ih => exact ih.trans ⟨['r', '#'], rfl⟩
  | case2 cs _ => exact List.suffix_rfl

theorem dropRawMarks_of_notMem {cs : List Char} (h : '#' ∉ cs) : dropRawMarks cs = cs := by
  fun_cases dropRawMarks cs with
  | case1 cs => simp at h
  | case2 _ => rfl

theorem dropRawMarks_escaped_ne_nil {s : String} (hs : s.toList ≠ []) (hhash : '#' ∉ s.toList) :
    dropRawMarks (escaped s).toList ≠ [] := by
  have hwords : ∀ w ∈ pathWords, dropRawMarks (w ++ "_").toList ≠ [] := by decide
  have hkeywords : ∀ w ∈ keywords, dropRawMarks ("r#" ++ w).toList ≠ [] := by decide
  unfold escaped
  split_ifs with hpath hkeyword hdigit
  · exact hwords s hpath
  · exact hkeywords s hkeyword
  · rw [dropRawMarks_of_notMem (by simpa [String.toList_append] using hhash)]
    simp [String.toList_append]
  · rwa [dropRawMarks_of_notMem hhash]

theorem stem_ne_empty {name : String} (h : IsIdentifier name) : stem name ≠ "" := by
  have hhash : '#' ∉ (snakeCase name).toList :=
    not_mem_snakeCase ⟨by decide, by decide⟩ (by decide) name
  have hstem := dropRawMarks_escaped_ne_nil (snakeCase_ne_empty h) hhash
  intro hempty
  rw [← snake] at hstem
  have hlist := congrArg String.toList hempty
  rw [stem, String.toList_ofList] at hlist
  exact hstem hlist

theorem stem_mod : stem "mod" = "mod" := by decide +kernel

theorem stem_constants : stem "constants" = "constants" := by decide +kernel

theorem punctuation_notMem_stem (hx : IsPunctuation x) (hunder : x ≠ '_') (hhash : x ≠ '#')
    (name : String) : x ∉ (stem name).toList := by
  rw [stem, String.toList_ofList]
  intro hmem
  exact punctuation_notMem_snake hx hunder hhash name ((dropRawMarks_suffix _).subset hmem)

end WireSchema.Identifier
