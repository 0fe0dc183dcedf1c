import WireSchema.Proofs.Identifier.Stem

/-!
# Capital letters of identifiers

The identifier of a module has no capital letter of ASCII, and that of a type does not start with a
small one. So a type whose identifier has such a capital is spelled like no module, and the
identifier of a type never needs the mark of a raw identifier.
-/
namespace WireSchema

open Text

variable {x c : Char}

theorem isAlphanum_of_isUpper (h : x.isUpper = true) : x.isAlphanum = true := by
  change ((x.isUpper || x.isLower) || x.isDigit) = true
  rw [h, Bool.true_or, Bool.true_or]

theorem isAlphanum_of_isLower (h : x.isLower = true) : x.isAlphanum = true := by
  change ((x.isUpper || x.isLower) || x.isDigit) = true
  rw [h, Bool.or_true, Bool.true_or]

namespace Text

theorem capital_notMem_toLowercase (hx : x.isUpper = true) : x ∉ toLowercase c := by
  have hascii := Identifier.toNat_lt_of_isAlphanum (isAlphanum_of_isUpper hx)
  unfold toLowercase
  split_ifs with hc
  · have hcodes : ∀ n < 128, (Char.ofNat n).toLower.isUpper = false := by decide
    have hlower := hcodes c.toNat hc
    rw [Char.ofNat_toNat] at hlower
    simp only [List.mem_singleton]
    rintro rfl
    rw [hlower] at hx
    cases hx
  · refine not_mem_mapCase (P := Char.isUpper) hascii hx (by decide +kernel) (by decide +kernel) ?_
    rintro rfl
    exact hc hascii

theorem small_notMem_toUppercase (hx : x.isLower = true) : x ∉ toUppercase c := by
  have hascii := Identifier.toNat_lt_of_isAlphanum (isAlphanum_of_isLower hx)
  unfold toUppercase
  split_ifs with hc
  · have hcodes : ∀ n < 128, (Char.ofNat n).toUpper.isLower = false := by decide
    have hupper := hcodes c.toNat hc
    rw [Char.ofNat_toNat] at hupper
    simp only [List.mem_singleton]
    rintro rfl
    rw [hupper] at hx
    cases hx
  · refine not_mem_mapCase (P := Char.isLower) hascii hx (by decide +kernel) (by decide +kernel) ?_
    rintro rfl
    exact hc hascii

theorem mapCase_ne_nil {expansions : List CaseExpansion} {runs : List CaseRun}
    (h : ∀ e ∈ expansions, e.expansion ≠ []) (c : Char) : mapCase expansions runs c ≠ [] := by
  unfold mapCase
  split
  · rename_i e he
    simpa using h e (List.mem_of_find?_eq_some he)
  · split <;> simp

theorem toLowercase_ne_nil (c : Char) : toLowercase c ≠ [] := by
  unfold toLowercase
  split_ifs
  · simp
  · exact mapCase_ne_nil (by decide +kernel) c

theorem toUppercase_ne_nil (c : Char) : toUppercase c ≠ [] := by
  unfold toUppercase
  split_ifs
  · simp
  · exact mapCase_ne_nil (by decide +kernel) c

end Text

namespace Identifier

theorem capital_notMem_lowerWord (hx : x.isUpper = true) (word : List Char) :
    x ∉ lowerWord word := by
  fun_induction lowerWord word with
  | case1 => simp
  | case2 =>
    rw [List.mem_singleton]
    rintro rfl
    exact absurd hx (by decide)
  | case3 c _ => exact capital_notMem_toLowercase hx
  | case4 c cs _ ih =>
    rw [List.mem_append, not_or]
    exact ⟨capital_notMem_toLowercase hx, ih⟩

theorem capital_notMem_snake (hx : x.isUpper = true) (name : String) :
    x ∉ (snake name).toList := by
  have hcase : x ∉ (snakeCase name).toList := by
    rw [snakeCase, joinWords, String.toList_ofList]
    apply not_mem_intercalate
    · rw [List.mem_singleton]
      rintro rfl
      exact absurd hx (by decide)
    · intro w hw
      obtain ⟨word, -, rfl⟩ := List.mem_map.mp hw
      exact capital_notMem_lowerWord hx word
  rw [snake]
  apply not_mem_escaped hcase <;> (rintro rfl; exact absurd hx (by decide))

theorem capital_notMem_stem (hx : x.isUpper = true) (name : String) : x ∉ (stem name).toList := by
  rw [stem, String.toList_ofList]
  exact fun hmem => capital_notMem_snake hx name ((dropRawMarks_suffix _).subset hmem)

/-- Words with capitals do not start with a small letter. -/
theorem head_capitalWords (ws : List (List Char)) :
    ∀ c ∈ (List.intercalate [] (ws.map capitalWord)).head?, c.isLower = false := by
  induction ws with
  | nil => simp
  | cons w ws ih =>
    have hsplit : List.intercalate [] ((w :: ws).map capitalWord) =
        capitalWord w ++ List.intercalate [] (ws.map capitalWord) := by
      cases ws with
      | nil => simp
      | cons next ws =>
        rw [List.map_cons, List.map_cons, List.intercalate_cons_cons, List.append_nil]
    rw [hsplit]
    cases w with
    | nil => simpa [capitalWord] using ih
    | cons first rest =>
      obtain ⟨d, ds, hupper⟩ := List.exists_cons_of_ne_nil (toUppercase_ne_nil first)
      intro c hc
      obtain rfl : d = c := by simpa [capitalWord, hupper] using hc
      rw [Bool.eq_false_iff]
      exact fun hlower => small_notMem_toUppercase hlower (hupper ▸ List.mem_cons_self)

theorem camelCase_notMem_keywords (name : String) : camelCase name ∉ keywords := by
  have hkeywords : ∀ w ∈ keywords, w.toList.head?.any Char.isLower = true := by decide
  intro hmem
  obtain ⟨c, hc, hlower⟩ := (Option.any_eq_true _ _).mp (hkeywords _ hmem)
  rw [camelCase, joinWords, String.toList_ofList] at hc
  rw [head_capitalWords _ c hc] at hlower
  cases hlower

theorem hash_notMem_camel (name : String) : '#' ∉ (camel name).toList := by
  have hcase : '#' ∉ (camelCase name).toList := not_mem_camelCase ⟨by decide, by decide⟩ name
  unfold camel escaped
  split_ifs with hprelude hpath hkeyword hdigit
  · simpa [String.toList_append] using hcase
  · simpa [String.toList_append] using hcase
  · exact absurd hkeyword (camelCase_notMem_keywords name)
  · simpa [String.toList_append] using hcase
  · exact hcase

end Identifier
end WireSchema
