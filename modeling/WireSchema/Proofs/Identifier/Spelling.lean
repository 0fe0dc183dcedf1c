import Mathlib.Tactic.SplitIfs
import WireSchema.Identifier.Path

/-!
# Characters of identifiers

An identifier is made of what letters and digits become when their case changes, of underscores and
of the mark of a raw identifier. So no blank and no other punctuation stands in it, and emitted
source can be cut apart at its blanks.
-/
namespace WireSchema

open Text

namespace Text

/-- An ASCII character other than letters and digits. -/
structure IsPunctuation (x : Char) : Prop where
  ascii : x.toNat < 128
  notAlphanum : x.isAlphanum = false

theorem isPunctuation_space : IsPunctuation ' ' := ⟨by decide, by decide⟩

variable {x : Char}

theorem toNat_ofNat_of_isValidChar {n : Nat} (h : n.isValidChar) : (Char.ofNat n).toNat = n := by
  have hchar : Char.ofNat n = Char.ofNatAux n h := dif_pos h
  rw [hchar]
  rfl

section Avoided

variable {P : Char → Bool}

/-- A run of a case mapping that leads to no character of a kind of ASCII. It leads beyond ASCII and
to one side of the numbers that are no code points, or it has one character only. -/
def CaseRun.avoids (P : Char → Bool) (r : CaseRun) : Bool :=
  (128 ≤ (r.first : Int) + r.offset && (r.last : Int) + r.offset < 0xD800) ||
    (0xDFFF < (r.first : Int) + r.offset && (r.last : Int) + r.offset < 0x110000) ||
    (r.first == r.last && !P (Char.ofNat ((r.first : Int) + r.offset).toNat))

theorem ne_ofNat_of_isValidChar (hascii : x.toNat < 128) {n : Nat} (h : n.isValidChar)
    (hn : 128 ≤ n) : x ≠ Char.ofNat n := by
  rintro rfl
  rw [toNat_ofNat_of_isValidChar h] at hascii
  omega

theorem CaseRun.ne_apply (hascii : x.toNat < 128) (hx : P x = true) {r : CaseRun}
    (hr : r.avoids P) {c : Char} (hc : r.contains c) : x ≠ r.apply c := by
  simp only [CodeRange.contains, Bool.and_eq_true, decide_eq_true_eq] at hc
  simp only [CaseRun.avoids, Bool.or_eq_true, Bool.and_eq_true, decide_eq_true_eq,
    beq_iff_eq, Bool.not_eq_true'] at hr
  rcases hr with (⟨hlow, hhigh⟩ | ⟨hlow, hhigh⟩) | ⟨hone, hr⟩
  · apply ne_ofNat_of_isValidChar hascii
    · exact .inl (by omega)
    · omega
  · apply ne_ofNat_of_isValidChar hascii
    · exact .inr (by omega)
    · omega
  · rintro rfl
    rw [CaseRun.apply, show c.toNat = r.first by omega, hr] at hx
    cases hx

/-- A case mapping whose tables avoid a kind of characters leads to one of them from itself only. -/
theorem not_mem_mapCase (hascii : x.toNat < 128) (hx : P x = true)
    {expansions : List CaseExpansion} {runs : List CaseRun}
    (hexpansions : expansions.all fun e => e.expansion.all fun n => !P (Char.ofNat n))
    (hruns : runs.all (·.avoids P)) {c : Char} (hc : x ≠ c) : x ∉ mapCase expansions runs c := by
  unfold mapCase
  split
  · rename_i e he
    have hall := List.all_eq_true.mp hexpansions e (List.mem_of_find?_eq_some he)
    rw [List.all_eq_true] at hall
    intro hmem
    obtain ⟨n, hn, rfl⟩ := List.mem_map.mp hmem
    have hnot := hall n hn
    rw [hx] at hnot
    cases hnot
  · split
    · rename_i r hr
      have havoids := List.all_eq_true.mp hruns r (List.mem_of_find?_eq_some hr)
      have hcontains := List.find?_some (p := fun r : CaseRun => r.contains c) hr
      simpa using CaseRun.ne_apply hascii hx havoids hcontains
    · simpa using hc

end Avoided

def isPunctuation (x : Char) : Bool := x.toNat < 128 && !x.isAlphanum

theorem IsPunctuation.isPunctuation_eq (hx : IsPunctuation x) : isPunctuation x = true := by
  simp [isPunctuation, hx.ascii, hx.notAlphanum]

theorem not_mem_toLowercase (hx : IsPunctuation x) {c : Char} (hc : x ≠ c) :
    x ∉ toLowercase c := by
  unfold toLowercase
  split_ifs with hascii
  · simp only [List.mem_singleton]
    rintro rfl
    have hcodes : ∀ n < 128, (Char.ofNat n).toLower = Char.ofNat n ∨
        (Char.ofNat n).toLower.isAlphanum = true := by decide
    have hcases := hcodes c.toNat hascii
    rw [Char.ofNat_toNat] at hcases
    rcases hcases with h | h
    · exact hc h
    · simp [hx.notAlphanum] at h
  · exact not_mem_mapCase hx.ascii hx.isPunctuation_eq (by decide +kernel) (by decide +kernel) hc

theorem not_mem_toUppercase (hx : IsPunctuation x) {c : Char} (hc : x ≠ c) :
    x ∉ toUppercase c := by
  unfold toUppercase
  split_ifs with hascii
  · simp only [List.mem_singleton]
    rintro rfl
    have hcodes : ∀ n < 128, (Char.ofNat n).toUpper = Char.ofNat n ∨
        (Char.ofNat n).toUpper.isAlphanum = true := by decide
    have hcases := hcodes c.toNat hascii
    rw [Char.ofNat_toNat] at hcases
    rcases hcases with h | h
    · exact hc h
    · simp [hx.notAlphanum] at h
  · exact not_mem_mapCase hx.ascii hx.isPunctuation_eq (by decide +kernel) (by decide +kernel) hc

end Text

namespace Identifier

variable {x : Char}

theorem not_mem_lowerWord (hx : IsPunctuation x) {word : List Char} (hword : x ∉ word) :
    x ∉ lowerWord word := by
  fun_induction lowerWord word with
  | case1 => simp
  | case2 =>
    have := hx.ascii
    rintro h
    simp only [List.mem_singleton] at h
    subst h
    simp at this
  | case3 c _ => exact not_mem_toLowercase hx (by simpa using hword)
  | case4 c cs _ ih =>
    simp only [List.mem_cons, not_or] at hword
    simp only [List.mem_append, not_or]
    exact ⟨not_mem_toLowercase hx hword.1, ih hword.2⟩

theorem mem_of_mem_humps {mode : WordMode} {pending cs word : List Char}
    (h : word ∈ humps mode pending cs) (hx : x ∈ word) : x ∈ pending ∨ x ∈ cs := by
  fun_induction humps mode pending cs generalizing word with
  | case1 => simp at h
  | case2 mode pending =>
    obtain rfl : word = pending.reverse := by simpa using h
    exact .inl (by simpa using hx)
  | case3 mode pending c =>
    obtain rfl : word = (c :: pending).reverse := by simpa using h
    grind
  | case4 mode pending c next rest _ ih =>
    rcases List.mem_cons.mp h with rfl | h
    · grind
    · have hrest := ih h hx
      grind
  | case5 mode pending c next rest _ _ ih =>
    rcases List.mem_cons.mp h with rfl | h
    · grind
    · have hrest := ih h hx
      grind
  | case6 mode pending c next rest _ _ ih =>
    have hrest := ih h hx
    grind

theorem not_mem_words (hx : isAlphanumeric x = false) {name word : List Char}
    (h : word ∈ words name) : x ∉ word := by
  obtain ⟨piece, hpiece, hword⟩ := List.mem_flatMap.mp h
  intro hmem
  rcases mem_of_mem_humps hword hmem with h | h
  · simp at h
  · have hkept := (exists_mem_splitWhere_iff.mp ⟨piece, hpiece, h⟩).2
    simp [hx] at hkept

theorem isAlphanumeric_of_isPunctuation (hx : IsPunctuation x) : isAlphanumeric x = false := by
  have hstarts : ∀ r ∈ alphanumericRanges, 128 ≤ r.first := by decide +kernel
  have hnone : inRanges alphanumericRanges x = false := by
    rw [Bool.eq_false_iff]
    intro h
    obtain ⟨r, hr, hcontains⟩ := inRanges_eq_true_iff.mp h
    simp only [CodeRange.contains, Bool.and_eq_true, decide_eq_true_eq] at hcontains
    have hlow := hstarts r hr
    have hascii := hx.ascii
    omega
  rw [isAlphanumeric, hx.notAlphanum, hnone, Bool.or_false]

theorem not_mem_intercalate {separator : List Char} (hsep : x ∉ separator) {ws : List (List Char)}
    (h : ∀ w ∈ ws, x ∉ w) : x ∉ separator.intercalate ws := by
  induction ws with
  | nil => simp
  | cons w ws ih =>
    have hw := h w List.mem_cons_self
    have hws := ih fun w' hw' => h w' (.tail _ hw')
    cases ws with
    | nil => simpa using hw
    | cons w' ws =>
      rw [List.intercalate_cons_cons]
      simp only [List.mem_append, not_or]
      exact ⟨⟨hw, hsep⟩, hws⟩

theorem not_mem_snakeCase (hx : IsPunctuation x) (hunder : x ≠ '_') (name : String) :
    x ∉ (snakeCase name).toList := by
  rw [snakeCase, joinWords, String.toList_ofList]
  apply not_mem_intercalate (by simpa using hunder)
  intro w hw
  obtain ⟨word, hword, rfl⟩ := List.mem_map.mp hw
  have hnot := not_mem_words (isAlphanumeric_of_isPunctuation hx) hword
  exact not_mem_lowerWord hx hnot

theorem not_mem_escaped {s : String} (h : x ∉ s.toList) (hunder : x ≠ '_') (hr : x ≠ 'r')
    (hhash : x ≠ '#') : x ∉ (escaped s).toList := by
  unfold escaped
  split_ifs <;> simp_all [String.toList_append]

/-- No punctuation but the marks of identifiers stands in the identifier of a module, field or
parameter. -/
theorem punctuation_notMem_snake (hx : IsPunctuation x) (hunder : x ≠ '_') (hhash : x ≠ '#')
    (name : String) : x ∉ (snake name).toList := by
  have hr : x ≠ 'r' := by
    rintro rfl
    exact absurd hx.notAlphanum (by decide)
  rw [snake]
  exact not_mem_escaped (not_mem_snakeCase hx hunder name) hunder hr hhash

theorem not_mem_snake (name : String) : ' ' ∉ (snake name).toList :=
  punctuation_notMem_snake isPunctuation_space (by decide) (by decide) name

theorem not_mem_capitalWord (hx : IsPunctuation x) {word : List Char} (hword : x ∉ word) :
    x ∉ capitalWord word := by
  cases word with
  | nil => simp [capitalWord]
  | cons c cs =>
    simp only [List.mem_cons, not_or] at hword
    simp only [capitalWord, List.mem_append, not_or]
    exact ⟨not_mem_toUppercase hx hword.1, not_mem_lowerWord hx hword.2⟩

theorem not_mem_camelCase (hx : IsPunctuation x) (name : String) :
    x ∉ (camelCase name).toList := by
  rw [camelCase, joinWords, String.toList_ofList]
  apply not_mem_intercalate (by simp)
  intro w hw
  obtain ⟨word, hword, rfl⟩ := List.mem_map.mp hw
  exact not_mem_capitalWord hx (not_mem_words (isAlphanumeric_of_isPunctuation hx) hword)

theorem punctuation_notMem_camel (hx : IsPunctuation x) (hunder : x ≠ '_') (hhash : x ≠ '#')
    (name : String) : x ∉ (camel name).toList := by
  have hcase := not_mem_camelCase hx name
  have hr : x ≠ 'r' := by
    rintro rfl
    exact absurd hx.notAlphanum (by decide)
  unfold camel
  split_ifs
  · simpa [String.toList_append] using ⟨hcase, hunder⟩
  · exact not_mem_escaped hcase hunder hr hhash

end Identifier
end WireSchema
