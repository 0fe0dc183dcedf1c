import Mathlib.Tactic.ByContra
import WireSchema.Proofs.Identifier.Capital

/-!
# Identifiers that can be written

An identifier of the emitted language is a run of letters, digits and underscores that does not
start with a digit, is not an underscore alone and is no word that the language keeps for itself; or
it is such a word with the mark of a raw identifier, unless it is one that no mark sets free. Names
of ASCII in which there is a letter or a digit are spelled as identifiers in all three cases.
-/
namespace WireSchema.Identifier

open Text

/-- Words that the language uses or reserves in one of its editions. -/
def languageWords : List String := [
  "as", "break", "const", "continue", "crate", "else", "enum", "extern", "false", "fn", "for",
  "if", "impl", "in", "let", "loop", "match", "mod", "move", "mut", "pub", "ref", "return", "self",
  "Self", "static", "struct", "super", "trait", "true", "type", "unsafe", "use", "where", "while",
  "async", "await", "dyn", "abstract", "become", "box", "do", "final", "macro", "override", "priv",
  "typeof", "unsized", "virtual", "yield", "try", "gen"]

/-- Those of them that stay reserved behind the mark of a raw identifier. -/
def unmarkedWords : List String := ["crate", "self", "Self", "super"]

/-- An identifier without a mark. -/
structure IsOrdinary (s : String) : Prop where
  nonempty : s ≠ ""
  chars : ∀ c ∈ s.toList, c.isAlphanum = true ∨ c = '_'
  first : startsWithDigit s = false
  ne_underscore : s ≠ "_"
  notMem_languageWords : s ∉ languageWords

theorem isOrdinary_iff {s : String} :
    (s ≠ "" ∧ s.toList.all (fun c => c.isAlphanum || c == '_') = true ∧ startsWithDigit s = false ∧
      s ≠ "_" ∧ s ∉ languageWords) ↔ IsOrdinary s := by
  constructor
  · rintro ⟨hempty, hchars, hfirst, hunder, hwords⟩
    exact ⟨hempty, fun c hc => by simpa using List.all_eq_true.mp hchars c hc, hfirst, hunder,
      hwords⟩
  · rintro ⟨hempty, hchars, hfirst, hunder, hwords⟩
    exact ⟨hempty, List.all_eq_true.mpr fun c hc => by simpa using hchars c hc, hfirst, hunder,
      hwords⟩

instance (s : String) : Decidable (IsOrdinary s) := decidable_of_iff _ isOrdinary_iff

/-- An identifier of the emitted language. -/
inductive IsLegal : String → Prop
  | raw {word : String} (hword : word ∈ languageWords) (hmark : word ∉ unmarkedWords) :
    IsLegal ("r#" ++ word)
  | ordinary {s : String} (h : IsOrdinary s) : IsLegal s

theorem languageWords_covered : ∀ w ∈ languageWords, w ∈ pathWords ∨ w ∈ keywords := by
  decide +kernel

theorem isOrdinary_underscore {s : String} (hs : s ≠ "")
    (hchars : ∀ c ∈ s.toList, c.isAlphanum = true ∨ c = '_') : IsOrdinary ("_" ++ s) := by
  have hwords : ∀ w ∈ languageWords, w.toList.head? ≠ some '_' := by decide +kernel
  have hlist : ("_" ++ s).toList = '_' :: s.toList := by simp [String.toList_append]
  refine ⟨?_, ?_, ?_, ?_, ?_⟩
  · intro h
    simpa [hlist] using congrArg String.toList h
  · rw [hlist, List.forall_mem_cons]
    exact ⟨.inr rfl, hchars⟩
  · simp [startsWithDigit, hlist]
  · intro h
    have hnil : s.toList = [] := by simpa [hlist] using congrArg String.toList h
    exact hs (String.toList_eq_nil_iff.mp hnil)
  · intro hmem
    exact hwords _ hmem (by simp [hlist])

theorem IsIdentifier.ne_empty {s : String} (h : IsIdentifier s) : s ≠ "" := by
  rintro rfl
  obtain ⟨c, hc, -⟩ := h.exists_alphanum
  simp at hc

theorem IsIdentifier.ne_underscore {s : String} (h : IsIdentifier s) : s ≠ "_" := by
  rintro rfl
  exact absurd h (by decide)

theorem isLegal_escaped {s : String} (h : IsIdentifier s) : IsLegal (escaped s) := by
  have hpaths : ∀ w ∈ pathWords, IsOrdinary (w ++ "_") := by decide +kernel
  have hkeywords : ∀ w ∈ keywords, w ∈ languageWords ∧ w ∉ unmarkedWords := by decide +kernel
  unfold escaped
  split_ifs with hpath hkeyword hdigit
  · exact .ordinary (hpaths s hpath)
  · exact .raw (hkeywords s hkeyword).1 (hkeywords s hkeyword).2
  · exact .ordinary (isOrdinary_underscore h.ne_empty h.chars)
  · refine .ordinary ⟨h.ne_empty, h.chars, Bool.eq_false_iff.mpr hdigit, h.ne_underscore, ?_⟩
    intro hmem
    exact (languageWords_covered s hmem).elim hpath hkeyword

variable {x : Char}

theorem isAlphanum_of_mem_words {name word : List Char} (hascii : ∀ c ∈ name, c.toNat < 128)
    (hword : word ∈ words name) (hx : x ∈ word) : x.isAlphanum = true := by
  by_contra hnot
  obtain ⟨piece, hpiece, hhump⟩ := List.mem_flatMap.mp hword
  have hname : x ∈ name := by
    rcases mem_of_mem_humps hhump hx with h | h
    · simp at h
    · exact (exists_mem_splitWhere_iff.mp ⟨piece, hpiece, h⟩).1
  have hpunctuation : IsPunctuation x := ⟨hascii x hname, Bool.eq_false_iff.mpr hnot⟩
  exact not_mem_words (isAlphanumeric_of_isPunctuation hpunctuation) hword hx

/-- What keeps the letters and digits among the codes of ASCII keeps all of them. -/
theorem isAlphanum_of_codes {f : Char → Char} (hcodes : ∀ n < 128,
      (Char.ofNat n).isAlphanum = true → (f (Char.ofNat n)).isAlphanum = true) {c : Char}
    (hc : c.isAlphanum = true) : (f c).isAlphanum = true := by
  have hcode := hcodes c.toNat (toNat_lt_of_isAlphanum hc)
  rw [Char.ofNat_toNat] at hcode
  exact hcode hc

theorem isAlphanum_of_mem_toLowercase {c : Char} (hc : c.isAlphanum = true)
    (hx : x ∈ toLowercase c) : x.isAlphanum = true := by
  rw [toLowercase, if_pos (toNat_lt_of_isAlphanum hc), List.mem_singleton] at hx
  rw [hx]
  exact isAlphanum_of_codes (f := Char.toLower) (by decide +kernel) hc

theorem isAlphanum_of_mem_toUppercase {c : Char} (hc : c.isAlphanum = true)
    (hx : x ∈ toUppercase c) : x.isAlphanum = true := by
  rw [toUppercase, if_pos (toNat_lt_of_isAlphanum hc), List.mem_singleton] at hx
  rw [hx]
  exact isAlphanum_of_codes (f := Char.toUpper) (by decide +kernel) hc

/-- A way to write words that leaves letters and digits such, and leaves something of every word. -/
structure KeepsWords (form : List Char → List Char) : Prop where
  chars : ∀ {word : List Char}, (∀ c ∈ word, c.isAlphanum = true) →
    ∀ c ∈ form word, c.isAlphanum = true
  ne_nil : ∀ {word : List Char}, (∀ c ∈ word, c.isAlphanum = true) → word ≠ [] → form word ≠ []

theorem keepsWords_lowerWord : KeepsWords lowerWord where
  chars {word} hword := by
    fun_induction lowerWord word with
    | case1 => simp
    | case2 => exact absurd (hword 'Σ' List.mem_cons_self) (by decide)
    | case3 c _ => exact fun x hx => isAlphanum_of_mem_toLowercase (hword c List.mem_cons_self) hx
    | case4 c cs _ ih =>
      intro x hx
      rcases List.mem_append.mp hx with hx | hx
      · exact isAlphanum_of_mem_toLowercase (hword c List.mem_cons_self) hx
      · exact ih (fun d hd => hword d (.tail _ hd)) x hx
  ne_nil {word} hword hne := by
    obtain ⟨c, hc⟩ := List.exists_mem_of_ne_nil word hne
    exact lowerWord_ne_nil (toNat_lt_of_isAlphanum (hword c hc)) hc

theorem keepsWords_upperWord : KeepsWords upperWord where
  chars {word} hword x hx := by
    obtain ⟨c, hc, hx⟩ := List.mem_flatMap.mp hx
    exact isAlphanum_of_mem_toUppercase (hword c hc) hx
  ne_nil {word} _ hne := by
    obtain ⟨c, cs, rfl⟩ := List.exists_cons_of_ne_nil hne
    rw [upperWord, List.flatMap_cons]
    exact List.append_ne_nil_of_left_ne_nil (toUppercase_ne_nil c) _

theorem keepsWords_capitalWord : KeepsWords capitalWord where
  chars {word} hword x hx := by
    cases word with
    | nil => simp [capitalWord] at hx
    | cons c cs =>
      rw [List.forall_mem_cons] at hword
      rcases List.mem_append.mp hx with hx | hx
      · exact isAlphanum_of_mem_toUppercase hword.1 hx
      · exact keepsWords_lowerWord.chars hword.2 x hx
  ne_nil {word} _ hne := by
    obtain ⟨c, cs, rfl⟩ := List.exists_cons_of_ne_nil hne
    exact List.append_ne_nil_of_left_ne_nil (toUppercase_ne_nil c) _

theorem mem_intercalate {separator w : List Char} {ws : List (List Char)} (hw : w ∈ ws)
    (hx : x ∈ w) : x ∈ separator.intercalate ws := by
  induction ws with
  | nil => simp at hw
  | cons first ws ih =>
    cases ws with
    | nil =>
      obtain rfl := List.mem_singleton.mp hw
      simpa using hx
    | cons second ws =>
      rw [List.intercalate_cons_cons]
      rcases List.mem_cons.mp hw with rfl | hw
      · simp [hx]
      · simp [ih hw]

/-- Joined by underscores, or by nothing, the words of a name are letters, digits and underscores
with a letter or a digit among them. -/
theorem isIdentifier_joinWords {form : List Char → List Char} {separator : List Char}
    (hform : KeepsWords form) (hseparator : ∀ c ∈ separator, c = '_') {name : String}
    (hascii : ∀ c ∈ name.toList, c.toNat < 128) (hname : ∃ c ∈ name.toList, c.isAlphanum = true) :
    IsIdentifier (joinWords form separator name) := by
  have hchars : ∀ word ∈ words name.toList, ∀ c ∈ word, c.isAlphanum = true :=
    fun word hword c hc => isAlphanum_of_mem_words hascii hword hc
  rw [joinWords]
  constructor
  · intro c hc
    by_contra hnot
    rw [not_or] at hnot
    rw [String.toList_ofList] at hc
    refine not_mem_intercalate (fun hmem => hnot.2 (hseparator c hmem)) ?_ hc
    intro w hw hmem
    obtain ⟨word, hword, rfl⟩ := List.mem_map.mp hw
    exact hnot.1 (hform.chars (hchars word hword) c hmem)
  · obtain ⟨c, hc, halphanum⟩ := hname
    obtain ⟨word, hword, hmem⟩ := exists_mem_words (isAlphanumeric_of_isAlphanum halphanum) hc
    have hne : form word ≠ [] := hform.ne_nil (hchars word hword) (List.ne_nil_of_mem hmem)
    obtain ⟨d, hd⟩ := List.exists_mem_of_ne_nil _ hne
    refine ⟨d, ?_, hform.chars (hchars word hword) d hd⟩
    rw [String.toList_ofList]
    exact mem_intercalate (List.mem_map_of_mem hword) hd

theorem escaped_notMem_preludeTypes {s : String} (h : s ∉ preludeTypes) :
    escaped s ∉ preludeTypes := by
  have hpaths : ∀ w ∈ pathWords, w ++ "_" ∉ preludeTypes := by decide +kernel
  have hkeywords : ∀ w ∈ keywords, "r#" ++ w ∉ preludeTypes := by decide +kernel
  have hprelude : ∀ w ∈ preludeTypes, w.toList.head? ≠ some '_' := by decide +kernel
  unfold escaped
  split_ifs with hpath hkeyword hdigit
  · exact hpaths s hpath
  · exact hkeywords s hkeyword
  · exact fun hmem => hprelude _ hmem (by simp [String.toList_append])
  · exact h

theorem camel_notMem_preludeTypes (name : String) : camel name ∉ preludeTypes := by
  have hmarked : ∀ w ∈ preludeTypes, w ++ "_" ∉ preludeTypes := by decide +kernel
  unfold camel
  split_ifs with hprelude
  · exact hmarked _ hprelude
  · exact escaped_notMem_preludeTypes hprelude

theorem isLegal_camel {name : String} (h : IsIdentifier (camelCase name)) :
    IsLegal (camel name) := by
  have hmarked : ∀ w ∈ preludeTypes, IsOrdinary (w ++ "_") := by decide +kernel
  unfold camel
  split_ifs with hprelude
  · exact .ordinary (hmarked _ hprelude)
  · exact isLegal_escaped h

/-- However a name of ASCII is written, if there is a letter or a digit in it then its spellings for
modules, types and constants are identifiers of the language, and that for types is none of the
types that are in scope everywhere. -/
theorem spellings_are_legal (name : String) (hascii : ∀ c ∈ name.toList, c.toNat < 128)
    (hname : ∃ c ∈ name.toList, c.isAlphanum = true) :
    IsLegal (snake name) ∧ IsLegal (camel name) ∧ IsLegal (shouty name) ∧
      camel name ∉ ["Box", "Option", "Result", "String", "Vec", "Self"] := by
  have hunder : ∀ c ∈ ['_'], c = '_' := fun c hc => List.mem_singleton.mp hc
  refine ⟨?_, ?_, ?_, camel_notMem_preludeTypes name⟩
  · rw [snake]
    exact isLegal_escaped (isIdentifier_joinWords keepsWords_lowerWord hunder hascii hname)
  · exact isLegal_camel (isIdentifier_joinWords keepsWords_capitalWord (by simp) hascii hname)
  · exact isLegal_escaped (isIdentifier_joinWords keepsWords_upperWord hunder hascii hname)

/-- A name that is a reserved word in one case and a type of the prelude in another, and one of
which punctuation leaves a digit in front. -/
theorem spellings_are_legal_box :
    (snake "-Box-" = "r#box" ∧ camel "-Box-" = "Box_" ∧ shouty "-Box-" = "BOX" ∧
      snake "$3rdSelf" = "_3rd_self") ∧
    (IsLegal "r#box" ∧ IsLegal "Box_" ∧ IsLegal "BOX" ∧ IsLegal "_3rd_self") ∧
    camel "-Box-" ∉ ["Box", "Option", "Result", "String", "Vec", "Self"] := by
  have hbox : snake "-Box-" = "r#box" ∧ camel "-Box-" = "Box_" ∧ shouty "-Box-" = "BOX" := by
    decide +kernel
  have hthird : snake "$3rdSelf" = "_3rd_self" := by decide +kernel
  have hascii : ∀ name ∈ ["-Box-", "$3rdSelf"], ∀ c ∈ name.toList, c.toNat < 128 := by
    have hall : ∀ name ∈ ["-Box-", "$3rdSelf"], name.toList.all (·.toNat < 128) = true := by
      decide +kernel
    exact fun name hname c hc => of_decide_eq_true (List.all_eq_true.mp (hall name hname) c hc)
  obtain ⟨hsnake, hcamel, hshouty, hprelude⟩ :=
    spellings_are_legal "-Box-" (hascii _ (by simp)) ⟨'B', by decide, by decide⟩
  obtain ⟨hdigit, -⟩ :=
    spellings_are_legal "$3rdSelf" (hascii _ (by simp)) ⟨'3', by decide, by decide⟩
  rw [hbox.1] at hsnake
  rw [hbox.2.1] at hcamel
  rw [hbox.2.2] at hshouty
  rw [hthird] at hdigit
  exact ⟨⟨hbox.1, hbox.2.1, hbox.2.2, hthird⟩, ⟨hsnake, hcamel, hshouty, hdigit⟩, hprelude⟩

end WireSchema.Identifier
