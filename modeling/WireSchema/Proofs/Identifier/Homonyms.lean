import WireSchema.Identifier.Namespace
import WireSchema.Proofs.Identifier.Capital

/-!
# Names that are spelled alike

Words are not empty and hold no underscore, so the snake-case form of a name neither starts nor ends
with one. The escapes add one in front or at the end, or a mark that is dropped from the stem. What
was escaped can therefore be read off the stem, and two names have the same stem exactly if they are
the same identifier of a module. A scope that records the stems of its names refuses exactly the
names whose identifiers it has.
-/
namespace WireSchema

open Text

namespace Identifier

/-- Only at a boundary is no character of a word pending. -/
theorem humps_ne_nil {mode : WordMode} {pending cs word : List Char}
    (hmode : pending = [] → mode = .boundary) (h : word ∈ humps mode pending cs) : word ≠ [] := by
  fun_induction humps mode pending cs with
  | case1 => simp at h
  | case2 mode pending hpending =>
    obtain rfl := List.mem_singleton.mp h
    simpa using hpending
  | case3 mode pending c =>
    obtain rfl := List.mem_singleton.mp h
    simp
  | case4 mode pending c next rest _ ih =>
    rcases List.mem_cons.mp h with rfl | h
    · simp
    · exact ih (fun _ => rfl) h
  | case5 mode pending c next rest _ hupper ih =>
    rcases List.mem_cons.mp h with rfl | h
    · intro hnil
      rw [hmode (List.reverse_eq_nil_iff.mp hnil)] at hupper
      simp at hupper
    · exact ih (by simp) h
  | case6 mode pending c next rest _ _ ih => exact ih (by simp) h

theorem words_ne_nil {name word : List Char} (h : word ∈ words name) : word ≠ [] := by
  obtain ⟨piece, -, hword⟩ := List.mem_flatMap.mp h
  exact humps_ne_nil (fun _ => rfl) hword

theorem lowerWord_eq_nil_iff {word : List Char} : lowerWord word = [] ↔ word = [] := by
  fun_cases lowerWord word with
  | case1 => simp
  | case2 => simp
  | case3 c _ => simp [toLowercase_ne_nil c]
  | case4 c cs _ => simp [toLowercase_ne_nil c]

section Joined

variable {separator : List Char} {ws : List (List Char)} {c : Char}

theorem exists_mem_of_head?_intercalate (hws : ∀ w ∈ ws, w ≠ [])
    (h : (separator.intercalate ws).head? = some c) : ∃ w ∈ ws, c ∈ w := by
  cases ws with
  | nil => simp at h
  | cons w ws =>
    refine ⟨w, List.mem_cons_self, List.mem_of_head? ?_⟩
    cases ws with
    | nil => simpa using h
    | cons next ws =>
      obtain ⟨d, ds, rfl⟩ := List.exists_cons_of_ne_nil (hws w List.mem_cons_self)
      rw [List.intercalate_cons_cons] at h
      simpa using h

theorem exists_mem_of_getLast?_intercalate (hws : ∀ w ∈ ws, w ≠ [])
    (h : (separator.intercalate ws).getLast? = some c) : ∃ w ∈ ws, c ∈ w := by
  induction ws with
  | nil => simp at h
  | cons w ws ih =>
    cases ws with
    | nil => exact ⟨w, by simp, List.mem_of_getLast? (by simpa using h)⟩
    | cons next ws =>
      have hrest : separator.intercalate (next :: ws) ≠ [] :=
        intercalate_ne_nil List.mem_cons_self (hws next (by simp))
      have hlast : (separator.intercalate (next :: ws)).getLast? = some c := by
        rwa [List.intercalate_cons_cons, List.getLast?_append,
          Option.or_of_isSome (List.getLast?_isSome.mpr hrest)] at h
      obtain ⟨last, hlast, hc⟩ := ih (fun v hv => hws v (.tail _ hv)) hlast
      exact ⟨last, .tail _ hlast, hc⟩

end Joined

/-- A text without an underscore at its ends and without the mark of a raw identifier. -/
structure IsUnescaped (cs : List Char) : Prop where
  head : cs.head? ≠ some '_'
  last : cs.getLast? ≠ some '_'
  hash : '#' ∉ cs

theorem isUnescaped_snakeCase (name : String) : IsUnescaped (snakeCase name).toList := by
  have hunder : IsPunctuation '_' := ⟨by decide, by decide⟩
  have hnonempty : ∀ w ∈ (words name.toList).map lowerWord, w ≠ [] := by
    intro w hw
    obtain ⟨word, hword, rfl⟩ := List.mem_map.mp hw
    exact fun hnil => words_ne_nil hword (lowerWord_eq_nil_iff.mp hnil)
  have hinner : ¬ ∃ w ∈ (words name.toList).map lowerWord, '_' ∈ w := by
    rintro ⟨w, hw, hmem⟩
    obtain ⟨word, hword, rfl⟩ := List.mem_map.mp hw
    exact not_mem_lowerWord hunder
      (not_mem_words (isAlphanumeric_of_isPunctuation hunder) hword) hmem
  refine ⟨?_, ?_, not_mem_snakeCase ⟨by decide, by decide⟩ (by decide) name⟩
  · rw [snakeCase, joinWords, String.toList_ofList]
    exact fun h => hinner (exists_mem_of_head?_intercalate hnonempty h)
  · rw [snakeCase, joinWords, String.toList_ofList]
    exact fun h => hinner (exists_mem_of_getLast?_intercalate hnonempty h)

/-- Takes the underscore of an escape away, which is the first character or else the last. -/
def withoutEscape (cs : List Char) : List Char :=
  if cs.head? = some '_' then cs.tail
  else if cs.getLast? = some '_' then cs.dropLast
  else cs

theorem withoutEscape_of_isUnescaped {cs : List Char} (h : IsUnescaped cs) :
    withoutEscape cs = cs := by
  rw [withoutEscape, if_neg h.head, if_neg h.last]

theorem withoutEscape_dropRawMarks_escaped {s : String} (h : IsUnescaped s.toList) :
    withoutEscape (dropRawMarks (escaped s).toList) = s.toList := by
  have hpaths : ∀ w ∈ pathWords,
      withoutEscape (dropRawMarks (w ++ "_").toList) = w.toList := by decide +kernel
  have hkeywords : ∀ w ∈ keywords,
      withoutEscape (dropRawMarks ("r#" ++ w).toList) = w.toList := by decide +kernel
  unfold escaped
  split_ifs with hpath hkeyword hdigit
  · exact hpaths s hpath
  · exact hkeywords s hkeyword
  · rw [dropRawMarks_of_notMem (by simpa [String.toList_append] using h.hash)]
    simp [String.toList_append, withoutEscape]
  · rw [dropRawMarks_of_notMem h.hash, withoutEscape_of_isUnescaped h]

theorem withoutEscape_stem (name : String) :
    withoutEscape (stem name).toList = (snakeCase name).toList := by
  rw [stem, String.toList_ofList, snake]
  exact withoutEscape_dropRawMarks_escaped (isUnescaped_snakeCase name)

/-- Two names have one stem exactly if they are one identifier. -/
theorem stem_eq_stem_iff {a b : String} : stem a = stem b ↔ snake a = snake b := by
  constructor
  · intro h
    have hcase : (snakeCase a).toList = (snakeCase b).toList := by
      rw [← withoutEscape_stem, ← withoutEscape_stem, h]
    rw [snake, snake, String.toList_inj.mp hcase]
  · intro h
    rw [stem, stem, h]

namespace Namespace

variable {n : Namespace} {claims : List (String × String)}

theorem claimAll_cons (n : Namespace) (spelling name : String) :
    n.claimAll ((spelling, name) :: claims) =
      n.claim spelling name >>= fun next => next.claimAll claims := rfl

/-- Spellings can be claimed one after the other if they differ and none of them is taken. -/
theorem exists_claimAll_eq_ok_iff : (∃ n', n.claimAll claims = .ok n') ↔
    (∀ c ∈ claims, c.1 ∉ n.taken) ∧ (claims.map Prod.fst).Nodup := by
  induction claims generalizing n with
  | nil => exact iff_of_true ⟨n, rfl⟩ ⟨by simp, .nil⟩
  | cons c claims ih =>
    obtain ⟨spelling, name⟩ := c
    rw [claimAll_cons]
    by_cases htaken : spelling ∈ n.taken
    · have hclaim : n.claim spelling name = .error (.duplicateName n.scope.text name) :=
        if_pos htaken
      refine iff_of_false ?_ fun hfree => hfree.1 _ List.mem_cons_self htaken
      rintro ⟨n', hn'⟩
      rw [hclaim] at hn'
      cases hn'
    · have hclaim : n.claim spelling name = .ok { n with taken := spelling :: n.taken } :=
        if_neg htaken
      rw [hclaim]
      refine ih.trans ?_
      simp only [List.mem_cons, not_or, List.map_cons, List.nodup_cons,
        List.mem_map, not_exists, not_and]
      grind

end Namespace
end Identifier
end WireSchema
