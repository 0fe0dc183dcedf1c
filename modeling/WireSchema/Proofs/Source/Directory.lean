import Mathlib.Data.List.Nodup
import Mathlib.Data.List.Perm.Basic
import WireSchema.Proofs.Identifier.Stem
import WireSchema.Proofs.Source.Declarations

/-!
# Directories and the modules they declare

A module that is declared in a directory is found in a file of that directory or in the index of a
directory inside. Both stand for the same place of the tree. In a tree whose directories declare
exactly what is in them, every place below the root is declared once and has one file.
-/
namespace WireSchema.Source

open Identifier

/-- The stem under which the file of a declared module is looked up. -/
def moduleStem (module : String) : String := String.ofList (dropRawMarks module.toList)

/-- The module that is declared in a directory is at this path. -/
def Names (dir : List String) (module : String) (path : List String) : Prop :=
  path = dir ++ [moduleStem module ++ ".rs"] ∨ path = dir ++ [moduleStem module, indexFile]

instance (dir : List String) (module : String) (path : List String) :
    Decidable (Names dir module path) :=
  inferInstanceAs (Decidable (_ ∨ _))

namespace Target

/-- The declarations in a file, each with its directory. Only the index of a directory has any. -/
def declarationsIn (t : Target) (f : SourceFile) : List (List String × String) :=
  if f.path.getLast? = some indexFile then
    (t.modulesIn f).map fun module => (f.path.dropLast, module)
  else []

def declarations (t : Target) (files : List SourceFile) : List (List String × String) :=
  files.flatMap t.declarationsIn

/-- Declarations and files other than the root's correspond one to one. -/
structure Closed (t : Target) (files : List SourceFile) : Prop where
  root : files.countP (fun f => f.path = [indexFile]) = 1
  declared : ∀ e ∈ t.declarations files, files.countP (fun f => Names e.1 e.2 f.path) = 1
  found : ∀ f ∈ files, f.path ≠ [indexFile] →
    (t.declarations files).countP (fun e => Names e.1 e.2 f.path) = 1
  paths_nodup : (files.map (·.pathText)).Nodup

def placeOf (e : List String × String) : List String := e.1 ++ [moduleStem e.2]

end Target

/-- The place for which a file stands, its directory if the file is an index. -/
def place? (path : List String) : Option (List String) :=
  match path.getLast? with
  | none => none
  | some file =>
    if file = indexFile then some path.dropLast
    else (file.toList.dropSuffix? ".rs".toList).map fun s => path.dropLast ++ [String.ofList s]

theorem append_rs_ne_indexFile {s : String} (h : s ≠ "mod") : s ++ ".rs" ≠ indexFile := by
  intro heq
  have hlist := congrArg String.toList heq
  rw [String.toList_append, show indexFile.toList = "mod".toList ++ ".rs".toList from rfl,
    List.append_left_inj] at hlist
  exact h (String.toList_inj.mp hlist)

theorem place?_index (dir : List String) : place? (dir ++ [indexFile]) = some dir := by
  simp [place?]

theorem place?_file (dir : List String) {s : String} (h : s ≠ "mod") :
    place? (dir ++ [s ++ ".rs"]) = some (dir ++ [s]) := by
  have hdrop : (s ++ ".rs").toList.dropSuffix? ".rs".toList = some s.toList := by
    rw [List.dropSuffix?_eq_some_iff]
    exact ⟨".rs".toList, by rw [String.toList_append], by simp⟩
  simp only [place?, List.getLast?_concat, append_rs_ne_indexFile h, if_false, hdrop,
    List.dropLast_concat, Option.map_some, String.ofList_toList]

theorem place?_eq_some_iff {path place : List String} :
    place? path = some place ↔ path = place ++ [indexFile] ∨
      ∃ dir s, s ≠ "mod" ∧ place = dir ++ [s] ∧ path = dir ++ [s ++ ".rs"] := by
  constructor
  · intro h
    rcases List.eq_nil_or_concat path with rfl | ⟨dir, file, rfl⟩
    · simp [place?] at h
    · by_cases hfile : file = indexFile
      · subst hfile
        rw [List.concat_eq_append, place?_index] at h
        left
        rw [← Option.some.inj h, List.concat_eq_append]
      · simp only [place?, List.concat_eq_append, List.getLast?_append, List.getLast?_singleton,
          Option.some_or, hfile, if_false, List.dropLast_concat, Option.map_eq_some_iff,
          List.dropSuffix?_eq_some_iff, beq_iff_eq] at h
        obtain ⟨cs, ⟨_, hcs, rfl⟩, rfl⟩ := h
        have hsplit : file = String.ofList cs ++ ".rs" := by
          rw [← String.toList_inj, String.toList_append, String.toList_ofList, hcs]
        refine .inr ⟨dir, String.ofList cs, ?_, rfl, ?_⟩
        · intro hmod
          rw [hmod] at hsplit
          exact hfile hsplit
        · rw [List.concat_eq_append, hsplit]
  · rintro (rfl | ⟨dir, s, hs, rfl, rfl⟩)
    · exact place?_index place
    · exact place?_file dir hs

theorem names_iff {dir path : List String} {module : String} (h : moduleStem module ≠ "mod") :
    Names dir module path ↔ place? path = some (Target.placeOf (dir, module)) := by
  rw [place?_eq_some_iff, Names, Target.placeOf, or_comm]
  apply or_congr
  · simp
  · constructor
    · intro hpath
      exact ⟨dir, moduleStem module, h, rfl, hpath⟩
    · rintro ⟨dir', s, -, hplace, rfl⟩
      obtain ⟨rfl, hs⟩ := List.append_inj' hplace rfl
      rw [List.cons.inj hs |>.1]

/-- A directory with an index, files of its own and directories inside, all of which the index
declares. -/
structure Lists (t : Target) (dir : List String) (index : SourceFile)
    (own : List (String × SourceFile)) (inner : List (String × List SourceFile)) : Prop where
  index_path : index.path = dir ++ [indexFile]
  own_path : ∀ e ∈ own, e.2.path = dir ++ [moduleStem e.1 ++ ".rs"]
  modules_perm : (t.modulesIn index).Perm (own.map Prod.fst ++ inner.map Prod.fst)
  stems_nodup : ("mod" :: (t.modulesIn index).map moduleStem).Nodup
  slash_notMem : ∀ module ∈ t.modulesIn index, '/' ∉ (moduleStem module).toList

/-- The files at and below a directory. -/
inductive Directory (t : Target) : List String → List SourceFile → Prop
  | intro {dir : List String} {files : List SourceFile} {index : SourceFile}
      {own : List (String × SourceFile)} {inner : List (String × List SourceFile)}
      (lists : Lists t dir index own inner)
      (below : ∀ e ∈ inner, Directory t (dir ++ [moduleStem e.1]) e.2)
      (files_perm : files.Perm (own.map Prod.snd ++ inner.flatMap Prod.snd ++ [index])) :
      Directory t dir files

/-- A place under a directory that can be declared step by step. -/
def Below (dir place : List String) : Prop :=
  ∃ rest, rest ≠ [] ∧ place = dir ++ rest ∧ ∀ s ∈ rest, s ≠ "mod" ∧ '/' ∉ s.toList

variable {t : Target} {dir : List String} {files : List SourceFile} {index : SourceFile}
  {own : List (String × SourceFile)} {inner : List (String × List SourceFile)}

namespace Lists

theorem stem_ne_mod (h : Lists t dir index own inner) {module : String}
    (hmem : module ∈ t.modulesIn index) : moduleStem module ≠ "mod" := by
  rintro heq
  exact (List.nodup_cons.mp h.stems_nodup).1 (heq ▸ List.mem_map_of_mem hmem)

theorem own_mem (h : Lists t dir index own inner) {e : String × SourceFile} (he : e ∈ own) :
    e.1 ∈ t.modulesIn index :=
  h.modules_perm.mem_iff.mpr (List.mem_append_left _ (List.mem_map_of_mem he))

theorem inner_mem (h : Lists t dir index own inner) {e : String × List SourceFile}
    (he : e ∈ inner) : e.1 ∈ t.modulesIn index :=
  h.modules_perm.mem_iff.mpr (List.mem_append_right _ (List.mem_map_of_mem he))

theorem inner_pairwise (h : Lists t dir index own inner) :
    inner.Pairwise fun a b => moduleStem a.1 ≠ moduleStem b.1 := by
  have hnodup := (List.nodup_cons.mp h.stems_nodup).2
  rw [(h.modules_perm.map moduleStem).nodup_iff, List.map_append] at hnodup
  have hinner := hnodup.of_append_right
  rw [List.map_map] at hinner
  exact List.pairwise_map.mp hinner

theorem declarationsIn_index (h : Lists t dir index own inner) :
    t.declarationsIn index = (t.modulesIn index).map fun module => (dir, module) := by
  simp [Target.declarationsIn, h.index_path]

theorem declarationsIn_own (h : Lists t dir index own inner) {e : String × SourceFile}
    (he : e ∈ own) : t.declarationsIn e.2 = [] := by
  have hne := append_rs_ne_indexFile (h.stem_ne_mod (h.own_mem he))
  simp [Target.declarationsIn, h.own_path e he, hne]

theorem declarations_perm (h : Lists t dir index own inner)
    (hfiles : files.Perm (own.map Prod.snd ++ inner.flatMap Prod.snd ++ [index])) :
    (t.declarations files).Perm
      ((t.modulesIn index).map (fun module => (dir, module)) ++
        inner.flatMap fun e => t.declarations e.2) := by
  have hown : (own.map Prod.snd).flatMap t.declarationsIn = [] := by
    rw [List.flatMap_map, List.flatMap_eq_nil_iff]
    exact fun e he => h.declarationsIn_own he
  have hinner : (inner.flatMap Prod.snd).flatMap t.declarationsIn =
      inner.flatMap fun e => t.declarations e.2 := List.flatMap_assoc
  refine (hfiles.flatMap_right t.declarationsIn).trans ?_
  rw [List.flatMap_append, List.flatMap_append, hown, hinner, List.nil_append,
    List.flatMap_singleton, h.declarationsIn_index]
  exact List.perm_append_comm

/-- The files of a directory stand for the places that it declares, and its index for itself. -/
theorem places_perm (h : Lists t dir index own inner)
    (hfiles : files.Perm (own.map Prod.snd ++ inner.flatMap Prod.snd ++ [index])) :
    (files.map fun f => place? f.path).Perm
      (own.map (fun e => some (dir ++ [moduleStem e.1])) ++
        inner.flatMap (fun e => e.2.map fun f => place? f.path) ++ [some dir]) := by
  have hown : (own.map Prod.snd).map (fun f => place? f.path) =
      own.map fun e => some (dir ++ [moduleStem e.1]) := by
    rw [List.map_map]
    apply List.map_congr_left
    intro e he
    rw [Function.comp_apply, h.own_path e he, place?_file dir (h.stem_ne_mod (h.own_mem he))]
  refine (hfiles.map _).trans (.of_eq ?_)
  rw [List.map_append, List.map_append, hown, List.map_flatMap, List.map_singleton, h.index_path,
    place?_index]

end Lists

namespace Directory

/-- The places of the files are the directory itself and what is declared. -/
theorem places_perm (h : Directory t dir files) :
    (files.map fun f => place? f.path).Perm
      ((dir :: (t.declarations files).map Target.placeOf).map some) := by
  induction h with
  | @intro dir files index own inner lists _ hfiles ih =>
    -- A directory inside has its own place, which is declared here, and those it declares itself.
    have hinner : (inner.flatMap fun e => e.2.map fun f => place? f.path).Perm
        (inner.map (fun e => some (dir ++ [moduleStem e.1])) ++
          inner.flatMap fun e => ((t.declarations e.2).map Target.placeOf).map some) :=
      (List.Perm.flatMap_left inner ih).trans (List.map_append_flatMap_perm _ _ _).symm
    have hmodules : ((t.modulesIn index).map fun module => some (dir ++ [moduleStem module])).Perm
        (own.map (fun e => some (dir ++ [moduleStem e.1])) ++
          inner.map fun e => some (dir ++ [moduleStem e.1])) := by
      have hmap := lists.modules_perm.map fun module => some (dir ++ [moduleStem module])
      rwa [List.map_append, List.map_map, List.map_map] at hmap
    have hdeclared : (((t.declarations files).map Target.placeOf).map some).Perm
        ((t.modulesIn index).map (fun module => some (dir ++ [moduleStem module])) ++
          inner.flatMap fun e => ((t.declarations e.2).map Target.placeOf).map some) := by
      refine (((lists.declarations_perm hfiles).map Target.placeOf).map some).trans (.of_eq ?_)
      rw [List.map_append, List.map_append, List.map_map, List.map_map, List.map_flatMap,
        List.map_flatMap]
      rfl
    refine (lists.places_perm hfiles).trans ?_
    refine (List.perm_append_singleton _ _).trans (List.Perm.cons _ ?_)
    refine ((List.Perm.refl _).append hinner).trans (.trans ?_ hdeclared.symm)
    rw [← List.append_assoc]
    exact hmodules.symm.append (.refl _)

theorem below_of_mem (h : Directory t dir files) :
    ∀ e ∈ t.declarations files, Below dir (Target.placeOf e) := by
  induction h with
  | @intro dir files index own inner lists _ hfiles ih =>
    intro e he
    rcases List.mem_append.mp ((lists.declarations_perm hfiles).mem_iff.mp he) with he | he
    · obtain ⟨module, hmodule, rfl⟩ := List.mem_map.mp he
      refine ⟨[moduleStem module], by simp, rfl, ?_⟩
      intro s hs
      obtain rfl := List.mem_singleton.mp hs
      exact ⟨lists.stem_ne_mod hmodule, lists.slash_notMem module hmodule⟩
    · obtain ⟨sub, hsub, he⟩ := List.mem_flatMap.mp he
      obtain ⟨rest, -, hplace, hrest⟩ := ih sub hsub e he
      have hmodule := lists.inner_mem hsub
      refine ⟨moduleStem sub.1 :: rest, by simp, by rw [hplace, List.append_assoc]; rfl, ?_⟩
      intro s hs
      rcases List.mem_cons.mp hs with rfl | hs
      · exact ⟨lists.stem_ne_mod hmodule, lists.slash_notMem sub.1 hmodule⟩
      · exact hrest s hs

theorem placeOf_nodup (h : Directory t dir files) :
    ((t.declarations files).map Target.placeOf).Nodup := by
  induction h with
  | @intro dir files index own inner lists below hfiles ih =>
    rw [((lists.declarations_perm hfiles).map Target.placeOf).nodup_iff, List.map_append,
      List.map_map, List.map_flatMap, List.nodup_append']
    have hbelow : ∀ e ∈ inner, ∀ place ∈ (t.declarations e.2).map Target.placeOf,
        Below (dir ++ [moduleStem e.1]) place := by
      intro e he place hplace
      obtain ⟨d, hd, rfl⟩ := List.mem_map.mp hplace
      exact (below e he).below_of_mem d hd
    refine ⟨?_, List.nodup_flatMap.mpr ⟨ih, lists.inner_pairwise.imp_of_mem ?_⟩, ?_⟩
    · have hstems := (List.nodup_cons.mp lists.stems_nodup).2
      refine List.Nodup.of_map (fun place => place.getLast?) ?_
      rw [List.map_map]
      have hlast : ((fun place : List String => place.getLast?) ∘ Target.placeOf ∘
          fun module => (dir, module)) = some ∘ moduleStem := by
        funext module
        simp [Target.placeOf]
      rw [hlast, ← List.map_map]
      exact hstems.map (Option.some_injective _)
    · -- Directories with different stems share no place.
      intro a b ha hb hne place hplace hplace'
      obtain ⟨rest, -, rfl, -⟩ := hbelow a ha place hplace
      obtain ⟨rest', -, heq, -⟩ := hbelow b hb _ hplace'
      rw [List.append_assoc, List.append_assoc, List.append_cancel_left_eq] at heq
      exact hne (List.cons.inj heq).1
    · -- What is declared here lies directly in the directory, the rest lies deeper.
      intro place hplace hplace'
      obtain ⟨module, -, rfl⟩ := List.mem_map.mp hplace
      obtain ⟨e, he, hplace'⟩ := List.mem_flatMap.mp hplace'
      obtain ⟨rest, hne, heq, -⟩ := hbelow e he _ hplace'
      change dir ++ [moduleStem module] = dir ++ [moduleStem e.1] ++ rest at heq
      rw [List.append_assoc, List.append_cancel_left_eq] at heq
      exact hne (List.cons.inj heq).2.symm

/-- The files of a tree stand for different places. -/
theorem places_nodup (h : Directory t dir files) :
    (files.map fun f => place? f.path).Nodup := by
  rw [h.places_perm.nodup_iff]
  refine List.Nodup.map (Option.some_injective _) (List.nodup_cons.mpr ⟨?_, h.placeOf_nodup⟩)
  intro hmem
  obtain ⟨e, he, heq⟩ := List.mem_map.mp hmem
  obtain ⟨rest, hne, hplace, -⟩ := h.below_of_mem e he
  rw [heq, List.self_eq_append_right] at hplace
  exact hne hplace

theorem stem_ne_mod (h : Directory t dir files) {e : List String × String}
    (he : e ∈ t.declarations files) : moduleStem e.2 ≠ "mod" := by
  obtain ⟨rest, hne, hplace, hrest⟩ := h.below_of_mem e he
  have hlast : (dir ++ rest).getLast? = some (moduleStem e.2) := by
    rw [← hplace, Target.placeOf, List.getLast?_concat]
  rw [List.getLast?_append_of_ne_nil _ hne] at hlast
  exact (hrest _ (List.mem_of_getLast? hlast)).1

/-- A file of the tree is its root's or stands for a place that is declared. -/
theorem place_cases (h : Directory t [] files) {f : SourceFile} (hf : f ∈ files) :
    f.path = [indexFile] ∨
      ∃ e ∈ t.declarations files, place? f.path = some (Target.placeOf e) := by
  have hmem := h.places_perm.mem_iff.mp (List.mem_map_of_mem hf)
  rw [List.map_cons, List.map_map] at hmem
  rcases List.mem_cons.mp hmem with hroot | hmem
  · rcases place?_eq_some_iff.mp hroot with hpath | ⟨d, s, -, hnil, -⟩
    · exact .inl hpath
    · simp at hnil
  · obtain ⟨e, he, heq⟩ := List.mem_map.mp hmem
    exact .inr ⟨e, he, heq.symm⟩

theorem slash_notMem_path (h : Directory t [] files) {f : SourceFile} (hf : f ∈ files) :
    f.path ≠ [] ∧ ∀ s ∈ f.path, '/' ∉ s.toList := by
  have hindex : '/' ∉ indexFile.toList := by decide
  rcases h.place_cases hf with hroot | ⟨e, he, hplace⟩
  · rw [hroot]
    exact ⟨by simp, by simpa using hindex⟩
  · obtain ⟨rest, -, hbelow, hrest⟩ := h.below_of_mem e he
    rw [hbelow, List.nil_append] at hplace
    rcases place?_eq_some_iff.mp hplace with hpath | ⟨d, s, -, rfl, hpath⟩
    · rw [hpath]
      refine ⟨by simp, fun c hc => ?_⟩
      rcases List.mem_append.mp hc with hc | hc
      · exact (hrest c hc).2
      · exact List.mem_singleton.mp hc ▸ hindex
    · rw [hpath]
      refine ⟨by simp, fun c hc => ?_⟩
      rcases List.mem_append.mp hc with hc | hc
      · exact (hrest c (List.mem_append_left _ hc)).2
      · rw [List.mem_singleton.mp hc, String.toList_append, List.mem_append, not_or]
        exact ⟨(hrest s (by simp)).2, by decide⟩

theorem countP_place (h : Directory t dir files) {place : List String}
    (hmem : place ∈ dir :: (t.declarations files).map Target.placeOf) :
    files.countP (fun f => place? f.path = some place) = 1 := by
  have hcount := List.count_eq_one_of_mem h.places_nodup
    (h.places_perm.mem_iff.mpr (List.mem_map_of_mem hmem))
  rw [List.count, List.countP_map] at hcount
  rw [← hcount]
  apply List.countP_congr
  simp

theorem countP_placeOf (h : Directory t dir files) {e : List String × String}
    (he : e ∈ t.declarations files) :
    (t.declarations files).countP (fun e' => Target.placeOf e' = Target.placeOf e) = 1 := by
  have hcount := List.count_eq_one_of_mem h.placeOf_nodup (List.mem_map_of_mem he)
  rw [List.count, List.countP_map] at hcount
  rw [← hcount]
  apply List.countP_congr
  simp

theorem splitOn_intercalate_slash {path : List String}
    (h : path ≠ [] ∧ ∀ s ∈ path, '/' ∉ s.toList) :
    List.splitOn '/' ("/".intercalate path).toList = path.map String.toList := by
  rw [String.toList_intercalate]
  refine List.splitOn_intercalate '/' ?_ (by simpa using h.1)
  intro cs hcs
  obtain ⟨s, hs, rfl⟩ := List.mem_map.mp hcs
  exact h.2 s hs

/-- Components without a slash can be read back from the text of a path. -/
theorem eq_of_intercalate_eq {a b : List String} (ha : a ≠ [] ∧ ∀ s ∈ a, '/' ∉ s.toList)
    (hb : b ≠ [] ∧ ∀ s ∈ b, '/' ∉ s.toList) (h : "/".intercalate a = "/".intercalate b) :
    a = b := by
  have hlists : a.map String.toList = b.map String.toList := by
    rw [← splitOn_intercalate_slash ha, ← splitOn_intercalate_slash hb, h]
  exact List.map_injective_iff.mpr (fun _ _ => String.toList_injective) hlists

theorem pathText_nodup (h : Directory t [] files) : (files.map (·.pathText)).Nodup := by
  refine List.Nodup.map_on ?_ (.of_map _ h.places_nodup)
  intro f hf g hg htext
  have hpath := eq_of_intercalate_eq (h.slash_notMem_path hf) (h.slash_notMem_path hg) htext
  exact List.inj_on_of_nodup_map h.places_nodup hf hg (congrArg place? hpath)

theorem closed (h : Directory t [] files) : t.Closed files where
  root := by
    rw [← h.countP_place List.mem_cons_self]
    apply List.countP_congr
    simp [place?_eq_some_iff]
  declared := by
    intro e he
    rw [← h.countP_place (.tail _ (List.mem_map_of_mem he))]
    apply List.countP_congr
    intro f _
    simpa using names_iff (h.stem_ne_mod he)
  found := by
    intro f hf hroot
    obtain ⟨e, he, hplace⟩ := (h.place_cases hf).resolve_left hroot
    rw [← h.countP_placeOf he]
    apply List.countP_congr
    intro e' he'
    have hiff : Names e'.1 e'.2 f.path ↔ place? f.path = some (Target.placeOf e') :=
      names_iff (h.stem_ne_mod he')
    rw [hplace, Option.some.injEq, eq_comm] at hiff
    simpa using hiff
  paths_nodup := h.pathText_nodup

end Directory

end WireSchema.Source
