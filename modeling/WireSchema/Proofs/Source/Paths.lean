import WireSchema.Proofs.Source.Collisions

/-!
# Paths that stay below

Nothing of what a document calls its declarations can lead out of the directory below which the tree
is written. A stem keeps only what letters and digits become in lower case, and underscores. So the
parts of a path are plain names, the text of a path has no slashes but those between its parts, and
every file is put below the directory, as many levels down as its path has parts.
-/
namespace WireSchema

namespace Text

theorem splitWhere_eq_splitOnP (p : Char → Bool) (cs : List Char) :
    splitWhere p cs = cs.splitOnP p := by
  induction cs with
  | nil => rfl
  | cons c cs ih =>
    rw [splitWhere, List.splitOnP_cons_eq_if_modifyHead, ih]
    cases hpieces : cs.splitOnP p with
    | nil => exact absurd hpieces (List.splitOnP_ne_nil p cs)
    | cons piece pieces => rfl

end Text

namespace Source

open Files Identifier Schema

theorem ofText_intercalate_slash {path : List String}
    (h : path ≠ [] ∧ ∀ s ∈ path, '/' ∉ s.toList) :
    Location.ofText ("/".intercalate path) = ⟨path⟩ := by
  have hpieces : Text.splitWhere (· == '/') ("/".intercalate path).toList =
      path.map String.toList := by
    rw [Text.splitWhere_eq_splitOnP]
    exact Directory.splitOn_intercalate_slash h
  rw [Location.ofText, hpieces, List.map_map]
  simp [Function.comp_def]

/-- A name that every system takes as one step down: no separator stands in it, nothing cuts it
short, and it is neither the directory itself nor the one above. -/
structure IsComponent (name : String) : Prop where
  nonempty : name ≠ ""
  slash_notMem : '/' ∉ name.toList
  backslash_notMem : '\\' ∉ name.toList
  zero_notMem : '\x00' ∉ name.toList
  ne_here : name ≠ "."
  ne_above : name ≠ ".."

/-- A path of such names, in which no dot stands but the one of the extension. -/
structure StaysBelow (path : List String) : Prop where
  components : ∀ name ∈ path, IsComponent name
  dots : ∃ directories own, path = directories ++ [own ++ ".rs"] ∧
    (∀ name ∈ directories, '.' ∉ name.toList) ∧ '.' ∉ own.toList

theorem notMem_of_mem_directory {x : Char} {scope : QualifiedName} {name : String}
    (h : ∀ segment, x ∉ (stem segment).toList) (hname : name ∈ directory scope) :
    x ∉ name.toList := by
  obtain ⟨hstem, -⟩ := List.mem_filter.mp hname
  obtain ⟨segment, -, rfl⟩ := List.mem_map.mp hstem
  exact h segment

/-- Apart from the marks of identifiers and dots, no punctuation stands in the path of a file. -/
theorem InDirectory.punctuation_notMem {f : SourceFile} {x : Char} (h : InDirectory f)
    (hx : Text.IsPunctuation x) (hunder : x ≠ '_') (hhash : x ≠ '#') (hdot : x ≠ '.') :
    ∀ name ∈ f.path, x ∉ name.toList := by
  obtain ⟨scope, own, hpath⟩ := h
  have hstem := punctuation_notMem_stem hx hunder hhash
  have hletter : ∀ c : Char, c.isAlphanum = true → x ≠ c := by
    rintro c hc rfl
    cases hx.notAlphanum.symm.trans hc
  rw [hpath]
  intro name hname
  rcases List.mem_append.mp hname with hname | hname
  · exact notMem_of_mem_directory hstem hname
  · rw [List.mem_singleton.mp hname, String.toList_append, List.mem_append, not_or]
    refine ⟨hstem own, ?_⟩
    simpa using ⟨hdot, hletter 'r' (by decide), hletter 's' (by decide)⟩

theorem InDirectory.staysBelow {f : SourceFile} (h : InDirectory f) : StaysBelow f.path where
  components name hname := by
    obtain ⟨hstep, habove⟩ := h.isPlain.2 name hname
    obtain ⟨hempty, hhere⟩ : name ≠ "" ∧ name ≠ "." := by simpa [isStep] using hstep
    refine ⟨hempty, ?_, ?_, ?_, hhere, habove⟩
    all_goals
      refine h.punctuation_notMem ⟨by decide, by decide⟩ ?_ ?_ ?_ name hname <;> decide
  dots := by
    obtain ⟨scope, own, hpath⟩ := h
    exact ⟨directory scope, stem own, hpath,
      fun name => notMem_of_mem_directory dot_notMem_stem, dot_notMem_stem own⟩

theorem StaysBelow.ofText_intercalate {path : List String} (h : StaysBelow path) :
    Location.ofText ("/".intercalate path) = ⟨path⟩ := by
  refine ofText_intercalate_slash ⟨?_, fun name hname => (h.components name hname).slash_notMem⟩
  obtain ⟨directories, own, rfl, -⟩ := h.dots
  simp

/-- Only a path with an empty part in front starts at the root. -/
theorem StaysBelow.absolute_eq {path : List String} (h : StaysBelow path) :
    (Location.mk path).absolute = false := by
  unfold Location.absolute
  split
  · rename_i hpieces
    obtain rfl : path = _ := hpieces
    exact absurd rfl (h.components "" List.mem_cons_self).nonempty
  · rfl

/-- Whatever the names of a document are, the files of its tree have relative paths whose parts are
plain names without any dot but that of the extension. The text of a path is read as these parts,
and a file that is written below a directory is in that directory or one inside, at its parts. -/
theorem compile_paths_stay_below (config : Config) (doc : Document) (files : List SourceFile)
    (h : compile config doc = .ok files) :
    ∀ f ∈ files, StaysBelow f.path ∧ Location.ofText f.pathText = ⟨f.path⟩ ∧
      (Location.ofText f.pathText).absolute = false ∧
      ∀ (directory : Location) (text : String) (before after : FileTree),
        FileAction.on (FileTree.store.writeBelow directory f.path text) before = (.ok (), after) →
        after.HasFile (directory.join f.path) (before.base directory ++ f.path) text := by
  intro f hf
  have hdirectory := inDirectory_of_compile h f hf
  have hbelow := hdirectory.staysBelow
  have hread : Location.ofText f.pathText = ⟨f.path⟩ := hbelow.ofText_intercalate
  refine ⟨hbelow, hread, ?_, ?_⟩
  · rw [hread]
    exact hbelow.absolute_eq
  · intro directory text before after hrun
    rw [← FileTree.placeBelow_eq_append hdirectory.isPlain before directory]
    exact FileTree.hasFile_of_writeBelow hrun

/-- Names that would lead elsewhere if they were taken as they are. -/
def burglar : Document where
  modules := [{
    name := ".."
    modules := [{
      name := "/etc\\..\x00"
      modules := []
      types := [⟨"", .record []⟩, ⟨"İ./Σ", .record []⟩]
      interfaces := []
      constants := [⟨"../up", "int", .integer 1⟩] }]
    types := [⟨"../../passwd.rs", .record []⟩]
    interfaces := []
    constants := [] }]

theorem compile_paths_stay_below_burglar :
    ∃ files, compile {} burglar = .ok files ∧
      files.map (·.path) = [["etc", "constants.rs"], ["etc", ".rs"], ["etc", "i\u0307_ς.rs"],
        ["etc", "mod.rs"], ["passwd_rs.rs"], ["mod.rs"], ["mod.rs"]] ∧
      (∀ f ∈ files, StaysBelow f.path ∧ (Location.ofText f.pathText).absolute = false) ∧
      ∃ after, FileAction.on (FileTree.store.writeBelow (.ofText "out") ["etc", ".rs"] "text")
          ⟨[], []⟩ = (.ok (), after) ∧
        after.HasFile ((Location.ofText "out").join ["etc", ".rs"]) ["out", "etc", ".rs"]
          "text" := by
  have hpaths : (compile {} burglar).map (·.map (·.path)) =
      .ok [["etc", "constants.rs"], ["etc", ".rs"], ["etc", "i\u0307_ς.rs"],
        ["etc", "mod.rs"], ["passwd_rs.rs"], ["mod.rs"], ["mod.rs"]] := by decide +kernel
  have hwritten : (FileAction.on (FileTree.store.writeBelow (.ofText "out") ["etc", ".rs"] "text")
      ⟨[], []⟩).1 = .ok () := by decide +kernel
  cases hfiles : compile {} burglar with
  | error e =>
    rw [hfiles] at hpaths
    cases hpaths
  | ok files =>
    rw [hfiles] at hpaths
    have hlist : files.map (·.path) = _ := Except.ok.inj hpaths
    have hbelow := compile_paths_stay_below {} burglar files hfiles
    obtain ⟨f, hf, hpath⟩ : ∃ f ∈ files, f.path = ["etc", ".rs"] :=
      List.mem_map.mp (by rw [hlist]; decide)
    have hfile := (hbelow f hf).2.2.2 (.ofText "out") "text" ⟨[], []⟩ _
      (by rw [hpath]; exact Prod.ext hwritten rfl)
    rw [hpath] at hfile
    exact ⟨files, rfl, hlist, fun f hf => ⟨(hbelow f hf).1, (hbelow f hf).2.2.1⟩, _,
      Prod.ext hwritten rfl, hfile⟩

end Source
end WireSchema
