import WireSchema.Proofs.Files.Writing
import WireSchema.Proofs.Schema.Interfaces
import WireSchema.Proofs.Source.Closure
import WireSchema.Proofs.Source.Layout

/-!
# Files that share a path

Within a directory every declaration claims its stem, so files of one directory have different
paths. A module or an interface of whose name nothing is left has no directory of its own: its index
is where the index of its surroundings is. These are the only files of a tree that collide, and
their first lines differ. So writing the tree leaves every file with its own text exactly if there
are none.
-/
namespace WireSchema.Source

open Files Identifier Schema

variable {t : Target} {files : List SourceFile}

/-- The file is in the directory of some declaration and has the stem of some name. The names that
directories use for themselves are their own stems. -/
def InDirectory (f : SourceFile) : Prop :=
  ∃ scope own, f.path = directory scope ++ [stem own ++ ".rs"]

theorem inDirectory_index {f : SourceFile} {scope : QualifiedName}
    (h : f.path = directory scope ++ [indexFile]) : InDirectory f := by
  refine ⟨scope, "mod", ?_⟩
  rw [stem_mod]
  exact h

theorem inDirectory_constants {name : QualifiedName} {constants : List Constant}
    (h : Target.HasConstantFile name constants files) : ∀ f ∈ files, InDirectory f := by
  rcases h with ⟨-, rfl⟩ | ⟨-, steps, rfl⟩
  · simp
  · intro f hf
    obtain rfl := List.mem_singleton.mp hf
    refine ⟨name, "constants", ?_⟩
    rw [stem_constants]
    rfl

theorem inDirectory_grows {f g : Folder} {added : List SourceFile} (h : Folder.Grows f g added) :
    ∀ x ∈ added, InDirectory x :=
  fun x hx => ⟨f.name, x.name.name, h.path_eq x hx⟩

theorem inDirectory_files (t : Target) : t.HoldsOfFiles InDirectory where
  constants := inDirectory_constants
  types := inDirectory_grows
  interfaceIndex := fun _ => inDirectory_index rfl
  moduleIndex := fun _ => inDirectory_index rfl

theorem dot_notMem_stem (name : String) : '.' ∉ (stem name).toList :=
  punctuation_notMem_stem ⟨by decide, by decide⟩ (by decide) (by decide) name

theorem InDirectory.isPlain {f : SourceFile} (h : InDirectory f) : FileTree.IsPlain f.path := by
  obtain ⟨scope, own, hpath⟩ := h
  rw [hpath]
  refine ⟨by simp, fun name hname => ?_⟩
  rcases List.mem_append.mp hname with hname | hname
  · obtain ⟨hstem, hne⟩ := List.mem_filter.mp hname
    obtain ⟨segment, -, rfl⟩ := List.mem_map.mp hstem
    have hdot := dot_notMem_stem segment
    have hsingle : stem segment ≠ "." := fun heq => hdot (by rw [heq]; decide)
    have hdouble : stem segment ≠ above := fun heq => hdot (by rw [heq]; decide)
    exact ⟨by simpa [isStep, hsingle] using hne, hdouble⟩
  · obtain rfl := List.mem_singleton.mp hname
    have hlast : ∀ s : String, (stem own ++ ".rs").toList = s.toList → 's' ∈ s.toList := by
      intro s heq
      rw [← heq, String.toList_append]
      exact List.mem_append_right _ (by decide)
    have hne : ∀ s, 's' ∉ s.toList → stem own ++ ".rs" ≠ s :=
      fun s hs heq => hs (hlast s (by rw [heq]))
    exact ⟨by simp [isStep, hne "" (by decide), hne "." (by decide)], hne above (by decide)⟩

theorem inDirectory_of_compile {config : Config} {doc : Document}
    (h : compile config doc = .ok files) : ∀ f ∈ files, InDirectory f := by
  obtain ⟨s, taken, parts, -, hemits, rfl⟩ := exists_schema_of_compile h
  intro f hf
  rcases List.mem_append.mp hf with hf | hf
  · exact Target.forall_mem_flatten hemits.parts
      ((inDirectory_files ⟨s, config⟩).modulesFiles s.modules) f hf
  · obtain rfl := List.mem_singleton.mp hf
    exact inDirectory_index (show _ = directory .root ++ [indexFile] from rfl)

theorem isPlain_of_compile {config : Config} {doc : Document}
    (h : compile config doc = .ok files) : ∀ f ∈ files, FileTree.IsPlain f.path :=
  fun f hf => (inDirectory_of_compile h f hf).isPlain

theorem directory_child_of_stem_eq {scope : QualifiedName} {own : String} (h : stem own = "") :
    directory (scope.child own) = directory scope := by
  rw [directory, QualifiedName.segments_child, List.map_append, List.filter_append, directory]
  simp [h]

/-- The index of a scope, which starts with the name of the scope. -/
structure IsIndex (scope : QualifiedName) (f : SourceFile) : Prop where
  path_eq : f.path = directory scope ++ [indexFile]
  steps_eq : ∃ rest, f.steps = header scope ++ rest

theorem exists_index_interface {i : Interface} (h : t.interfaceFiles i = .ok files) :
    ∃ f ∈ files, IsIndex i.name f := by
  obtain ⟨added, constants, folder, hemits⟩ := Target.emitsInterface h
  refine ⟨_, hemits.files_eq ▸ List.mem_append_right _ List.mem_cons_self, rfl, ?_⟩
  simp only [Target.interfaceSteps, Target.codecHeader, List.append_assoc]
  exact ⟨_, rfl⟩

theorem exists_index_module {m : Module} (h : t.moduleFiles m = .ok files) :
    ∃ f ∈ files, IsIndex m.name f := by
  obtain ⟨constants, added, inner, own, stems, taken, folder, hemits⟩ := Target.emitsModule h
  refine ⟨_, hemits.files_eq ▸ List.mem_append_right _ List.mem_cons_self, rfl, ?_⟩
  simp only [Target.moduleSteps, List.append_assoc]
  exact ⟨_, rfl⟩

/-- What the first line of an index says of its scope, up to the end of the name. -/
theorem IsIndex.exists_text_eq {scope : QualifiedName} {f : SourceFile} (h : IsIndex scope f) :
    ∃ rest, f.text.toList = "// Generated by xdr-idlc".toList ++
      if scope.segments = [] then '.' :: rest
      else " from `".toList ++ scope.text.toList ++ '`' :: rest := by
  obtain ⟨-, rest, hsteps⟩ := h
  have hstart : ∀ {source},
      (if scope.segments.isEmpty then "" else " from `" ++ scope.text ++ "`") = source →
      ∃ after, f.text.toList = ("// Generated by xdr-idlc" ++ source ++ ". Do not edit.").toList ++
        '\n' :: after := by
    rintro _ rfl
    rw [SourceFile.text, hsteps]
    exact exists_render_eq_append _ _
  by_cases hscope : scope.segments = []
  · obtain ⟨after, hafter⟩ := hstart (if_pos (List.isEmpty_iff.mpr hscope))
    refine ⟨" Do not edit.".toList ++ '\n' :: after, ?_⟩
    rw [hafter, if_pos hscope]
    rfl
  · obtain ⟨after, hafter⟩ := hstart (if_neg (by simpa using hscope))
    refine ⟨". Do not edit.".toList ++ '\n' :: after, ?_⟩
    rw [hafter, if_neg hscope]
    simp

/-- The first lines of two scopes differ where the name of the outer one ends. -/
theorem IsIndex.text_ne {scope : QualifiedName} {own : String} {f g : SourceFile}
    (hf : IsIndex scope f) (hg : IsIndex (scope.child own) g) : f.text ≠ g.text := by
  intro heq
  obtain ⟨rest, hrest⟩ := hf.exists_text_eq
  obtain ⟨rest', hrest'⟩ := hg.exists_text_eq
  rw [heq, hrest', List.append_cancel_left_eq, if_neg (by simp)] at hrest
  by_cases hscope : scope.segments = []
  · rw [if_pos hscope] at hrest
    cases hrest
  · have hchild : (scope.child own).text = scope.text ++ "::" ++ own := by
      rw [← nameWithin_eq, nameWithin, if_neg (by simpa using hscope)]
    rw [if_neg hscope, hchild, String.toList_append, String.toList_append] at hrest
    simp at hrest

/-- Files with one path have one text. -/
def AgreeAtPaths (files : List SourceFile) : Prop :=
  ∀ f ∈ files, ∀ g ∈ files, f.path = g.path → f.text = g.text

theorem within_hasStem {scope name : QualifiedName} (h : Within (fun _ => True) scope name)
    (hagree : AgreeAtPaths files) (hscope : ∃ f ∈ files, IsIndex scope f)
    (hname : ∃ f ∈ files, IsIndex name f) : Within HasStem scope name := by
  obtain ⟨own, -, rfl⟩ := h
  obtain ⟨f, hf, hindex⟩ := hscope
  obtain ⟨g, hg, hchild⟩ := hname
  refine ⟨own, fun hempty => hindex.text_ne hchild (hagree f hf g hg ?_), rfl⟩
  rw [hindex.path_eq, hchild.path_eq, directory_child_of_stem_eq hempty]

section Agreeing

variable {all : List SourceFile} (hagree : AgreeAtPaths all)
include hagree

mutual

theorem placed_module_of_agree : (m : Module) → m.IsPlaced (fun _ => True) →
    (files : List SourceFile) → t.moduleFiles m = .ok files → files ⊆ all → m.IsPlaced HasStem
  | ⟨name, modules, types, interfaces, constants⟩, hplaced, files, h, hsub => by
    obtain ⟨index, hindex, hscope⟩ := exists_index_module h
    have hscope : ∃ f ∈ all, IsIndex name f := ⟨index, hsub hindex, hscope⟩
    obtain ⟨constantFiles, added, inner, own, stems, taken, folder, hemits⟩ :=
      Target.emitsModule h
    rw [hemits.files_eq] at hsub
    simp only [List.append_subset] at hsub
    obtain ⟨⟨⟨⟨-, hinner⟩, -⟩, hown⟩, -⟩ := hsub
    refine ⟨fun i hi => ?_, ?_⟩
    · obtain ⟨part, hpart, hfiles⟩ := exists_of_mem_left hemits.interfaces.parts hi
      obtain ⟨f, hf, hname⟩ := exists_index_interface hfiles
      have hmem : f ∈ own.flatten := List.mem_flatten.mpr ⟨part, hpart, hf⟩
      exact within_hasStem (hplaced.1 i hi) hagree hscope ⟨f, hown hmem, hname⟩
    · exact placed_modules_of_agree name hscope modules hplaced.2 inner hemits.modules.parts hinner

/-- Modules whose indexes agree with those of their scopes have directories of their own. -/
theorem placed_modules_of_agree : (scope : QualifiedName) → (∃ f ∈ all, IsIndex scope f) →
    (ms : List Module) → ArePlaced (fun _ => True) scope ms → (parts : List (List SourceFile)) →
    List.Forall₂ (fun m files => t.moduleFiles m = .ok files) ms parts →
    parts.flatten ⊆ all → ArePlaced HasStem scope ms
  | _, _, [], _, _, _, _ => trivial
  | scope, hscope, m :: ms, hplaced, _, h, hsub => by
    cases h with
    | cons hfirst hrest =>
      rw [List.flatten_cons, List.append_subset] at hsub
      obtain ⟨f, hf, hname⟩ := exists_index_module hfirst
      refine ⟨within_hasStem hplaced.1 hagree hscope ⟨f, hsub.1 hf, hname⟩, ?_, ?_⟩
      · exact placed_module_of_agree m hplaced.2.1 _ hfirst hsub.1
      · exact placed_modules_of_agree scope hscope ms hplaced.2.2 _ hrest hsub.2

end

end Agreeing

/-- In a tree whose files agree wherever they share a path, every module and interface has a stem.
-/
theorem hasStem_of_agree {config : Config} {doc : Document} (h : compile config doc = .ok files)
    (hagree : AgreeAtPaths files) : ∀ n ∈ Document.directoryNamesOf doc.modules, HasStem n := by
  obtain ⟨s, taken, parts, hs, hemits, rfl⟩ := exists_schema_of_compile h
  have hroot : IsIndex .root ⟨[indexFile], .module, .root, Target.rootSteps s.modules⟩ :=
    ⟨rfl, _, rfl⟩
  refine (arePlaced_iff_of_build hs).mp (placed_modules_of_agree hagree .root
    ⟨_, List.mem_append_right _ List.mem_cons_self, hroot⟩ s.modules ?_ parts hemits.parts
    (List.subset_append_left _ _))
  exact (arePlaced_iff_of_build hs).mpr fun n _ => trivial

/-- The files of a tree have different paths exactly if something is left of the name of every
module and every interface. Whoever writes the tree is told the number of its files, and finds each
of them with its own text exactly then. -/
theorem compile_paths_nodup_iff (config : Config) (doc : Document) (files : List SourceFile)
    (h : compile config doc = .ok files) :
    ((files.map (·.pathText)).Nodup ↔
      ∀ n ∈ Document.directoryNamesOf doc.modules, stem n ≠ "") ∧
    ∀ directory before n after,
      FileAction.on (Command.writeFiles FileTree.store directory files) before = (.ok n, after) →
      n = files.length ∧
      ((∀ n ∈ Document.directoryNamesOf doc.modules, stem n ≠ "") ↔ ∀ f ∈ files,
        after.read ((Location.ofText directory).join f.path) = .ok f.text) := by
  have hnodup : (∀ n ∈ Document.directoryNamesOf doc.modules, stem n ≠ "") →
      (files.map (·.pathText)).Nodup := by
    intro hnames
    obtain ⟨s, -, hdirectory⟩ := directory_of_compile hnames h
    exact hdirectory.pathText_nodup
  have hpaths : (files.map (·.pathText)).Nodup → (files.map (·.path)).Nodup := by
    intro htexts
    refine .of_map ("/".intercalate ·) ?_
    rwa [List.map_map]
  refine ⟨⟨fun htexts => hasStem_of_agree h fun f hf g hg hpath => ?_, hnodup⟩, ?_⟩
  · rw [List.inj_on_of_nodup_map (hpaths htexts) hf hg hpath]
  intro directory before n after hrun
  obtain ⟨hlength, hread⟩ := FileTree.read_of_writeFiles (isPlain_of_compile h) hrun
  refine ⟨hlength, fun hnames => hread (hpaths (hnodup hnames)), fun hown => ?_⟩
  -- A path is read once, so files that share it are found with one text.
  refine hasStem_of_agree h fun f hf g hg hpath => ?_
  have hfirst := hown f hf
  rw [hpath, hown g hg] at hfirst
  exact (Except.ok.inj hfirst).symm

theorem compile_paths_nodup_iff_harbour :
    (∀ n ∈ Document.directoryNamesOf harbour.modules, stem n ≠ "") ∧
    ∃ files after, compile {} harbour = .ok files ∧ (files.map (·.pathText)).Nodup ∧
      FileAction.on (Command.writeFiles FileTree.store "out" files) ⟨[], []⟩ = (.ok 8, after) ∧
      ∀ f ∈ files, after.read ((Location.ofText "out").join f.path) = .ok f.text := by
  have hnames : ∀ n ∈ Document.directoryNamesOf harbour.modules, stem n ≠ "" := by decide +kernel
  have hcompiled : (compile {} harbour).toBool = true := by decide +kernel
  obtain ⟨files, hfiles⟩ := Target.exists_eq_ok hcompiled
  have hwritten : ((compile {} harbour).map fun files => (FileAction.on
      (Command.writeFiles FileTree.store "out" files) ⟨[], []⟩).1) = .ok (.ok 8) := by
    decide +kernel
  rw [hfiles] at hwritten
  obtain ⟨after, hafter⟩ : ∃ after, FileAction.on
      (Command.writeFiles FileTree.store "out" files) ⟨[], []⟩ = (.ok 8, after) :=
    ⟨_, Prod.ext (Except.ok.inj hwritten) rfl⟩
  obtain ⟨hiff, hwrite⟩ := compile_paths_nodup_iff {} harbour files hfiles
  exact ⟨hnames, files, after, hfiles, hiff.mpr hnames, hafter,
    (hwrite "out" ⟨[], []⟩ 8 after hafter).2.mp hnames⟩

/-- A module of whose name nothing is left. -/
def hollow : Document where
  modules := [{ name := "_", modules := [], types := [], interfaces := [], constants := [] }]

/-- Its index has the path of the index of the root. Of the two files that are counted one is left.
-/
theorem compile_paths_collide_hollow :
    ∃ files after, compile {} hollow = .ok files ∧ files.map (·.pathText) = ["mod.rs", "mod.rs"] ∧
      FileAction.on (Command.writeFiles FileTree.store "out" files) ⟨[], []⟩ = (.ok 2, after) ∧
      (after.filesBelow ["out"]).length = 1 := by
  have hcompiled : (compile {} hollow).toBool = true := by decide +kernel
  obtain ⟨files, hfiles⟩ := Target.exists_eq_ok hcompiled
  have hpaths : (compile {} hollow).map (·.map (·.pathText)) = .ok ["mod.rs", "mod.rs"] := by
    decide +kernel
  have hwritten : ((compile {} hollow).map fun files => (FileAction.on
      (Command.writeFiles FileTree.store "out" files) ⟨[], []⟩).1) = .ok (.ok 2) := by
    decide +kernel
  have hleft : ((compile {} hollow).map fun files => ((FileAction.on
      (Command.writeFiles FileTree.store "out" files) ⟨[], []⟩).2.filesBelow ["out"]).length) =
      .ok 1 := by
    decide +kernel
  rw [hfiles] at hpaths hwritten hleft
  exact ⟨files, _, hfiles, Except.ok.inj hpaths, Prod.ext (Except.ok.inj hwritten) rfl,
    Except.ok.inj hleft⟩

end WireSchema.Source
