import WireSchema.Proofs.Schema.Integrity
import WireSchema.Proofs.Source.Agreement
import WireSchema.Proofs.Source.Directory
import WireSchema.Proofs.Source.Emission

/-!
# The emitted tree is closed

The names of modules and interfaces become directories, and a name of which nothing is left has no
directory of its own. If all of them are identifiers, the index of every directory declares exactly
what is emitted into it, so that the tree has no file that nobody declares and no declaration
without a file.
-/
namespace WireSchema

open Identifier

namespace Document

mutual

/-- The names of a module, of its interfaces and of the modules in it. -/
def Module.directoryNames : Module → List String
  | ⟨name, modules, _, interfaces, _⟩ =>
    name :: interfaces.map (·.name) ++ directoryNamesOf modules

def directoryNamesOf : List Module → List String
  | [] => []
  | m :: modules => m.directoryNames ++ directoryNamesOf modules

end

end Document

namespace Schema

variable {P : String → Prop}

/-- The declaration has a name within a scope, of the given kind. -/
def Within (P : String → Prop) (scope name : QualifiedName) : Prop :=
  ∃ own, P own ∧ name = scope.child own

theorem within_child_iff {scope : QualifiedName} {own : String} :
    Within P scope (scope.child own) ↔ P own := by
  constructor
  · rintro ⟨own', hown, heq⟩
    have hname := congrArg QualifiedName.name heq
    rw [QualifiedName.child_name, QualifiedName.child_name] at hname
    exact hname ▸ hown
  · intro hown
    exact ⟨own, hown, rfl⟩

mutual

/-- Everything in a module with a directory has its name within the module. -/
def Module.IsPlaced (P : String → Prop) : Module → Prop
  | ⟨name, modules, _, interfaces, _⟩ =>
    (∀ i ∈ interfaces, Within P name i.name) ∧ ArePlaced P name modules

def ArePlaced (P : String → Prop) (scope : QualifiedName) : List Module → Prop
  | [] => True
  | m :: modules => Within P scope m.name ∧ m.IsPlaced P ∧ ArePlaced P scope modules

end

mutual

theorem placed_assembleModule {name : QualifiedName} {decl : Document.Module} {m : Module}
    {d d' : Draft} (hd : d.Sound) (h : assembleModule name decl d = .ok (m, d')) :
    m.name = name ∧ (P decl.name ∧ m.IsPlaced P ↔ ∀ n ∈ decl.directoryNames, P n) := by
  obtain ⟨own, modules, types, decls, constants⟩ := decl
  rw [assembleModule, Build.get_bind] at h
  obtain ⟨cs, mid, hcs, h⟩ := Build.bind_eq_ok_iff.mp h
  obtain ⟨is, mid', his, h⟩ := Build.bind_eq_ok_iff.mp h
  obtain ⟨ms, last, hms, h⟩ := Build.bind_eq_ok_iff.mp h
  obtain ⟨rfl, rfl⟩ := Build.pure_eq_ok_iff.mp h
  have hmid := (leads_assembleConstants hd hcs).sound hd
  obtain ⟨hleads, hnames⟩ := leads_assembleInterfaces hmid his
  have hinterfaces : (∀ i ∈ is, Within P name i.name) ↔ ∀ n ∈ decls.map (·.name), P n := by
    have hmap : (∀ i ∈ is, Within P name i.name) ↔ ∀ q ∈ is.map (·.name), Within P name q := by simp
    rw [hmap, hnames]
    simp [within_child_iff]
  refine ⟨rfl, ?_⟩
  rw [Module.IsPlaced, hinterfaces, placed_assembleModules (hleads.sound hmid) hms,
    Document.Module.directoryNames, List.cons_append, List.forall_mem_cons, List.forall_mem_append]

theorem placed_assembleModules {scope : QualifiedName} {decls : List Document.Module}
    {ms : List Module} {d d' : Draft} (hd : d.Sound)
    (h : assembleModules scope decls d = .ok (ms, d')) :
    ArePlaced P scope ms ↔ ∀ n ∈ Document.directoryNamesOf decls, P n := by
  cases decls with
  | nil =>
    rw [assembleModules] at h
    obtain ⟨rfl, rfl⟩ := Build.pure_eq_ok_iff.mp h
    simp [ArePlaced, Document.directoryNamesOf]
  | cons decl decls =>
    rw [assembleModules] at h
    obtain ⟨m, mid, hm, h⟩ := Build.bind_eq_ok_iff.mp h
    obtain ⟨rest, last, hrest, h⟩ := Build.bind_eq_ok_iff.mp h
    obtain ⟨rfl, rfl⟩ := Build.pure_eq_ok_iff.mp h
    obtain ⟨hname, hplaced⟩ := placed_assembleModule hd hm
    have hmid := (leads_assembleModule hd hm).1.sound hd
    rw [ArePlaced, hname, within_child_iff, ← and_assoc, hplaced,
      placed_assembleModules hmid hrest, Document.directoryNamesOf, List.forall_mem_append]

end

theorem arePlaced_iff_of_build {doc : Document} {s : Schema} (h : build doc = .ok s) :
    ArePlaced P .root s.modules ↔ ∀ n ∈ Document.directoryNamesOf doc.modules, P n := by
  obtain ⟨declared, defined, last, hdeclare, hdefine, hassemble, -⟩ := build_eq_ok h
  have hdeclared := (declaring_declareModules .empty hdeclare).sound
  have hdefined := (hdeclared.reaches (reaches_defineAll hdeclared hdefine)).1
  exact placed_assembleModules hdefined hassemble

end Schema

namespace Source

open Schema

variable {t : Target} {files : List SourceFile}

theorem moduleStem_snake (name : String) : moduleStem (snake name) = stem name := rfl

theorem moduleStem_constants : moduleStem "constants" = "constants" := by decide

theorem reservedStems_eq (constants : List Constant) :
    reservedStems constants = "mod" :: (constantNames constants).map moduleStem := by
  unfold reservedStems constantNames
  split_ifs
  · rfl
  · rw [List.map_singleton, moduleStem_constants]

theorem slash_notMem_stem (name : String) : '/' ∉ (stem name).toList :=
  punctuation_notMem_stem ⟨by decide, by decide⟩ (by decide) (by decide) name

theorem slash_notMem_constantNames {constants : List Constant} {module : String}
    (h : module ∈ constantNames constants) : '/' ∉ (moduleStem module).toList := by
  have hname : module = "constants" := by
    unfold constantNames at h
    split_ifs at h
    · cases h
    · exact List.mem_singleton.mp h
  rw [hname, moduleStem_constants]
  decide

/-- A name of which something is left. Empty stems are left out of paths. -/
def HasStem (name : String) : Prop := stem name ≠ ""

/-- The directory of a name with a stem is inside that of its scope. -/
theorem directory_of_within {scope name : QualifiedName} (h : Within HasStem scope name) :
    directory name = directory scope ++ [moduleStem (snake name.name)] := by
  obtain ⟨own, hown, rfl⟩ := h
  rw [directory, QualifiedName.segments_child, QualifiedName.child_name, List.map_append,
    List.filter_append, moduleStem_snake, directory]
  simp [show stem own ≠ "" from hown]

/-- What is declared under stems that were taken once has different stems, and none of them is that
of the index. -/
theorem moduleStems_nodup {constants : List Constant} {names taken : List String}
    (htaken : taken.Nodup) (hstems : taken.Perm (reservedStems constants ++ names.map stem)) :
    ("mod" :: (constantNames constants ++ names.map snake).map moduleStem).Nodup := by
  have hmap : (names.map snake).map moduleStem = names.map stem := by
    rw [List.map_map]
    rfl
  rw [List.map_append, hmap, ← List.cons_append, ← reservedStems_eq]
  exact hstems.nodup_iff.mp htaken

/-- A directory that declares its constants and the given names, with every stem taken once. -/
theorem lists_of_names {dir : List String} {index : SourceFile} {own : List (String × SourceFile)}
    {inner : List (String × List SourceFile)} (constants : List Constant)
    {names taken : List String} (hindex : index.path = dir ++ [indexFile])
    (hown : ∀ e ∈ own, e.2.path = dir ++ [moduleStem e.1 ++ ".rs"])
    (hmodules : t.modulesIn index = constantNames constants ++ names.map snake)
    (hperm : (constantNames constants ++ names.map snake).Perm
      (own.map Prod.fst ++ inner.map Prod.fst))
    (htaken : taken.Nodup) (hstems : taken.Perm (reservedStems constants ++ names.map stem)) :
    Lists t dir index own inner where
  index_path := hindex
  own_path := hown
  modules_perm := hmodules ▸ hperm
  stems_nodup := hmodules ▸ moduleStems_nodup htaken hstems
  slash_notMem := by
    intro module hmodule
    rw [hmodules] at hmodule
    rcases List.mem_append.mp hmodule with hmodule | hmodule
    · exact slash_notMem_constantNames hmodule
    · obtain ⟨name, -, rfl⟩ := List.mem_map.mp hmodule
      exact slash_notMem_stem name

section Folders

variable {f g : Folder} {added : List SourceFile}

theorem stems_perm_of_grows (h : Folder.Grows f g added) :
    g.stems.taken.Perm (f.stems.taken ++ (added.map (·.name.name)).map stem) := by
  rw [h.stems_eq, List.map_map]
  exact ((List.reverse_perm _).append_right _).trans List.perm_append_comm

theorem children_of_grows (h : Folder.Grows f g added) (hempty : f.files = []) :
    g.children.map (·.module) = (added.map (·.name.name)).map snake := by
  rw [Folder.children, h.files_eq, hempty, List.nil_append, List.map_map, List.map_map]
  rfl

theorem newline_notMem_children (f : Folder) :
    ∀ c ∈ f.children, '\n' ∉ c.module.toList ∧ '\n' ∉ c.type.toList := by
  intro c hc
  obtain ⟨file, -, rfl⟩ := List.mem_map.mp hc
  exact ⟨newline_notMem_snake _, newline_notMem_camel _⟩

theorem exists_own {constants : List Constant} {constantFiles : List SourceFile}
    (hconstants : Target.HasConstantFile f.name constants constantFiles)
    (hgrows : Folder.Grows f g added) :
    ∃ own : List (String × SourceFile),
      own.map Prod.fst = constantNames constants ++ (added.map (·.name.name)).map snake ∧
      own.map Prod.snd = constantFiles ++ added ∧
      ∀ e ∈ own, e.2.path = directory f.name ++ [moduleStem e.1 ++ ".rs"] := by
  have hfst : (added.map fun x => (snake x.name.name, x)).map Prod.fst =
      (added.map (·.name.name)).map snake := by
    rw [List.map_map, List.map_map]
    rfl
  have hsnd : (added.map fun x => (snake x.name.name, x)).map Prod.snd = added := by
    rw [List.map_map]
    exact List.map_id added
  have hadded : ∀ e ∈ added.map fun x => (snake x.name.name, x),
      e.2.path = directory f.name ++ [moduleStem e.1 ++ ".rs"] := by
    intro e he
    obtain ⟨x, hx, rfl⟩ := List.mem_map.mp he
    exact hgrows.path_eq x hx
  rcases hconstants with ⟨rfl, rfl⟩ | ⟨hne, steps, rfl⟩
  · exact ⟨_, hfst, hsnd, hadded⟩
  · have hconstants : constantNames constants = ["constants"] := by simp [constantNames, hne]
    refine ⟨("constants", ⟨directory f.name ++ ["constants.rs"], .constants, f.name, steps⟩) :: _,
      ?_, congrArg _ hsnd, ?_⟩
    · rw [hconstants]
      exact congrArg _ hfst
    · intro e he
      rcases List.mem_cons.mp he with rfl | he
      · rw [moduleStem_constants]
        rfl
      · exact hadded e he

end Folders

section Items

variable {α : Type} {emit : α → Except SchemaError (List SourceFile)}
  {nameOf : α → QualifiedName} {items : List α} {taken taken' : Namespace}
  {parts : List (List SourceFile)}

theorem stems_perm_of_emitsEach (h : Target.EmitsEach emit nameOf items taken taken' parts) :
    taken'.taken.Perm (taken.taken ++ (items.map fun a => (nameOf a).name).map stem) := by
  rw [h.taken_eq, List.map_map]
  exact ((List.reverse_perm _).append_right _).trans List.perm_append_comm

theorem exists_inner (nameOf : α → QualifiedName)
    (h : List.Forall₂ (fun a files => emit a = .ok files) items parts) :
    ∃ inner : List (String × List SourceFile),
      inner.map Prod.fst = (items.map fun a => (nameOf a).name).map snake ∧
      inner.flatMap Prod.snd = parts.flatten ∧
      ∀ e ∈ inner, ∃ a ∈ items, e.1 = snake (nameOf a).name ∧ emit a = .ok e.2 := by
  induction h with
  | nil => exact ⟨[], rfl, rfl, by simp⟩
  | @cons a files items parts hfiles _ ih =>
    obtain ⟨inner, hnames, hparts, hinner⟩ := ih
    refine ⟨(snake (nameOf a).name, files) :: inner, congrArg _ hnames,
      congrArg (files ++ ·) hparts, ?_⟩
    intro e he
    rcases List.mem_cons.mp he with rfl | he
    · exact ⟨a, List.mem_cons_self, rfl, hfiles⟩
    · obtain ⟨b, hb, hemits⟩ := hinner e he
      exact ⟨b, .tail _ hb, hemits⟩

end Items

theorem reservedStems_nodup (constants : List Constant) : (reservedStems constants).Nodup := by
  unfold reservedStems
  split_ifs <;> decide

theorem directory_interface {i : Interface} (h : t.interfaceFiles i = .ok files) :
    Directory t (directory i.name) files := by
  obtain ⟨added, constants, folder, hemits⟩ := Target.emitsInterface h
  obtain ⟨own, hnames, hown, hpath⟩ := exists_own hemits.constants hemits.grows
  have hlists : Lists t (directory i.name) ⟨directory i.name ++ [indexFile], .interface, i.name,
      t.interfaceSteps i folder.children⟩ own [] := by
    refine lists_of_names i.constants rfl hpath ?_ ?_
      (hemits.grows.stems_nodup (reservedStems_nodup i.constants))
      (stems_perm_of_grows hemits.grows)
    · rw [(saysIn_interface (newline_notMem_children folder)).1,
        children_of_grows hemits.grows rfl]
    · rw [hnames, List.map_nil, List.append_nil]
  refine .intro hlists (by simp) ?_
  rw [hemits.files_eq, hown, List.flatMap_nil, List.append_nil]
  exact List.perm_append_comm.append_right _

/-- Two kinds of parts can be listed apart. -/
theorem perm_interchange {α : Type} (a b c d : List α) :
    (a ++ b ++ c ++ d).Perm (a ++ c ++ (b ++ d)) := by
  rw [List.append_assoc, List.append_assoc, List.append_assoc]
  exact (List.perm_append_comm_assoc b c d).append_left a

section Modules

variable {m : Module} {constantFiles added : List SourceFile}
  {parts parts' : List (List SourceFile)} {stems taken : Namespace} {folder : Folder}

/-- The names declared in the directory of a module, apart from its constants. -/
def declaredNames (m : Module) (added : List SourceFile) : List String :=
  m.modules.map (·.name.name) ++ added.map (·.name.name) ++ m.interfaces.map (·.name.name)

theorem stems_perm_of_emitsModule
    (h : t.EmitsModule m files constantFiles added parts parts' stems taken folder) :
    taken.taken.Perm (reservedStems m.constants ++ (declaredNames m added).map stem) := by
  have hmodules : stems.taken.Perm
      (reservedStems m.constants ++ (m.modules.map (·.name.name)).map stem) :=
    stems_perm_of_emitsEach h.modules
  have htypes : folder.stems.taken.Perm (stems.taken ++ (added.map (·.name.name)).map stem) :=
    stems_perm_of_grows h.grows
  rw [declaredNames, List.map_append, List.map_append, ← List.append_assoc, ← List.append_assoc]
  exact (stems_perm_of_emitsEach h.interfaces).trans
    ((htypes.trans (hmodules.append_right _)).append_right _)

theorem modulesIn_of_grows {path : List String}
    (h : Folder.Grows ⟨m.name, stems, .fresh m.name, []⟩ folder added) :
    t.modulesIn ⟨path, .module, m.name, Target.moduleSteps m folder.children⟩ =
      constantNames m.constants ++ (declaredNames m added).map snake := by
  rw [(saysIn_module (newline_notMem_children folder)).1, children_of_grows h rfl, declaredNames,
    List.map_append, List.map_append, List.map_map, List.map_map, List.map_map,
    List.append_assoc, List.append_assoc, List.append_assoc]
  rfl

theorem directory_of_emitsModule
    (h : t.EmitsModule m files constantFiles added parts parts' stems taken folder)
    (hmodules : ∀ child ∈ m.modules, ∀ files, t.moduleFiles child = .ok files →
      Directory t (directory m.name ++ [moduleStem (snake child.name.name)]) files)
    (hinterfaces : ∀ i ∈ m.interfaces, Within HasStem m.name i.name) :
    Directory t (directory m.name) files := by
  obtain ⟨own, hnames, hown, hpath⟩ := exists_own h.constants h.grows
  obtain ⟨inner, hinnerNames, hparts, hinner⟩ := exists_inner Module.name h.modules.parts
  obtain ⟨inner', hinnerNames', hparts', hinner'⟩ :=
    exists_inner Interface.name h.interfaces.parts
  have hnodup := h.interfaces.taken_nodup (h.grows.stems_nodup
    (h.modules.taken_nodup (reservedStems_nodup m.constants)))
  have hlists : Lists t (directory m.name) ⟨directory m.name ++ [indexFile], .module, m.name,
      Target.moduleSteps m folder.children⟩ own (inner ++ inner') := by
    refine lists_of_names m.constants rfl hpath (modulesIn_of_grows h.grows) ?_ hnodup
      (stems_perm_of_emitsModule h)
    rw [hnames, List.map_append, hinnerNames, hinnerNames', declaredNames, List.map_append,
      List.map_append, ← List.append_assoc, ← List.append_assoc]
    exact perm_interchange _ _ _ _
  refine .intro hlists ?_ ?_
  · intro e he
    rcases List.mem_append.mp he with he | he
    · obtain ⟨child, hchild, hname, hfiles⟩ := hinner e he
      rw [hname]
      exact hmodules child hchild e.2 hfiles
    · obtain ⟨i, hi, hname, hfiles⟩ := hinner' e he
      rw [hname, ← directory_of_within (hinterfaces i hi)]
      exact directory_interface hfiles
  · rw [h.files_eq, hown, List.flatMap_append, hparts, hparts']
    exact (perm_interchange _ _ _ _).append_right _

end Modules

mutual

theorem directory_module : (m : Module) → m.IsPlaced HasStem → (files : List SourceFile) →
    t.moduleFiles m = .ok files → Directory t (directory m.name) files
  | ⟨name, modules, types, interfaces, constants⟩, hplaced, files, h => by
    obtain ⟨constantFiles, added, parts, parts', stems, taken, folder, hemits⟩ :=
      Target.emitsModule h
    exact directory_of_emitsModule hemits (directory_modules name modules hplaced.2) hplaced.1

/-- The files of modules are in directories inside that of their scope. -/
theorem directory_modules : (scope : QualifiedName) → (ms : List Module) →
    ArePlaced HasStem scope ms → ∀ m ∈ ms, ∀ files, t.moduleFiles m = .ok files →
      Directory t (directory scope ++ [moduleStem (snake m.name.name)]) files
  | _, [], _ => by simp
  | scope, first :: ms, hplaced => by
    have hfirst := directory_module first hplaced.2.1
    have hrest := directory_modules scope ms hplaced.2.2
    rw [directory_of_within hplaced.1] at hfirst
    intro m hm
    rcases List.mem_cons.mp hm with rfl | hm
    · exact hfirst
    · exact hrest m hm

end

/-- If every module and interface has a stem, so that none of them shares its directory with what it
is in, the emitted tree is a tree of directories. -/
theorem directory_of_compile {config : Config} {doc : Document}
    (hnames : ∀ n ∈ Document.directoryNamesOf doc.modules, HasStem n)
    (h : compile config doc = .ok files) :
    ∃ s, build doc = .ok s ∧ Directory ⟨s, config⟩ [] files := by
  obtain ⟨s, taken, parts, hs, hemits, rfl⟩ := exists_schema_of_compile h
  obtain ⟨inner, hinnerNames, hparts, hinner⟩ := exists_inner Module.name hemits.parts
  have hlists : Lists ⟨s, config⟩ [] ⟨[indexFile], .module, .root, Target.rootSteps s.modules⟩ []
      inner := by
    refine lists_of_names [] rfl (by simp) ?_ ?_
      (hemits.taken_nodup (reservedStems_nodup [])) (stems_perm_of_emitsEach hemits)
    · rw [modulesIn_root, List.map_map]
      rfl
    · rw [hinnerNames]
      rfl
  refine ⟨s, hs, .intro hlists ?_ (by rw [hparts]; rfl)⟩
  intro e he
  obtain ⟨m, hm, hname, hfiles⟩ := hinner e he
  rw [hname]
  exact directory_modules .root s.modules ((arePlaced_iff_of_build hs).mpr hnames) m hm e.2 hfiles

/-- For every document whose modules and interfaces are named by identifiers, and every config, the
emitted tree is closed. The names of all other declarations are free. -/
theorem compile_closed (config : Config) (doc : Document) (files : List SourceFile)
    (hnames : ∀ n ∈ Document.directoryNamesOf doc.modules, IsIdentifier n)
    (h : compile config doc = .ok files) :
    ∃ s, build doc = .ok s ∧ Target.Closed ⟨s, config⟩ files := by
  have hstems : ∀ n ∈ Document.directoryNamesOf doc.modules, HasStem n :=
    fun n hn => stem_ne_empty (hnames n hn)
  obtain ⟨s, hs, hdirectory⟩ := directory_of_compile hstems h
  exact ⟨s, hs, hdirectory.closed⟩

/-- A module is named by a keyword, and a type has the stem that constants take elsewhere. -/
def harbour : Document where
  modules := [{
    name := "port"
    modules := [{
      name := "Type"
      modules := []
      types := []
      interfaces := [{
        name := "Pilot_2"
        uid := 1
        operations := []
        exceptions := [⟨"Aground", []⟩]
        constants := [⟨"LIMIT", "int", .integer 4⟩] }]
      constants := [⟨"DEPTH", "int", .integer 12⟩] }]
    types := [⟨"Constants", .sequence "int"⟩]
    interfaces := []
    constants := [] }]

theorem compile_closed_harbour :
    (∀ n ∈ Document.directoryNamesOf harbour.modules, IsIdentifier n) ∧
    ∃ files s, compile {} harbour = .ok files ∧ build harbour = .ok s ∧ files.length = 8 ∧
      Target.Closed ⟨s, {}⟩ files := by
  have hnames : ∀ n ∈ Document.directoryNamesOf harbour.modules, IsIdentifier n := by decide
  have hlength : (compile {} harbour).map (·.length) = .ok 8 := by decide +kernel
  have hcompiled : (compile {} harbour).toBool = true := by decide +kernel
  obtain ⟨files, hfiles⟩ := Target.exists_eq_ok hcompiled
  obtain ⟨s, hs, hclosed⟩ := compile_closed {} harbour files hnames hfiles
  rw [hfiles] at hlength
  exact ⟨hnames, files, s, hfiles, hs, Except.ok.inj hlength, hclosed⟩

end Source
end WireSchema
