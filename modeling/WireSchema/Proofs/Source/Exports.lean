import WireSchema.Proofs.Schema.Listing
import WireSchema.Proofs.Source.Closure
import WireSchema.Proofs.Source.References

/-!
# Paths of types and what they lead to

Emitted code refers to a type by a path that is spelled from the type's qualified name, whereas the
index of a directory re-exports the types of the files beside it. Both meet: the path of every
defined type ends in an identifier that the index of its scope re-exports once, from the file of
that very type. So no path dangles, and different types have different paths.
-/
namespace WireSchema

open Identifier Schema

namespace Source

variable {t : Target} {files : List SourceFile}

/-- The identifier to which a path leads. -/
def lastIdentifier (path : String) : String :=
  String.ofList (path.toList.reverse.takeWhile (· != ':')).reverse

theorem lastIdentifier_append {path ident : String} (h : ':' ∉ ident.toList) :
    lastIdentifier (path ++ "::" ++ ident) = ident := by
  have hreverse : (path ++ "::" ++ ident).toList.reverse =
      ident.toList.reverse ++ ':' :: ':' :: path.toList.reverse := by
    simp
  rw [lastIdentifier, hreverse, takeWhile_append_of_notMem (by simpa using h),
    List.reverse_reverse, String.ofList_toList]

theorem colon_notMem_snake (name : String) : ':' ∉ (snake name).toList :=
  punctuation_notMem_snake ⟨by decide, by decide⟩ (by decide) (by decide) name

theorem colon_notMem_spelling (name : String) : ':' ∉ (camel name).toList :=
  punctuation_notMem_camel ⟨by decide, by decide⟩ (by decide) (by decide) name

theorem star_ne_camel (name : String) : "*" ≠ camel name := by
  intro heq
  have hstar : '*' ∈ (camel name).toList := heq ▸ by decide
  exact punctuation_notMem_camel ⟨by decide, by decide⟩ (by decide) (by decide) name
    hstar

/-- The identifiers that a path goes through below the root. -/
def pathIdents (name : QualifiedName) : List String :=
  name.scope.segments.map snake ++ [camel name.name]

theorem path_eq (t : Target) (name : QualifiedName) :
    t.path name = "::".intercalate (t.config.rootPath :: pathIdents name) := by
  rw [pathIdents, ← List.cons_append, String.intercalate_append_of_ne_nil (by simp) (by simp),
    String.intercalate_singleton]
  rfl

theorem toList_intercalate_cons (first : String) (idents : List String) :
    ("::".intercalate (first :: idents)).toList =
      first.toList ++ idents.flatMap fun ident => ':' :: ':' :: ident.toList := by
  induction idents generalizing first with
  | nil => simp
  | cons ident idents ih =>
    rw [String.intercalate_cons_cons, String.toList_append, String.toList_append, ih,
      List.flatMap_cons, List.append_assoc]
    rfl

/-- Identifiers without colons can be read back from what they are joined to. -/
theorem eq_of_joined_eq {xs ys : List String} (hxs : ∀ x ∈ xs, ':' ∉ x.toList)
    (hys : ∀ y ∈ ys, ':' ∉ y.toList)
    (h : (xs.flatMap fun x => ':' :: ':' :: x.toList) =
      ys.flatMap fun y => ':' :: ':' :: y.toList) : xs = ys := by
  -- What follows an identifier is nothing or another colon.
  have hfront : ∀ (x : String) (rest : List String), ':' ∉ x.toList →
      (x.toList ++ rest.flatMap fun y => ':' :: ':' :: y.toList).takeWhile (· != ':') =
        x.toList := by
    intro x rest hx
    cases rest with
    | nil =>
      have hplain : ∀ c ∈ x.toList, (c != ':') = true :=
        fun c hc => bne_iff_ne.mpr (ne_of_mem_of_not_mem hc hx)
      rw [List.takeWhile_append_of_pos hplain]
      exact List.append_nil _
    | cons y rest => exact takeWhile_append_of_notMem hx _
  induction xs generalizing ys with
  | nil =>
    cases ys with
    | nil => rfl
    | cons y ys => simp at h
  | cons x xs ih =>
    cases ys with
    | nil => simp at h
    | cons y ys =>
      simp only [List.flatMap_cons, List.cons_append, List.cons.injEq, true_and] at h
      have hhead : x.toList = y.toList := by
        rw [← hfront x xs (hxs x List.mem_cons_self), h, hfront y ys (hys y List.mem_cons_self)]
      rw [hhead] at h
      rw [String.toList_injective hhead, ih (fun z hz => hxs z (.tail _ hz))
        (fun z hz => hys z (.tail _ hz)) (List.append_cancel_left h)]

theorem pathIdents_eq_of_path_eq {a b : QualifiedName} (h : t.path a = t.path b) :
    pathIdents a = pathIdents b := by
  have hplain : ∀ name, ∀ ident ∈ pathIdents name, ':' ∉ ident.toList := by
    intro name ident hident
    rcases List.mem_append.mp hident with hident | hident
    · obtain ⟨segment, -, rfl⟩ := List.mem_map.mp hident
      exact colon_notMem_snake segment
    · rw [List.mem_singleton.mp hident]
      exact colon_notMem_spelling name.name
  rw [path_eq, path_eq] at h
  have hlists := congrArg String.toList h
  rw [toList_intercalate_cons, toList_intercalate_cons] at hlists
  exact eq_of_joined_eq (hplain a) (hplain b) (List.append_cancel_left hlists)

/-- The directory of a scope follows from the spellings of its segments. -/
theorem directory_eq_of_snake_eq {a b : QualifiedName}
    (h : a.segments.map snake = b.segments.map snake) : directory a = directory b := by
  have hstems : ∀ name : QualifiedName,
      name.segments.map stem = (name.segments.map snake).map moduleStem := by
    intro name
    rw [List.map_map]
    rfl
  rw [directory, directory, hstems, hstems, h]

/-- One line of the index of a scope re-exports a type, and it leads to the file of that type. -/
structure Target.Exports (t : Target) (files : List SourceFile) (name : QualifiedName)
    (index file : SourceFile) : Prop where
  index_only : files.filter (·.path = directory name.scope ++ [indexFile]) = [index]
  index_name : index.name = name.scope
  index_kind : index.kind = .module ∨ index.kind = .interface
  export_only : (t.exportsIn index).filter (lastIdentifier · = camel name.name) =
    [snake name.name ++ "::" ++ camel name.name]
  file_only : files.filter (·.path = directory name.scope ++ [stem name.name ++ ".rs"]) = [file]
  file_name : file.name = name

/-- Types whose paths agree are re-exported by the same line, so they are the same. -/
theorem Target.Exports.eq_of_path_eq {a b : QualifiedName} {index index' file file' : SourceFile}
    (ha : t.Exports files a index file) (hb : t.Exports files b index' file')
    (h : t.path a = t.path b) : a = b := by
  obtain ⟨hscope, hident⟩ := List.append_inj' (pathIdents_eq_of_path_eq h) rfl
  have hcamel : camel a.name = camel b.name := List.singleton_inj.mp hident
  have hdirectory := directory_eq_of_snake_eq hscope
  have hindex : index = index' := by
    have honly := ha.index_only
    rw [hdirectory, hb.index_only] at honly
    exact (List.singleton_inj.mp honly).symm
  have hsnake : snake a.name = snake b.name := by
    have honly := ha.export_only
    rw [hindex, hcamel, hb.export_only, List.singleton_inj, String.append_assoc,
      String.append_assoc] at honly
    exact (String.append_left_inj _ |>.mp honly).symm
  have hfile : file = file' := by
    have honly := ha.file_only
    rw [hdirectory, show stem a.name = stem b.name from congrArg moduleStem hsnake,
      hb.file_only] at honly
    exact (List.singleton_inj.mp honly).symm
  rw [← ha.file_name, ← hb.file_name, hfile]

theorem filter_eq_singleton {α β : Type} [DecidableEq β] {f : α → β} {items : List α}
    (h : (items.map f).Nodup) {a : α} (ha : a ∈ items) : items.filter (f · = f a) = [a] := by
  induction items with
  | nil => cases ha
  | cons first items ih =>
    rw [List.map_cons, List.nodup_cons] at h
    rcases List.mem_cons.mp ha with rfl | ha
    · rw [List.filter_cons_of_pos (by simp), List.filter_eq_nil_iff.mpr]
      intro b hb heq
      exact h.1 (List.mem_map.mpr ⟨b, hb, by simpa using heq⟩)
    · have hne : f first ≠ f a := fun heq => h.1 (heq ▸ List.mem_map_of_mem ha)
      rw [List.filter_cons_of_neg (by simpa using hne), ih h.2 ha]

/-- The index of a scope re-exports the types of the files that were added beside it. -/
structure Offers (t : Target) (files : List SourceFile) (scope : QualifiedName)
    (index : SourceFile) (added : List SourceFile) : Prop where
  index_mem : index ∈ files
  index_path : index.path = directory scope ++ [indexFile]
  index_name : index.name = scope
  exports_eq : ∃ constants, t.exportsIn index = constantExports constants ++
    added.map fun x => snake x.name.name ++ "::" ++ camel x.name.name
  added_subset : added ⊆ files
  added_path : ∀ x ∈ added, x.path = directory scope ++ [stem x.name.name ++ ".rs"]
  types_nodup : (added.map Folder.typeOf).Nodup
  names_nodup : (added.map (·.name)).Nodup

theorem Offers.exports {scope : QualifiedName} {index : SourceFile} {added : List SourceFile}
    (h : Offers t files scope index added) (hkind : index.kind = .module ∨ index.kind = .interface)
    (hnodup : (files.map (·.path)).Nodup) {x : SourceFile} (hx : x ∈ added)
    (hscope : x.name.scope = scope) : t.Exports files x.name index x where
  index_only := by
    rw [hscope, ← h.index_path]
    exact filter_eq_singleton hnodup h.index_mem
  index_name := h.index_name.trans hscope.symm
  index_kind := hkind
  export_only := by
    obtain ⟨constants, hexports⟩ := h.exports_eq
    have hconstants :
        (constantExports constants).filter (lastIdentifier · = camel x.name.name) = [] := by
      rw [List.filter_eq_nil_iff]
      intro line hline
      have hline : line = "constants" ++ "::" ++ "*" := by
        unfold constantExports at hline
        split_ifs at hline
        · cases hline
        · exact List.mem_singleton.mp hline
      rw [hline, lastIdentifier_append (by decide)]
      simpa using star_ne_camel x.name.name
    have htypes : (added.filter fun y =>
        lastIdentifier (snake y.name.name ++ "::" ++ camel y.name.name) = camel x.name.name) =
          [x] := by
      rw [← filter_eq_singleton h.types_nodup hx]
      apply List.filter_congr
      intro y _
      rw [lastIdentifier_append (colon_notMem_spelling y.name.name)]
      rfl
    rw [hexports, List.filter_append, hconstants, List.nil_append, List.filter_map]
    exact congrArg (List.map _) htypes
  file_only := by
    rw [hscope, ← h.added_path x hx]
    exact filter_eq_singleton hnodup (h.added_subset hx)
  file_name := rfl

theorem reexports_of_grows {f g : Folder} {added : List SourceFile} (h : Folder.Grows f g added)
    (hempty : f.files = []) : g.children.map Child.reexport =
      added.map fun x => snake x.name.name ++ "::" ++ camel x.name.name := by
  rw [Folder.children, h.files_eq, hempty, List.nil_append, List.map_map]
  rfl

/-- What was added to a folder without files has stems and types of its own. -/
theorem nodup_of_grows {f g : Folder} {added : List SourceFile} (h : Folder.Grows f g added)
    (hstems : f.stems.taken.Nodup) (htypes : f.types.taken.Nodup) :
    (added.map Folder.typeOf).Nodup ∧ (added.map (·.name)).Nodup := by
  have hspelt := h.types_nodup htypes
  have hplaced := h.stems_nodup hstems
  rw [h.types_eq] at hspelt
  rw [h.stems_eq] at hplaced
  refine ⟨List.nodup_reverse.mp hspelt.of_append_left, .of_map (fun name => stem name.name) ?_⟩
  rw [List.map_map]
  exact List.nodup_reverse.mp hplaced.of_append_left

theorem offers_interface {i : Interface} {own : List SourceFile}
    (h : t.interfaceFiles i = .ok own) (hown : own ⊆ files) :
    ∃ index added, Offers t files i.name index added ∧ index.kind = .interface ∧
      List.Forall₂ (IsTypeFile t)
        ((i.operations.flatMap Operation.messages ++ t.exceptionRecords i).map .record) added ∧
      added.map (·.name) = i.operations.flatMap Operation.messageNames ++
        (t.exceptionRecords i).map (·.name) := by
  obtain ⟨added, constants, folder, hemits⟩ := Target.emitsInterface h
  rw [hemits.files_eq, List.append_subset, List.append_subset] at hown
  obtain ⟨⟨hadded, -⟩, hindex⟩ := hown
  have hreserved :
      [(t.requests i).ident, (t.responses i).ident, (t.exceptions i).ident].Nodup := by
    simp [Target.requests, Target.responses, Target.exceptions]
  obtain ⟨htypes, hnames⟩ :=
    nodup_of_grows hemits.grows (reservedStems_nodup i.constants) hreserved
  refine ⟨_, added, ⟨hindex List.mem_cons_self, rfl, rfl, ⟨i.constants, ?_⟩, hadded,
    hemits.grows.path_eq, htypes, hnames⟩, rfl, hemits.typeFiles, hemits.names_eq⟩
  rw [(saysIn_interface (newline_notMem_children folder)).2, reexports_of_grows hemits.grows rfl]

theorem offers_module {m : Module} {own : List SourceFile} (h : t.moduleFiles m = .ok own)
    (hown : own ⊆ files) :
    ∃ index added, Offers t files m.name index added ∧ index.kind = .module ∧
      List.Forall₂ (IsTypeFile t) (m.types.filterMap fun id => (t.schema.type id).defined?)
        added := by
  obtain ⟨constants, added, inner, interfaces, stems, taken, folder, hemits⟩ :=
    Target.emitsModule h
  rw [hemits.files_eq] at hown
  simp only [List.append_subset] at hown
  obtain ⟨⟨⟨-, hadded⟩, -⟩, hindex⟩ := hown
  have hstems := hemits.modules.taken_nodup (reservedStems_nodup m.constants)
  obtain ⟨htypes, hnames⟩ := nodup_of_grows hemits.grows hstems List.nodup_nil
  refine ⟨_, added, ⟨hindex List.mem_cons_self, rfl, rfl, ⟨m.constants, ?_⟩, hadded,
    hemits.grows.path_eq, htypes, hnames⟩, rfl, hemits.typeFiles⟩
  rw [(saysIn_module (newline_notMem_children folder)).2, reexports_of_grows hemits.grows rfl]

mutual

theorem moduleFiles_subset : (m : Module) → (files : List SourceFile) →
    t.moduleFiles m = .ok files →
    ∀ inner ∈ m.allModules, ∃ own, t.moduleFiles inner = .ok own ∧ own ⊆ files
  | ⟨name, modules, types, interfaces, constants⟩, files, h => by
    intro inner hinner
    rw [Module.allModules] at hinner
    rcases List.mem_cons.mp hinner with rfl | hinner
    · exact ⟨files, h, List.Subset.refl files⟩
    · obtain ⟨constantFiles, added, parts, parts', stems, taken, folder, hemits⟩ :=
        Target.emitsModule h
      obtain ⟨own, hown, hsub⟩ :=
        modulesFiles_subset modules parts hemits.modules.parts inner hinner
      refine ⟨own, hown, List.Subset.trans hsub ?_⟩
      rw [hemits.files_eq]
      intro f hf
      simp [hf]

/-- The files of every module are among those of the modules it is in. -/
theorem modulesFiles_subset : (ms : List Module) → (parts : List (List SourceFile)) →
    List.Forall₂ (fun m files => t.moduleFiles m = .ok files) ms parts →
    ∀ inner ∈ modulesOf ms, ∃ own, t.moduleFiles inner = .ok own ∧ own ⊆ parts.flatten
  | [], _, _ => by simp [modulesOf]
  | m :: ms, _, h => by
    cases h with
    | cons hfirst hrest =>
      intro inner hinner
      rw [List.flatten_cons]
      rcases List.mem_append.mp hinner with hinner | hinner
      · obtain ⟨own, hown, hsub⟩ := moduleFiles_subset m _ hfirst inner hinner
        exact ⟨own, hown, List.subset_append_of_subset_left _ hsub⟩
      · obtain ⟨own, hown, hsub⟩ := modulesFiles_subset ms _ hrest inner hinner
        exact ⟨own, hown, List.subset_append_of_subset_right _ hsub⟩

end

/-- The files of a schema: those of each module and each interface, at different paths. -/
structure Covers (t : Target) (files : List SourceFile) : Prop where
  paths_nodup : (files.map (·.path)).Nodup
  modules : ∀ m ∈ modulesOf t.schema.modules, ∃ own, t.moduleFiles m = .ok own ∧ own ⊆ files
  interfaces : ∀ i ∈ t.schema.interfaces, ∃ own, t.interfaceFiles i = .ok own ∧ own ⊆ files

theorem covers_of_compile {config : Config} {doc : Document}
    (hnames : ∀ n ∈ Document.directoryNamesOf doc.modules, HasStem n)
    (h : compile config doc = .ok files) :
    ∃ s, build doc = .ok s ∧ Covers ⟨s, config⟩ files := by
  obtain ⟨s, hs, hdirectory⟩ := directory_of_compile hnames h
  obtain ⟨s', taken, parts, hs', hemits, hfiles⟩ := exists_schema_of_compile h
  obtain rfl := Except.ok.inj (hs.symm.trans hs')
  have hsub : parts.flatten ⊆ files := hfiles ▸ List.subset_append_left _ _
  refine ⟨s, hs, ?_, ?_, ?_⟩
  · have hplaces := hdirectory.places_nodup
    refine .of_map place? ?_
    rwa [List.map_map]
  · intro m hm
    obtain ⟨own, hown, hparts⟩ := modulesFiles_subset s.modules parts hemits.parts m hm
    exact ⟨own, hown, List.Subset.trans hparts hsub⟩
  · intro i hi
    obtain ⟨own, hown, hparts⟩ :=
      (Target.coversInterfaces_modules s.modules parts hemits.parts).complete i hi
    exact ⟨own, hown, List.Subset.trans hparts hsub⟩

section Built

variable {doc : Document} {s : Schema} {config : Config}

theorem scope_of_mem_messages (h : build doc = .ok s) {i : Interface} (hi : i ∈ s.interfaces)
    {name : QualifiedName} (hname : name ∈ i.operations.flatMap Operation.messageNames) :
    name.scope = i.name := by
  obtain ⟨op, hop, hname⟩ := List.mem_flatMap.mp hname
  obtain ⟨decl, -, hbuilt⟩ := exists_of_mem_right (interfaces_of_build h).1 hi
  obtain ⟨opDecl, -, hrealizes⟩ := exists_of_mem_right hbuilt.operations hop
  have hscope : op.name.scope = i.name := by
    rw [hrealizes.name_eq, QualifiedName.child_scope]
  rcases List.mem_cons.mp hname with rfl | hname
  · rw [Operation.request, QualifiedName.sibling, QualifiedName.child_scope, hscope]
  · obtain ⟨r, hr, rfl⟩ := List.mem_map.mp hname
    rw [Option.mem_toList, Operation.response?] at hr
    split at hr
    · cases hr
    · obtain rfl := Option.some.inj hr
      rw [QualifiedName.sibling, QualifiedName.child_scope, hscope]

theorem mem_exceptionRecords (h : build doc = .ok s) {i : Interface} (hi : i ∈ s.interfaces)
    {id : TypeId} (hid : id ∈ i.exceptions) :
    ∃ r ∈ Target.exceptionRecords ⟨s, config⟩ i, s.type id = .record r := by
  obtain ⟨decl, -, hbuilt⟩ := exists_of_mem_right (interfaces_of_build h).1 hi
  obtain ⟨e, -, r, hr⟩ := exists_of_mem_right hbuilt.exceptions hid
  have htype : s.type id = .record r := by
    rw [Schema.type, Array.getD_eq_getD_getElem?, hr.type_eq]
    rfl
  refine ⟨r, List.mem_filterMap.mpr ⟨id, hid, ?_⟩, htype⟩
  rw [htype]

theorem exists_listed (h : build doc = .ok s) {type : TypeDef} (htype : type ∈ s.types.toList)
    {name : QualifiedName} (hname : type.definedName? = some name) :
    ∃ id, s.type id = type ∧ Listed (modulesOf s.modules) s.interfaces id name := by
  obtain ⟨place, htype⟩ := List.mem_iff_getElem?.mp htype
  rw [Array.getElem?_toList] at htype
  refine ⟨⟨place⟩, ?_, (orderly_of_build h).listed htype (TypeDef.name?_of_definedName? hname)⟩
  rw [Schema.type, Array.getD_eq_getD_getElem?, htype]
  rfl

variable (h : build doc = .ok s) (hcovers : Covers ⟨s, config⟩ files)
include h hcovers

/-- Every defined type has a file, and the index of its scope re-exports it. -/
theorem exists_exports {type : TypeDef} (htype : type ∈ s.definedTypes) :
    ∃ index file, Target.Exports ⟨s, config⟩ files file.name index file ∧
      IsTypeFile ⟨s, config⟩ type file := by
  rcases List.mem_append.mp htype with htype | htype
  · obtain ⟨other, hother, htype⟩ := List.mem_filterMap.mp htype
    obtain ⟨rfl, name, hname⟩ := TypeDef.defined?_eq_some_iff.mp htype
    obtain ⟨id, rfl, hlisted⟩ := exists_listed h hother hname
    rcases hlisted with ⟨m, hm, hscope, hid⟩ | ⟨i, hi, hscope, hid⟩
    · obtain ⟨own, hown, hsub⟩ := hcovers.modules m hm
      obtain ⟨index, added, hoffers, hkind, hadded⟩ := offers_module hown hsub
      obtain ⟨x, hx, hfile⟩ :=
        exists_of_mem_left hadded (List.mem_filterMap.mpr ⟨id, hid, htype⟩)
      obtain rfl := Option.some.inj (hname.symm.trans hfile.definedName_eq)
      exact ⟨index, x, hoffers.exports (.inl hkind) hcovers.paths_nodup hx hscope.symm, hfile⟩
    · obtain ⟨r, hr, htype⟩ := mem_exceptionRecords h hi hid
      obtain ⟨own, hown, hsub⟩ := hcovers.interfaces i hi
      obtain ⟨index, added, hoffers, hkind, hadded, -⟩ := offers_interface hown hsub
      obtain ⟨x, hx, hfile⟩ :=
        exists_of_mem_left hadded (List.mem_map_of_mem (List.mem_append_right _ hr))
      rw [htype] at hname ⊢
      obtain rfl := Option.some.inj (hname.symm.trans hfile.definedName_eq)
      exact ⟨index, x, hoffers.exports (.inr hkind) hcovers.paths_nodup hx hscope.symm, hfile⟩
  · obtain ⟨i, hi, htype⟩ := List.mem_flatMap.mp htype
    obtain ⟨r, hr, rfl⟩ := List.mem_map.mp htype
    obtain ⟨own, hown, hsub⟩ := hcovers.interfaces i hi
    obtain ⟨index, added, hoffers, hkind, hadded, -⟩ := offers_interface hown hsub
    obtain ⟨x, hx, hfile⟩ :=
      exists_of_mem_left hadded (List.mem_map_of_mem (List.mem_append_left _ hr))
    obtain ⟨op, hop, hr⟩ := List.mem_flatMap.mp hr
    have hname : r.name = x.name := Option.some.inj hfile.definedName_eq
    have hmessage : x.name ∈ op.messageNames := hname ▸ List.mem_map_of_mem hr
    have hscope := scope_of_mem_messages h hi (List.mem_flatMap.mpr ⟨op, hop, hmessage⟩)
    exact ⟨index, x, hoffers.exports (.inr hkind) hcovers.paths_nodup hx hscope, hfile⟩

/-- No two defined types have the same name. -/
theorem definedNames_nodup : s.definedNames.Nodup := by
  have horderly := orderly_of_build h
  rw [definedNames, List.nodup_append']
  refine ⟨?_, ?_, ?_⟩
  · -- Types of the table are told apart by their names.
    unfold List.Nodup
    rw [List.pairwise_filterMap, List.pairwise_iff_getElem]
    rintro i j hi hj hlt name hname other hother rfl
    have hfirst : s.types[i]? = some s.types.toList[i] := by
      rw [← Array.getElem?_toList, List.getElem?_eq_getElem hi]
    have hsecond : s.types[j]? = some s.types.toList[j] := by
      rw [← Array.getElem?_toList, List.getElem?_eq_getElem hj]
    have hsame := horderly.name_unique hfirst hsecond (TypeDef.name?_of_definedName? hname)
      (TypeDef.name?_of_definedName? hother)
    exact Nat.ne_of_lt hlt hsame
  · -- Messages of one interface have different stems, those of two are in different scopes.
    rw [List.nodup_flatMap]
    refine ⟨fun i hi => ?_, ?_⟩
    · obtain ⟨own, hown, hsub⟩ := hcovers.interfaces i hi
      obtain ⟨index, added, hoffers, -, -, hnames⟩ := offers_interface hown hsub
      exact (hnames ▸ hoffers.names_nodup).of_append_left
    · refine (List.pairwise_map.mp horderly.interfaces_nodup).imp_of_mem ?_
      intro i j hi hj hne name hname hother
      exact hne ((scope_of_mem_messages h hi hname).symm.trans (scope_of_mem_messages h hj hother))
  · -- A type of the table in the scope of an interface is one of its exceptions.
    intro name htable hmessage
    obtain ⟨i, hi, hmessage⟩ := List.mem_flatMap.mp hmessage
    have hscope := scope_of_mem_messages h hi hmessage
    obtain ⟨own, hown, hsub⟩ := hcovers.interfaces i hi
    obtain ⟨index, added, hoffers, hkind, -, hnames⟩ := offers_interface hown hsub
    obtain ⟨type, htype, hname⟩ := List.mem_filterMap.mp htable
    obtain ⟨id, rfl, ⟨m, hm, hmodule, -⟩ | ⟨j, hj, hinterface, hid⟩⟩ := exists_listed h htype hname
    · obtain ⟨own', hown', hsub'⟩ := hcovers.modules m hm
      obtain ⟨index', added', hoffers', hkind', -⟩ := offers_module hown' hsub'
      have hpath : index.path = index'.path := by
        rw [hoffers.index_path, hoffers'.index_path, hmodule, hscope]
      obtain rfl := List.inj_on_of_nodup_map hcovers.paths_nodup hoffers.index_mem
        hoffers'.index_mem hpath
      rw [hkind] at hkind'
      cases hkind'
    · obtain rfl := List.inj_on_of_nodup_map horderly.interfaces_nodup hj hi
        (hinterface.trans hscope)
      obtain ⟨r, hr, htype⟩ := mem_exceptionRecords h hj hid
      rw [htype] at hname
      obtain rfl := Option.some.inj hname
      have hnodup := hoffers.names_nodup
      rw [hnames, List.nodup_append'] at hnodup
      exact hnodup.2.2 hmessage (List.mem_map_of_mem hr)

end Built

/-- For every document whose modules and interfaces are named by identifiers, and every config, a
path that emitted code refers to is that of a defined type. It goes from the root through the
spellings of a scope to an identifier that the index of that very scope re-exports by one line, and
different types have different paths. The file to which it leads declares the type and names the
types in it by such paths, as does the index of an interface for its messages and exceptions. The
names of all other declarations are free. -/
theorem compile_paths_lead_to_types (config : Config) (doc : Document) (files : List SourceFile)
    (hnames : ∀ n ∈ Document.directoryNamesOf doc.modules, IsIdentifier n)
    (h : compile config doc = .ok files) :
    ∃ s, build doc = .ok s ∧
      (∀ path, Target.Refers ⟨s, config⟩ path →
        ∃ name ∈ s.definedNames, path = Target.path ⟨s, config⟩ name) ∧
      (∀ name ∈ s.definedNames,
        Target.path ⟨s, config⟩ name = "::".intercalate
          (config.rootPath :: name.scope.segments.map snake ++ [camel name.name]) ∧
        ∃ index file, Target.Exports ⟨s, config⟩ files name index file) ∧
      (∀ type ∈ s.definedTypes, ∃ index file,
        Target.Exports ⟨s, config⟩ files file.name index file ∧
        type.definedName? = some file.name ∧
        ∃ item ∈ file.steps, Target.DeclaresType ⟨s, config⟩ type item) ∧
      (∀ i ∈ s.interfaces, ∃ index ∈ files, index.kind = .interface ∧ index.name = i.name ∧
        Target.Gathers ⟨s, config⟩ i index) ∧
      (s.definedNames.map (Target.path ⟨s, config⟩)).Nodup := by
  obtain ⟨s, hs, hcovers⟩ := covers_of_compile (fun n hn => stem_ne_empty (hnames n hn)) h
  have hexported : ∀ name ∈ s.definedNames, ∃ index file,
      Target.Exports ⟨s, config⟩ files name index file := by
    intro name hname
    obtain ⟨type, htype, hname⟩ := exists_definedType hname
    obtain ⟨index, file, hexports, hfile⟩ := exists_exports hs hcovers htype
    obtain rfl := Option.some.inj (hname.symm.trans hfile.definedName_eq)
    exact ⟨index, file, hexports⟩
  refine ⟨s, hs, fun path hpath => hpath.exists_name, ?_, ?_, ?_, ?_⟩
  · exact fun name hname => ⟨path_eq ⟨s, config⟩ name, hexported name hname⟩
  · intro type htype
    obtain ⟨index, file, hexports, hfile⟩ := exists_exports hs hcovers htype
    exact ⟨index, file, hexports, hfile.definedName_eq, hfile.declares⟩
  · intro i hi
    obtain ⟨own, hown, hsub⟩ := hcovers.interfaces i hi
    obtain ⟨index, hindex, hgathers⟩ := exists_gathers hown
    exact ⟨index, hsub hindex, hgathers⟩
  · refine List.Nodup.map_on ?_ (definedNames_nodup hs hcovers)
    intro a ha b hb hpath
    obtain ⟨index, file, hexports⟩ := hexported a ha
    obtain ⟨index', file', hexports'⟩ := hexported b hb
    exact hexports.eq_of_path_eq hexports' hpath

theorem compile_paths_lead_to_types_hub :
    (∀ n ∈ Document.directoryNamesOf hub.modules, IsIdentifier n) ∧
    ∃ files s, compile {} hub = .ok files ∧ build hub = .ok s ∧ s.definedNames.length = 6 ∧
      (s.definedNames.map (Target.path ⟨s, {}⟩)).Nodup ∧
      Target.path ⟨s, {}⟩ ⟨["hub", "Lookup", "findRequest"]⟩ = "crate::hub::lookup::FindRequest" ∧
      (∃ index file,
        Target.Exports ⟨s, {}⟩ files ⟨["hub", "Lookup", "findRequest"]⟩ index file) ∧
      ∃ index file, Target.Exports ⟨s, {}⟩ files ⟨["hub", "Nodes"]⟩ index file ∧
        .line "pub struct Nodes(Vec<crate::hub::Node>);" ∈ file.steps := by
  have hnames : ∀ n ∈ Document.directoryNamesOf hub.modules, IsIdentifier n := by decide
  have hcompiled : (compile {} hub).toBool = true := by decide +kernel
  obtain ⟨files, hfiles⟩ := Target.exists_eq_ok hcompiled
  obtain ⟨s, hs, -, hexports, hdeclares, -, hnodup⟩ :=
    compile_paths_lead_to_types {} hub files hnames hfiles
  have hlength : (build hub).map (·.definedNames.length) = .ok 6 := by decide +kernel
  have hdefined : (build hub).map
      (fun s => decide (⟨["hub", "Lookup", "findRequest"]⟩ ∈ s.definedNames)) = .ok true := by
    decide +kernel
  have hnodes : (build hub).map (fun s => decide (
      .sequence ⟨⟨["hub", "Nodes"]⟩, ⟨0⟩⟩ ∈ s.definedTypes ∧
      (s.type ⟨0⟩).definedName? = some ⟨["hub", "Node"]⟩)) = .ok true := by
    decide +kernel
  rw [hs] at hlength hdefined hnodes
  have hmem := of_decide_eq_true (Except.ok.inj hdefined)
  obtain ⟨htype, hnode⟩ := of_decide_eq_true (Except.ok.inj hnodes)
  have hpath : typePath "crate" ⟨["hub", "Lookup", "findRequest"]⟩ =
      "crate::hub::lookup::FindRequest" := by decide +kernel
  obtain ⟨index, file, hfile, hname, item, hitem, hdeclares⟩ := hdeclares _ htype
  rw [← Option.some.inj hname] at hfile
  refine ⟨hnames, files, s, hfiles, hs, Except.ok.inj hlength, hnodup, hpath, (hexports _ hmem).2,
    index, file, hfile, ?_⟩
  cases hdeclares with
  | sequence helement hinner =>
    have hline : "pub struct " ++ camel "Nodes" ++ "(" ++
        ("Vec<" ++ typePath "crate" ⟨["hub", "Node"]⟩ ++ ">") ++ ");" =
        "pub struct Nodes(Vec<crate::hub::Node>);" := by decide +kernel
    rw [hinner, helement.eq_path hnode] at hitem
    rw [← hline]
    exact hitem

end Source
end WireSchema
