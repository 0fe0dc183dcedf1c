import WireSchema.Proofs.Schema.Acceptance
import WireSchema.Proofs.Source.TypeNames

/-!
# Clashes between the names in a file

The types of a directory have different spellings, and so have the modules that its index declares.
Nothing keeps a type apart from the wire types that its file imports, nor from a module beside it.
The names of a file differ unless one of these two happens, and a type whose spelling has a capital
is never spelt like a module.
-/
namespace WireSchema.Source

open Identifier Schema

/-- The modules that the index of a directory declares, apart from raw marks. -/
def declaredStems (constants : List Constant) (names : List String) : List String :=
  constantNames constants ++ names.map stem

/-- No type is spelt like an imported type or like a module beside it. -/
def Clear (types modules : List String) : Prop :=
  ∀ name ∈ types, camel name ∉ imports ∧ camel name ∉ modules

namespace Target

variable (t : Target)

def moduleTypes (m : Module) : List String :=
  (m.types.filterMap fun id => (t.schema.type id).definedName?).map (·.name)

def interfaceTypes (i : Interface) : List String :=
  (i.operations.flatMap Operation.messageNames ++ (t.exceptionRecords i).map (·.name)).map (·.name)

def ModuleClear (m : Module) : Prop :=
  Clear (t.moduleTypes m) (declaredStems m.constants
    (m.modules.map (·.name.name) ++ t.moduleTypes m ++ m.interfaces.map (·.name.name)))

def InterfaceClear (i : Interface) : Prop :=
  Clear (t.interfaceTypes i) (declaredStems i.constants (t.interfaceTypes i))

def TypesClear : Prop :=
  (∀ m ∈ modulesOf t.schema.modules, t.ModuleClear m) ∧
    ∀ i ∈ t.schema.interfaces, t.InterfaceClear i

end Target

/-- An identifier has a capital letter of the Latin alphabet. -/
def HasCapital (ident : String) : Prop := ident.toList.any Char.isUpper = true

instance (ident : String) : Decidable (HasCapital ident) :=
  inferInstanceAs (Decidable (_ = true))

theorem HasCapital.append {ident : String} (h : HasCapital ident) (before : String) :
    HasCapital (before ++ ident) := by
  rw [HasCapital, String.toList_append, List.any_append, Bool.or_eq_true]
  exact .inr h

/-- Modules are spelt without capitals. -/
theorem HasCapital.notMem_declaredStems {ident : String} (h : HasCapital ident)
    (constants : List Constant) (names : List String) :
    ident ∉ declaredStems constants names := by
  intro hmem
  rcases List.mem_append.mp hmem with hmem | hmem
  · have hplain : ¬ HasCapital "constants" := by decide
    unfold constantNames at hmem
    split_ifs at hmem
    · cases hmem
    · obtain rfl := List.mem_singleton.mp hmem
      exact hplain h
  · obtain ⟨name, -, rfl⟩ := List.mem_map.mp hmem
    obtain ⟨c, hc, hupper⟩ := List.any_eq_true.mp h
    exact capital_notMem_stem hupper name hc

theorem hasCapital_imports : ∀ ident ∈ imports, HasCapital ident := by decide

variable {t : Target} {files : List SourceFile}

def dispatchEndings : List String := ["Request", "Response", "Exception"]

theorem dispatchIdents_eq (i : Interface) :
    t.dispatchIdents i = dispatchEndings.map (camel i.name.name ++ ·) := rfl

theorem hasCapital_dispatchIdents (i : Interface) :
    ∀ ident ∈ t.dispatchIdents i, HasCapital ident := by
  have hendings : ∀ ending ∈ dispatchEndings, HasCapital ending := by decide
  rw [dispatchIdents_eq, List.forall_mem_map]
  exact fun ending hending => (hendings ending hending).append _

theorem imports_disjoint_dispatchIdents (i : Interface) :
    imports.Disjoint (t.dispatchIdents i) := by
  have hendings : ∀ ident ∈ imports, ∀ ending ∈ dispatchEndings,
      ¬ ending.toList <:+ ident.toList := by decide
  intro ident himport hident
  rw [dispatchIdents_eq] at hident
  obtain ⟨ending, hending, rfl⟩ := List.mem_map.mp hident
  apply hendings _ himport ending hending
  rw [String.toList_append]
  exact List.suffix_append _ _

theorem stems_types_perm (files : List SourceFile) :
    (files.flatMap fun x => [Folder.stemOf x, Folder.typeOf x]).Perm
      (files.map Folder.stemOf ++ files.map Folder.typeOf) := by
  have hperm := List.map_append_flatMap_perm files Folder.stemOf fun x => [Folder.typeOf x]
  rw [← List.map_eq_flatMap] at hperm
  exact hperm.symm

theorem index_perm (before after : List String) (files : List SourceFile) :
    (before ++ (files.flatMap fun x => [Folder.stemOf x, Folder.typeOf x]) ++ after).Perm
      (before ++ files.map Folder.stemOf ++ after ++ files.map Folder.typeOf) := by
  refine (((stems_types_perm files).append_left before).append_right after).trans ?_
  rw [← List.append_assoc, List.append_assoc _ (files.map Folder.typeOf), List.append_assoc _ after]
  exact List.perm_append_comm.append_left _

/-- Types with different spellings stay apart from what has none of these spellings. -/
theorem nodup_append_camel_iff {others types : List String} (hothers : others.Nodup)
    (htypes : (types.map camel).Nodup) :
    (others ++ types.map camel).Nodup ↔ ∀ name ∈ types, camel name ∉ others := by
  rw [List.nodup_append', and_iff_right hothers, and_iff_right htypes, List.disjoint_comm]
  exact List.forall_mem_map

theorem typeNames_nodup_iff_of_isTypeFile {type : TypeDef} {f : SourceFile}
    (h : IsTypeFile t type f) : f.typeNames.Nodup ↔ camel f.name.name ∉ imports := by
  have himports : imports.Nodup := by decide
  rw [h.typeNames_eq, List.nodup_append']
  simp [himports]

section Folders

variable {added : List SourceFile} {types : List String}

theorem typeFiles_nodup_iff {defined : List TypeDef}
    (h : List.Forall₂ (IsTypeFile t) defined added) (hnames : added.map (·.name.name) = types) :
    (∀ x ∈ added, x.typeNames.Nodup) ↔ ∀ name ∈ types, camel name ∉ imports := by
  rw [← hnames, List.forall_mem_map]
  refine forall₂_congr fun x hx => ?_
  obtain ⟨type, -, hfile⟩ := exists_of_mem_right h hx
  exact typeNames_nodup_iff_of_isTypeFile hfile

theorem map_stemOf (hnames : added.map (·.name.name) = types) :
    added.map Folder.stemOf = types.map stem := by
  rw [← hnames, List.map_map]
  rfl

theorem map_typeOf (hnames : added.map (·.name.name) = types) :
    added.map Folder.typeOf = types.map camel := by
  rw [← hnames, List.map_map]
  rfl

end Folders

/-- The stems that a directory claims for its modules differ. -/
theorem declaredStems_nodup {taken : List String} {constants : List Constant} {names : List String}
    (hperm : taken.Perm (reservedStems constants ++ names.map stem)) (hnodup : taken.Nodup) :
    (declaredStems constants names).Nodup := by
  have hconstants : (constantNames constants).map moduleStem = constantNames constants := by
    unfold constantNames
    split_ifs
    · rfl
    · rw [List.map_singleton, moduleStem_constants]
  rw [hperm.nodup_iff, reservedStems_eq, hconstants, List.cons_append] at hnodup
  exact hnodup.of_cons

/-- The files of types and the index of a module have no clash if its types are clear. -/
theorem module_nodup_iff {m : Module} {constantFiles added : List SourceFile}
    {parts parts' : List (List SourceFile)} {stems taken : Namespace} {folder : Folder}
    (h : t.EmitsModule m files constantFiles added parts parts' stems taken folder) :
    (∀ x ∈ added, x.typeNames.Nodup) ∧
      ((Target.moduleSteps m folder.children).flatMap Step.typeNames).Nodup ↔
        t.ModuleClear m := by
  have hnames : added.map (·.name.name) = t.moduleTypes m := by
    rw [Target.moduleTypes, ← h.names_eq, List.map_map]
    rfl
  have hstems := h.modules.taken_nodup (reservedStems_nodup m.constants)
  have hmodules := declaredStems_nodup (stems_perm_of_emitsModule h)
    (h.interfaces.taken_nodup (h.grows.stems_nodup hstems))
  have htypes := (nodup_of_grows h.grows hstems List.nodup_nil).1
  have hfiles : folder.files = added := h.grows.files_eq
  rw [declaredNames, hnames] at hmodules
  rw [map_typeOf hnames] at htypes
  have hindex : ((Target.moduleSteps m folder.children).flatMap Step.typeNames).Perm
      (declaredStems m.constants (m.modules.map (·.name.name) ++ t.moduleTypes m ++
        m.interfaces.map (·.name.name)) ++ (t.moduleTypes m).map camel) := by
    rw [introduces_module m folder, hfiles]
    refine (index_perm _ _ added).trans ?_
    rw [map_stemOf hnames, map_typeOf hnames, declaredStems, List.map_append, List.map_append,
      List.map_map, List.map_map, ← List.append_assoc, ← List.append_assoc]
    exact .refl _
  rw [typeFiles_nodup_iff h.typeFiles hnames, hindex.nodup_iff,
    nodup_append_camel_iff hmodules htypes, ← forall₂_and]
  rfl

theorem interface_others_nodup {i : Interface} {names : List String}
    (h : (declaredStems i.constants names).Nodup) :
    (imports ++ declaredStems i.constants names ++ t.dispatchIdents i).Nodup := by
  have himports : imports.Nodup := by decide
  have hidents : (t.dispatchIdents i).Nodup := by
    simp [Target.dispatchIdents, Target.requests, Target.responses, Target.exceptions]
  rw [List.nodup_append', List.nodup_append', List.disjoint_append_left]
  refine ⟨⟨himports, h, ?_⟩, hidents, imports_disjoint_dispatchIdents i, ?_⟩
  · exact fun ident hident => (hasCapital_imports ident hident).notMem_declaredStems _ _
  · exact fun ident hstem hident =>
      (hasCapital_dispatchIdents i ident hident).notMem_declaredStems _ _ hstem

theorem interface_nodup_iff {i : Interface} {added constants : List SourceFile} {folder : Folder}
    (h : t.EmitsInterface i files added constants folder) :
    (∀ x ∈ added, x.typeNames.Nodup) ∧
      ((t.interfaceSteps i folder.children).flatMap Step.typeNames).Nodup ↔
        t.InterfaceClear i := by
  have hnames : added.map (·.name.name) = t.interfaceTypes i := by
    rw [Target.interfaceTypes, ← h.names_eq, List.map_map]
    rfl
  have hfiles : folder.files = added := h.grows.files_eq
  have hreserved := reservedStems_nodup i.constants
  have hmodules : (declaredStems i.constants (t.interfaceTypes i)).Nodup := by
    rw [← hnames]
    exact declaredStems_nodup (stems_perm_of_grows h.grows) (h.grows.stems_nodup hreserved)
  have hothers := interface_others_nodup (t := t) hmodules
  -- The spellings of the types are claimed beside those of the enumerations.
  have hidents : (t.dispatchIdents i).Nodup := hothers.of_append_right
  have htaken : ((added.map Folder.typeOf).reverse ++ t.dispatchIdents i).Nodup := by
    have hclaimed := h.grows.types_nodup hidents
    rwa [h.grows.types_eq] at hclaimed
  rw [map_typeOf hnames, List.nodup_append', List.nodup_reverse] at htaken
  obtain ⟨htypes, -, hapart⟩ := htaken
  have hindex : ((t.interfaceSteps i folder.children).flatMap Step.typeNames).Perm
      (imports ++ declaredStems i.constants (t.interfaceTypes i) ++ t.dispatchIdents i ++
        (t.interfaceTypes i).map camel) := by
    rw [introduces_interface t i folder, hfiles]
    refine (index_perm _ _ added).trans ?_
    rw [map_stemOf hnames, map_typeOf hnames, declaredStems, ← List.append_assoc imports]
  rw [typeFiles_nodup_iff h.typeFiles hnames, hindex.nodup_iff,
    nodup_append_camel_iff hothers htypes, ← forall₂_and]
  refine forall₂_congr fun name hname => ?_
  have hident : camel name ∉ t.dispatchIdents i :=
    hapart (List.mem_reverse.mpr (List.mem_map_of_mem hname))
  rw [List.mem_append, List.mem_append, not_or, not_or, and_iff_left hident]
  exact and_self_left

/-- The names in each file differ. -/
def NamesDiffer (files : List SourceFile) : Prop := ∀ f ∈ files, f.typeNames.Nodup

theorem namesDiffer_append {files files' : List SourceFile} :
    NamesDiffer (files ++ files') ↔ NamesDiffer files ∧ NamesDiffer files' :=
  List.forall_mem_append

theorem namesDiffer_singleton {f : SourceFile} : NamesDiffer [f] ↔ f.typeNames.Nodup :=
  List.forall_mem_singleton

theorem namesDiffer_constants {scope : QualifiedName} {constants : List Constant}
    (h : t.constantFiles scope constants = .ok files) : NamesDiffer files := by
  intro f hf
  rw [typeNames_constantFiles h f hf]
  exact List.nodup_nil

theorem namesDiffer_flatten_iff {α : Type} {emit : α → Except SchemaError (List SourceFile)}
    {items : List α} {parts : List (List SourceFile)} {P : α → Prop}
    (h : List.Forall₂ (fun a files => emit a = .ok files) items parts)
    (hpart : ∀ a files, emit a = .ok files → (NamesDiffer files ↔ P a)) :
    NamesDiffer parts.flatten ↔ ∀ a ∈ items, P a := by
  induction h with
  | nil => simp [NamesDiffer]
  | cons hfiles _ ih =>
    rw [List.flatten_cons, namesDiffer_append, hpart _ _ hfiles, ih, List.forall_mem_cons]

theorem namesDiffer_interface_iff {i : Interface} (h : t.interfaceFiles i = .ok files) :
    NamesDiffer files ↔ t.InterfaceClear i := by
  obtain ⟨added, constants, folder, hemits⟩ := Target.emitsInterface h
  rw [hemits.files_eq, namesDiffer_append, namesDiffer_append, namesDiffer_singleton,
    and_iff_left (namesDiffer_constants hemits.constants_run)]
  exact interface_nodup_iff hemits

mutual

theorem namesDiffer_module_iff : (m : Module) → (files : List SourceFile) →
    t.moduleFiles m = .ok files →
    (NamesDiffer files ↔
      (∀ inner ∈ m.allModules, t.ModuleClear inner) ∧
        ∀ i ∈ m.allInterfaces, t.InterfaceClear i)
  | ⟨name, modules, types, interfaces, constants⟩, files, h => by
    obtain ⟨constantFiles, added, inner, own, stems, taken, folder, hemits⟩ :=
      Target.emitsModule h
    have hinner := namesDiffer_modules_iff modules inner hemits.modules.parts
    have hown := namesDiffer_flatten_iff hemits.interfaces.parts
      fun i files hfiles => namesDiffer_interface_iff hfiles
    have hclear := module_nodup_iff hemits
    rw [hemits.files_eq, namesDiffer_append, namesDiffer_append, namesDiffer_append,
      namesDiffer_append, namesDiffer_singleton, hinner, hown,
      and_iff_right (namesDiffer_constants hemits.constants_run), Module.allModules,
      Module.allInterfaces, List.forall_mem_cons, List.forall_mem_append, ← hclear]
    constructor
    · rintro ⟨⟨⟨⟨hmodules, hwithin⟩, hadded⟩, hinterfaces⟩, hindex⟩
      exact ⟨⟨⟨hadded, hindex⟩, hmodules⟩, hinterfaces, hwithin⟩
    · rintro ⟨⟨⟨hadded, hindex⟩, hmodules⟩, hinterfaces, hwithin⟩
      exact ⟨⟨⟨⟨hmodules, hwithin⟩, hadded⟩, hinterfaces⟩, hindex⟩

/-- No file of the modules has a clash if their types, and those of the modules in them, are clear.
-/
theorem namesDiffer_modules_iff : (ms : List Module) → (parts : List (List SourceFile)) →
    List.Forall₂ (fun m files => t.moduleFiles m = .ok files) ms parts →
    (NamesDiffer parts.flatten ↔
      (∀ m ∈ modulesOf ms, t.ModuleClear m) ∧ ∀ i ∈ interfacesOf ms, t.InterfaceClear i)
  | [], _, h => by
    cases h
    simp [NamesDiffer, modulesOf, interfacesOf]
  | first :: ms, _, h => by
    cases h with
    | cons hfirst hrest =>
      rw [List.flatten_cons, namesDiffer_append, namesDiffer_module_iff first _ hfirst,
        namesDiffer_modules_iff ms _ hrest, modulesOf, interfacesOf, List.forall_mem_append,
        List.forall_mem_append]
      exact and_and_and_comm

end

theorem namesDiffer_iff_of_compile {config : Config} {doc : Document}
    (h : compile config doc = .ok files) :
    ∃ s, build doc = .ok s ∧ (NamesDiffer files ↔ Target.TypesClear ⟨s, config⟩) := by
  obtain ⟨s, taken, parts, hs, hemits, rfl⟩ := exists_schema_of_compile h
  have hroot : (SourceFile.typeNames
      ⟨[indexFile], .module, .root, Target.rootSteps s.modules⟩).Nodup := by
    have htaken := hemits.taken_nodup (List.nodup_singleton "mod")
    rw [hemits.taken_eq] at htaken
    rw [SourceFile.typeNames, introduces_root]
    exact List.nodup_reverse.mp htaken.of_append_left
  refine ⟨s, hs, ?_⟩
  rw [namesDiffer_append, namesDiffer_singleton, and_iff_left hroot,
    namesDiffer_modules_iff s.modules parts hemits.parts]
  rfl

theorem exists_definedName_of_moduleTypes {m : Module} {own : String}
    (h : own ∈ t.moduleTypes m) : ∃ name ∈ t.schema.definedNames, name.name = own := by
  obtain ⟨name, hname, rfl⟩ := List.mem_map.mp h
  obtain ⟨id, -, hdefined⟩ := List.mem_filterMap.mp hname
  exact ⟨name, mem_definedNames hdefined, rfl⟩

theorem exists_definedName_of_interfaceTypes {i : Interface} (hi : i ∈ t.schema.interfaces)
    {own : String} (h : own ∈ t.interfaceTypes i) :
    ∃ name ∈ t.schema.definedNames, name.name = own := by
  obtain ⟨name, hname, rfl⟩ := List.mem_map.mp h
  rcases List.mem_append.mp hname with hname | hname
  · obtain ⟨op, hop, hmessage⟩ := List.mem_flatMap.mp hname
    exact ⟨name, mem_definedNames_of_message hi hop hmessage, rfl⟩
  · obtain ⟨r, hr, rfl⟩ := List.mem_map.mp hname
    obtain ⟨id, -, hrecord⟩ := List.mem_filterMap.mp hr
    have hdefined : (t.schema.type id).definedName? = some r.name := by
      split at hrecord
      · rename_i heq
        obtain rfl := Option.some.inj hrecord
        rw [heq]
        rfl
      · cases hrecord
    exact ⟨r.name, mem_definedNames hdefined, rfl⟩

/-- Types that are spelt with a capital and unlike the imports are clear. -/
theorem typesClear_of_capitals
    (h : ∀ name ∈ t.schema.definedNames,
      camel name.name ∉ imports ∧ HasCapital (camel name.name)) : t.TypesClear := by
  constructor
  · intro m _ own hown
    obtain ⟨name, hname, rfl⟩ := exists_definedName_of_moduleTypes hown
    obtain ⟨himport, hcapital⟩ := h name hname
    exact ⟨himport, hcapital.notMem_declaredStems _ _⟩
  · intro i hi own hown
    obtain ⟨name, hname, rfl⟩ := exists_definedName_of_interfaceTypes hi hown
    obtain ⟨himport, hcapital⟩ := h name hname
    exact ⟨himport, hcapital.notMem_declaredStems _ _⟩

/-- In whatever compiles, the names of types and modules in each file differ exactly if no type is
spelt like a wire type that its file imports or like a module of its own directory. They do differ
if all types are spelt with a capital and unlike the imports. -/
theorem compile_type_names_nodup_iff (config : Config) (doc : Document) (files : List SourceFile)
    (h : compile config doc = .ok files) :
    ∃ s, build doc = .ok s ∧
      ((∀ f ∈ files, f.typeNames.Nodup) ↔ Target.TypesClear ⟨s, config⟩) ∧
      ((∀ name ∈ s.definedNames, camel name.name ∉ imports ∧ HasCapital (camel name.name)) →
        ∀ f ∈ files, f.typeNames.Nodup) := by
  obtain ⟨s, hs, hiff⟩ := namesDiffer_iff_of_compile h
  exact ⟨s, hs, hiff, fun hcapitals => hiff.mpr (typesClear_of_capitals hcapitals)⟩

theorem compile_type_names_nodup_iff_harbour :
    ∃ files s, compile {} harbour = .ok files ∧ build harbour = .ok s ∧
      s.definedNames.map (camel ·.name) = ["Constants", "Aground"] ∧
      Target.TypesClear ⟨s, {}⟩ ∧ ∀ f ∈ files, f.typeNames.Nodup := by
  obtain ⟨files, hfiles, -⟩ : ∃ files, compile {} harbour = .ok files ∧ files.length = 8 :=
    exists_ok_of_toOption (by decide +kernel)
  have hdefined : (build harbour).map (·.definedNames.map (camel ·.name)) =
      .ok ["Constants", "Aground"] := by decide +kernel
  have hplain : ∀ ident ∈ ["Constants", "Aground"], ident ∉ imports ∧ HasCapital ident := by decide
  obtain ⟨s, hs, hiff, hcapitals⟩ := compile_type_names_nodup_iff {} harbour files hfiles
  rw [hs] at hdefined
  have hspelt : s.definedNames.map (camel ·.name) = ["Constants", "Aground"] :=
    Except.ok.inj hdefined
  have hnodup := hcapitals fun name hname =>
    hplain _ (hspelt ▸ List.mem_map_of_mem (f := (camel ·.name)) hname)
  exact ⟨files, s, hfiles, hs, hspelt, hiff.mp hnodup, hnodup⟩

/-- A record with the name of a wire type, and one whose name case conversion leaves as it is. -/
def probe : Document where
  modules := [{
    name := "probe"
    modules := []
    types := [⟨"Xdr", .record []⟩, ⟨"_1", .record []⟩]
    interfaces := []
    constants := [] }]

/-- The file of the first record has two items named `Xdr`, and the index of the module has two that
are named `_1`. -/
theorem type_names_clash_probe :
    ∃ files, compile {} probe = .ok files ∧
      files.map (fun f => (f.pathText, f.typeNames)) = [
        ("probe/xdr.rs", ["Deserializer", "Serializer", "Xdr", "Xdr"]),
        ("probe/_1.rs", ["Deserializer", "Serializer", "Xdr", "_1"]),
        ("probe/mod.rs", ["xdr", "Xdr", "_1", "_1"]),
        ("mod.rs", ["probe"])] :=
  exists_ok_of_toOption (by decide +kernel)

end WireSchema.Source
