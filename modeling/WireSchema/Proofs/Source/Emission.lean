import Mathlib.Data.List.Nodup
import Mathlib.Tactic.Tauto
import WireSchema.Source.Tree

/-!
# What is emitted into a directory

Every file of a type claims its stem and its type's spelling, so those of one directory differ. This
module says once what a successful emission adds, for a folder that grows file by file and for the
directory of an interface.
-/
namespace WireSchema

/-- The name of a type that is defined in a document. -/
def TypeDef.definedName? : TypeDef → Option QualifiedName
  | .forward _ => none
  | type => type.name?

/-- A type, if it is defined in a document. -/
def TypeDef.defined? (type : TypeDef) : Option TypeDef := type.definedName?.map fun _ => type

def Schema.Operation.messages (op : Operation) : List RecordType :=
  op.request :: op.response?.toList

def Schema.Operation.messageNames (op : Operation) : List QualifiedName :=
  op.request.name :: op.response?.toList.map (·.name)

namespace Source

open Identifier Schema

theorem bind_eq_ok_iff {ε α β : Type} {x : Except ε α} {f : α → Except ε β} {b : β} :
    (x >>= f) = .ok b ↔ ∃ a, x = .ok a ∧ f a = .ok b := by
  cases x with
  | error e => simp [bind, Except.bind]
  | ok a => simp [bind, Except.bind]

theorem claim_nodup {n n' : Namespace} {spelling name : String}
    (h : n.claim spelling name = .ok n') (hnodup : n.taken.Nodup) : n'.taken.Nodup := by
  obtain ⟨hfresh, rfl⟩ := Namespace.claim_eq_ok_iff.mp h
  exact List.nodup_cons.mpr ⟨hfresh, hnodup⟩

/-- A file that was emitted for a type, wherever it stands. -/
inductive IsTypeFile (t : Target) : TypeDef → SourceFile → Prop
  | record {path : List String} {kind : FileKind} {r : RecordType}
    {response? : Option RecordType} {steps : List Step}
    (h : t.recordSteps r response? = .ok steps) :
    IsTypeFile t (.record r) ⟨path, kind, r.name, steps⟩
  | sequence {path : List String} {kind : FileKind} {q : SequenceType} {steps : List Step}
    (h : t.sequenceSteps q = .ok steps) : IsTypeFile t (.sequence q) ⟨path, kind, q.name, steps⟩
  | map {path : List String} {kind : FileKind} {m : MapType} {steps : List Step}
    (h : t.mapSteps m = .ok steps) : IsTypeFile t (.map m) ⟨path, kind, m.name, steps⟩
  | enumeration {path : List String} {kind : FileKind} {e : EnumType} {steps : List Step}
    (h : t.enumerationSteps e = .ok steps) :
    IsTypeFile t (.enumeration e) ⟨path, kind, e.name, steps⟩

theorem IsTypeFile.definedName_eq {t : Target} {type : TypeDef} {f : SourceFile}
    (h : IsTypeFile t type f) : type.definedName? = some f.name := by
  cases h <;> rfl

theorem map_name_of_typeFiles {t : Target} {types : List TypeDef} {added : List SourceFile}
    (h : List.Forall₂ (IsTypeFile t) types added) :
    added.map (·.name) = types.filterMap TypeDef.definedName? := by
  induction h with
  | nil => rfl
  | cons hfile _ ih => rw [List.map_cons, List.filterMap_cons_some hfile.definedName_eq, ih]

namespace Folder

variable {t : Target} {f g k : Folder}

/-- The stem of a file that stands for a type, and the spelling of that type. -/
def stemOf (file : SourceFile) : String := stem file.name.name

def typeOf (file : SourceFile) : String := camel file.name.name

/-- The folder `g` is `f` with files added, each at its stem and with all spellings claimed. -/
structure Grows (f g : Folder) (added : List SourceFile) : Prop where
  name_eq : g.name = f.name
  files_eq : g.files = f.files ++ added
  path_eq : ∀ x ∈ added, x.path = directory f.name ++ [stemOf x ++ ".rs"]
  kind_ne : ∀ x ∈ added, x.kind ≠ .interface ∧ x.kind ≠ .module
  stems_eq : g.stems.taken = (added.map stemOf).reverse ++ f.stems.taken
  types_eq : g.types.taken = (added.map typeOf).reverse ++ f.types.taken
  stems_nodup : f.stems.taken.Nodup → g.stems.taken.Nodup
  types_nodup : f.types.taken.Nodup → g.types.taken.Nodup

theorem Grows.refl (f : Folder) : Grows f f [] :=
  ⟨rfl, by simp, by simp, by simp, by simp, by simp, id, id⟩

theorem Grows.trans {a b : List SourceFile} (h : Grows f g a) (h' : Grows g k b) :
    Grows f k (a ++ b) where
  name_eq := h'.name_eq.trans h.name_eq
  files_eq := by rw [h'.files_eq, h.files_eq, List.append_assoc]
  path_eq := by
    intro x hx
    rcases List.mem_append.mp hx with hx | hx
    · exact h.path_eq x hx
    · rw [← h.name_eq]
      exact h'.path_eq x hx
  kind_ne := by
    intro x hx
    rcases List.mem_append.mp hx with hx | hx
    · exact h.kind_ne x hx
    · exact h'.kind_ne x hx
  stems_eq := by
    rw [h'.stems_eq, h.stems_eq, List.map_append, List.reverse_append, List.append_assoc]
  types_eq := by
    rw [h'.types_eq, h.types_eq, List.map_append, List.reverse_append, List.append_assoc]
  stems_nodup := fun hnodup => h'.stems_nodup (h.stems_nodup hnodup)
  types_nodup := fun hnodup => h'.types_nodup (h.types_nodup hnodup)

/-- Files are added for types, one for each. -/
def AddsEach (t : Target) (f g : Folder) (types : List TypeDef) : Prop :=
  ∃ added, List.Forall₂ (IsTypeFile t) types added ∧ Grows f g added

theorem AddsEach.nil (t : Target) (f : Folder) : AddsEach t f f [] := ⟨[], .nil, .refl f⟩

theorem AddsEach.trans {types types' : List TypeDef} (h : AddsEach t f g types)
    (h' : AddsEach t g k types') : AddsEach t f k (types ++ types') := by
  obtain ⟨added, hadded, hgrows⟩ := h
  obtain ⟨added', hadded', hgrows'⟩ := h'
  exact ⟨added ++ added', List.rel_append hadded hadded', hgrows.trans hgrows'⟩

theorem addsEach_add {kind : FileKind} {name : QualifiedName} {steps : List Step} {type : TypeDef}
    (hkind : kind ≠ .interface ∧ kind ≠ .module)
    (hsteps : ∀ path, IsTypeFile t type ⟨path, kind, name, steps⟩)
    (h : f.add kind name steps = .ok g) : AddsEach t f g [type] := by
  unfold add at h
  obtain ⟨stems, hstems, h⟩ := bind_eq_ok_iff.mp h
  obtain ⟨types, htypes, h⟩ := bind_eq_ok_iff.mp h
  obtain rfl := Except.ok.inj h
  refine ⟨_, .cons (hsteps _) .nil, rfl, rfl, ?_, ?_, ?_, ?_, claim_nodup hstems,
    claim_nodup htypes⟩
  · simp [stemOf]
  · simpa using hkind
  · obtain ⟨-, rfl⟩ := Namespace.claim_eq_ok_iff.mp hstems
    rfl
  · obtain ⟨-, rfl⟩ := Namespace.claim_eq_ok_iff.mp htypes
    rfl

theorem addsEach_addRecord {kind : FileKind} {r : RecordType} {response? : Option RecordType}
    (hkind : kind ≠ .interface ∧ kind ≠ .module)
    (h : f.addRecord t kind r response? = .ok g) : AddsEach t f g [.record r] := by
  obtain ⟨steps, hsteps, h⟩ := bind_eq_ok_iff.mp h
  exact addsEach_add hkind (fun _ => .record hsteps) h

/-- The type at a place has a file if it is defined and has a name. -/
theorem addsEach_addType {id : TypeId} (h : f.addType t id = .ok g) :
    AddsEach t f g (t.schema.type id).defined?.toList := by
  unfold addType at h
  generalize t.schema.type id = type at h ⊢
  cases type <;> dsimp only at h
  case record r =>
    refine addsEach_addRecord ?_ h
    split <;> simp
  case sequence q =>
    obtain ⟨steps, hsteps, h⟩ := bind_eq_ok_iff.mp h
    exact addsEach_add (by simp) (fun _ => .sequence hsteps) h
  case map m =>
    obtain ⟨strategy, -, h⟩ := bind_eq_ok_iff.mp h
    obtain ⟨steps, hsteps, h⟩ := bind_eq_ok_iff.mp h
    exact addsEach_add (by simp) (fun _ => .map hsteps) h
  case enumeration e =>
    obtain ⟨steps, hsteps, h⟩ := bind_eq_ok_iff.mp h
    exact addsEach_add (by simp) (fun _ => .enumeration hsteps) h
  all_goals
    obtain rfl := Except.ok.inj h
    exact .nil t f

theorem addsEach_addTypes {ids : List TypeId}
    (h : ids.foldlM (fun f id => f.addType t id) f = .ok g) :
    AddsEach t f g (ids.filterMap fun id => (t.schema.type id).defined?) := by
  induction ids generalizing f with
  | nil =>
    obtain rfl := Except.ok.inj h
    exact .nil t f
  | cons id ids ih =>
    rw [List.foldlM_cons] at h
    obtain ⟨mid, hmid, h⟩ := bind_eq_ok_iff.mp h
    have hall := (addsEach_addType hmid).trans (ih h)
    rw [List.filterMap_cons]
    cases htype : (t.schema.type id).defined? <;> rwa [htype] at hall

theorem addsEach_addExceptions {rs : List RecordType}
    (h : rs.foldlM (fun f r => f.addRecord t .exception r none) f = .ok g) :
    AddsEach t f g (rs.map .record) := by
  induction rs generalizing f with
  | nil =>
    obtain rfl := Except.ok.inj h
    exact .nil t f
  | cons r rs ih =>
    rw [List.foldlM_cons] at h
    obtain ⟨mid, hmid, h⟩ := bind_eq_ok_iff.mp h
    exact (addsEach_addRecord (by simp) hmid).trans (ih h)

/-- The messages of operations have files. The spellings of operations differ, from each other and
from those that were taken. -/
theorem addsEach_addOperations {taken : Namespace} {ops : List Operation}
    (h : addOperations t f taken ops = .ok g) :
    AddsEach t f g ((ops.flatMap Operation.messages).map .record) ∧
      (taken.taken.Nodup → (ops.map (camel ·.name.name) ++ taken.taken).Nodup) := by
  induction ops generalizing f taken with
  | nil =>
    obtain rfl := Except.ok.inj h
    exact ⟨.nil t f, id⟩
  | cons op ops ih =>
    unfold addOperations at h
    obtain ⟨claimed, hclaimed, h⟩ := bind_eq_ok_iff.mp h
    obtain ⟨asked, hasked, h⟩ := bind_eq_ok_iff.mp h
    have hrequest := addsEach_addRecord (by simp) hasked
    have hresponse : ∃ answered, AddsEach t asked answered (op.response?.toList.map .record) ∧
        addOperations t answered claimed ops = .ok g := by
      cases hr : op.response? with
      | none =>
        rw [hr] at h
        exact ⟨asked, .nil t asked, h⟩
      | some r =>
        rw [hr] at h
        obtain ⟨answered, hanswered, h⟩ := bind_eq_ok_iff.mp h
        exact ⟨answered, addsEach_addRecord (by simp) hanswered, h⟩
    obtain ⟨answered, hresponse, h⟩ := hresponse
    obtain ⟨hrest, hspellings⟩ := ih h
    refine ⟨?_, fun hnodup => ?_⟩
    · rw [List.flatMap_cons, List.map_append]
      exact (hrequest.trans hresponse).trans hrest
    · have hall := hspellings (claim_nodup hclaimed hnodup)
      obtain ⟨-, rfl⟩ := Namespace.claim_eq_ok_iff.mp hclaimed
      exact (List.perm_middle.nodup_iff).mp hall

end Folder

namespace Target

variable {t : Target}

/-- The constants of a directory have a file of their own if there are any. -/
def HasConstantFile (name : QualifiedName) (constants : List Constant)
    (files : List SourceFile) : Prop :=
  (constants = [] ∧ files = []) ∨
    constants ≠ [] ∧
      ∃ steps, files = [⟨directory name ++ ["constants.rs"], .constants, name, steps⟩]

theorem hasConstantFile {name : QualifiedName} {constants : List Constant}
    {files : List SourceFile} (h : t.constantFiles name constants = .ok files) :
    HasConstantFile name constants files := by
  unfold constantFiles at h
  split at h
  · rename_i hempty
    exact .inl ⟨List.isEmpty_iff.mp hempty, (Except.ok.inj h).symm⟩
  · rename_i hsome
    obtain ⟨steps, -, h⟩ := bind_eq_ok_iff.mp h
    exact .inr ⟨by simpa using hsome, steps, (Except.ok.inj h).symm⟩

/-- The files of an interface: those of its folder, of its constants, and its own, which declares
them. -/
structure EmitsInterface (t : Target) (i : Interface) (files : List SourceFile)
    (added constants : List SourceFile) (folder : Folder) : Prop where
  files_eq : files = added ++ constants ++
    [⟨directory i.name ++ [indexFile], .interface, i.name, t.interfaceSteps i folder.children⟩]
  grows : Folder.Grows
    ⟨i.name, .reserving i.name (reservedStems i.constants),
      .reserving i.name [(t.requests i).ident, (t.responses i).ident, (t.exceptions i).ident], []⟩
    folder added
  typeFiles : List.Forall₂ (IsTypeFile t)
    ((i.operations.flatMap Operation.messages ++ t.exceptionRecords i).map .record) added
  constants_run : t.constantFiles i.name i.constants = .ok constants
  constants : HasConstantFile i.name i.constants constants
  operations_nodup : (i.operations.map (camel ·.name.name)).Nodup
  exceptions_nodup : ((t.exceptionRecords i).map (camel ·.name.name)).Nodup

theorem filterMap_definedName_records (rs : List RecordType) :
    (rs.map TypeDef.record).filterMap TypeDef.definedName? = rs.map (·.name) := by
  rw [List.filterMap_map]
  exact congrFun List.filterMap_eq_map rs

theorem EmitsInterface.names_eq {i : Interface} {files added constants : List SourceFile}
    {folder : Folder} (h : EmitsInterface t i files added constants folder) :
    added.map (·.name) =
      i.operations.flatMap Operation.messageNames ++ (t.exceptionRecords i).map (·.name) := by
  rw [map_name_of_typeFiles h.typeFiles, filterMap_definedName_records, List.map_append,
    List.map_flatMap]
  rfl

theorem emitsInterface {i : Interface} {files : List SourceFile}
    (h : t.interfaceFiles i = .ok files) :
    ∃ added constants folder, EmitsInterface t i files added constants folder := by
  unfold interfaceFiles at h
  obtain ⟨afterOperations, hoperations, h⟩ := bind_eq_ok_iff.mp h
  obtain ⟨folder, hexceptions, h⟩ := bind_eq_ok_iff.mp h
  obtain ⟨constants, hconstants, h⟩ := bind_eq_ok_iff.mp h
  obtain ⟨⟨messages, hcalls, hmessages⟩, hspellings⟩ := Folder.addsEach_addOperations hoperations
  obtain ⟨thrown, hthrown, hgrows⟩ := Folder.addsEach_addExceptions hexceptions
  have hall := hmessages.trans hgrows
  refine ⟨messages ++ thrown, constants, folder, ?_, hall, ?_, hconstants,
    hasConstantFile hconstants, ?_, ?_⟩
  · rw [← Except.ok.inj h, hall.files_eq, List.nil_append]
  · rw [List.map_append]
    exact List.rel_append hcalls hthrown
  · simpa [Namespace.fresh, Namespace.reserving] using
      hspellings (by simp [Namespace.fresh, Namespace.reserving])
  · -- The exceptions come last, so their spellings are the first that are taken.
    have hreserved : [(t.requests i).ident, (t.responses i).ident,
        (t.exceptions i).ident].Nodup := by
      simp [requests, responses, Target.exceptions]
    have htaken := hall.types_nodup hreserved
    rw [hgrows.types_eq] at htaken
    have hspelt : thrown.map Folder.typeOf = (t.exceptionRecords i).map (camel ·.name.name) := by
      have hmap := congrArg (List.map fun name : QualifiedName => camel name.name)
        (map_name_of_typeFiles hthrown)
      rw [filterMap_definedName_records, List.map_map, List.map_map] at hmap
      exact hmap
    rw [← hspelt]
    exact List.nodup_reverse.mp htaken.of_append_left

/-- The files of several declarations, each with the files of its own, and the stems they claim. -/
structure EmitsEach {α : Type} (emit : α → Except SchemaError (List SourceFile))
    (nameOf : α → QualifiedName) (items : List α) (taken taken' : Namespace)
    (parts : List (List SourceFile)) : Prop where
  parts : List.Forall₂ (fun a files => emit a = .ok files) items parts
  taken_eq : taken'.taken = (items.map fun a => stem (nameOf a).name).reverse ++ taken.taken
  taken_nodup : taken.taken.Nodup → taken'.taken.Nodup

theorem EmitsEach.nil {α : Type} {emit : α → Except SchemaError (List SourceFile)}
    {nameOf : α → QualifiedName} (taken : Namespace) : EmitsEach emit nameOf [] taken taken [] :=
  ⟨.nil, rfl, id⟩

theorem EmitsEach.cons {α : Type} {emit : α → Except SchemaError (List SourceFile)}
    {nameOf : α → QualifiedName} {a : α} {items : List α} {taken mid taken' : Namespace}
    {files : List SourceFile} {parts : List (List SourceFile)}
    (hclaim : taken.claim (stem (nameOf a).name) (nameOf a).name = .ok mid)
    (hfiles : emit a = .ok files) (h : EmitsEach emit nameOf items mid taken' parts) :
    EmitsEach emit nameOf (a :: items) taken taken' (files :: parts) := by
  refine ⟨.cons hfiles h.parts, ?_, fun hnodup => h.taken_nodup (claim_nodup hclaim hnodup)⟩
  obtain ⟨-, rfl⟩ := Namespace.claim_eq_ok_iff.mp hclaim
  rw [h.taken_eq]
  simp

theorem emitsEach_interfaces {taken : Namespace} {is : List Interface} {files : List SourceFile}
    (h : t.interfacesFiles taken is = .ok files) :
    ∃ taken' parts, EmitsEach t.interfaceFiles Interface.name is taken taken' parts ∧
      files = parts.flatten := by
  induction is generalizing taken files with
  | nil =>
    obtain rfl := Except.ok.inj h
    exact ⟨taken, [], .nil taken, rfl⟩
  | cons i is ih =>
    unfold interfacesFiles at h
    obtain ⟨mid, hclaim, h⟩ := bind_eq_ok_iff.mp h
    obtain ⟨first, hfirst, h⟩ := bind_eq_ok_iff.mp h
    obtain ⟨rest, hrest, h⟩ := bind_eq_ok_iff.mp h
    obtain rfl := Except.ok.inj h
    obtain ⟨taken', parts, heach, rfl⟩ := ih hrest
    exact ⟨taken', first :: parts, heach.cons hclaim hfirst, rfl⟩

theorem emitsEach_modules {taken taken' : Namespace} {ms : List Module} {files : List SourceFile}
    (h : t.modulesFiles taken ms = .ok (taken', files)) :
    ∃ parts, EmitsEach t.moduleFiles Module.name ms taken taken' parts ∧
      files = parts.flatten := by
  induction ms generalizing taken files with
  | nil =>
    unfold modulesFiles at h
    obtain ⟨rfl, rfl⟩ := Prod.mk.inj (Except.ok.inj h)
    exact ⟨[], .nil taken, rfl⟩
  | cons m ms ih =>
    unfold modulesFiles at h
    obtain ⟨mid, hclaim, h⟩ := bind_eq_ok_iff.mp h
    obtain ⟨first, hfirst, h⟩ := bind_eq_ok_iff.mp h
    obtain ⟨⟨final, rest⟩, hrest, h⟩ := bind_eq_ok_iff.mp h
    obtain ⟨rfl, rfl⟩ := Prod.mk.inj (Except.ok.inj h)
    obtain ⟨parts, heach, rfl⟩ := ih hrest
    exact ⟨first :: parts, heach.cons hclaim hfirst, rfl⟩

/-- The files of a module: those of its constants, of the modules in it, of its types and of its
interfaces, and its own, which declares them. -/
structure EmitsModule (t : Target) (m : Module) (files constants added : List SourceFile)
    (inner interfaces : List (List SourceFile)) (stems taken : Namespace) (folder : Folder) :
    Prop where
  files_eq : files = constants ++ inner.flatten ++ added ++ interfaces.flatten ++
    [⟨directory m.name ++ [indexFile], .module, m.name, moduleSteps m folder.children⟩]
  constants_run : t.constantFiles m.name m.constants = .ok constants
  constants : HasConstantFile m.name m.constants constants
  modules : EmitsEach t.moduleFiles Module.name m.modules
    (.reserving m.name (reservedStems m.constants)) stems inner
  grows : Folder.Grows ⟨m.name, stems, .fresh m.name, []⟩ folder added
  typeFiles : List.Forall₂ (IsTypeFile t)
    (m.types.filterMap fun id => (t.schema.type id).defined?) added
  interfaces : EmitsEach t.interfaceFiles Interface.name m.interfaces folder.stems taken interfaces

theorem EmitsModule.names_eq {m : Module} {files constants added : List SourceFile}
    {inner interfaces : List (List SourceFile)} {stems taken : Namespace} {folder : Folder}
    (h : EmitsModule t m files constants added inner interfaces stems taken folder) :
    added.map (·.name) = m.types.filterMap fun id => (t.schema.type id).definedName? := by
  rw [map_name_of_typeFiles h.typeFiles, List.filterMap_filterMap]
  refine List.filterMap_congr fun id _ => ?_
  cases t.schema.type id <;> rfl

theorem emitsModule {m : Module} {files : List SourceFile} (h : t.moduleFiles m = .ok files) :
    ∃ constants added inner interfaces stems taken folder,
      EmitsModule t m files constants added inner interfaces stems taken folder := by
  obtain ⟨name, modules, types, interfaces, constants⟩ := m
  unfold moduleFiles at h
  obtain ⟨constantFiles, hconstants, h⟩ := bind_eq_ok_iff.mp h
  obtain ⟨⟨stems, inner⟩, hmodules, h⟩ := bind_eq_ok_iff.mp h
  obtain ⟨folder, htypes, h⟩ := bind_eq_ok_iff.mp h
  obtain ⟨interfaceFiles, hinterfaces, h⟩ := bind_eq_ok_iff.mp h
  obtain ⟨innerParts, hinner, rfl⟩ := emitsEach_modules hmodules
  obtain ⟨added, hadded, hgrows⟩ := Folder.addsEach_addTypes htypes
  obtain ⟨taken, interfaceParts, heach, rfl⟩ := emitsEach_interfaces hinterfaces
  refine ⟨constantFiles, added, innerParts, interfaceParts, stems, taken, folder, ?_,
    hconstants, hasConstantFile hconstants, hinner, hgrows, hadded, heach⟩
  have hfiles : folder.files = added := hgrows.files_eq
  rw [← Except.ok.inj h, hfiles]

/-- The files that stand for interfaces are those of the given ones. -/
structure CoversInterfaces (t : Target) (is : List Interface) (files : List SourceFile) :
    Prop where
  complete : ∀ i ∈ is, ∃ own, t.interfaceFiles i = .ok own ∧ own ⊆ files
  sound : ∀ f ∈ files, f.kind = .interface → ∃ i ∈ is, ∃ own, t.interfaceFiles i = .ok own ∧ f ∈ own

theorem CoversInterfaces.append {is is' : List Interface} {files files' : List SourceFile}
    (h : t.CoversInterfaces is files) (h' : t.CoversInterfaces is' files') :
    t.CoversInterfaces (is ++ is') (files ++ files') := by
  constructor
  · intro i hi
    rcases List.mem_append.mp hi with hi | hi
    · obtain ⟨own, hown, hsub⟩ := h.complete i hi
      exact ⟨own, hown, List.subset_append_of_subset_left _ hsub⟩
    · obtain ⟨own, hown, hsub⟩ := h'.complete i hi
      exact ⟨own, hown, List.subset_append_of_subset_right _ hsub⟩
  · intro f hf hkind
    rcases List.mem_append.mp hf with hf | hf
    · obtain ⟨i, hi, own⟩ := h.sound f hf hkind
      exact ⟨i, List.mem_append_left _ hi, own⟩
    · obtain ⟨i, hi, own⟩ := h'.sound f hf hkind
      exact ⟨i, List.mem_append_right _ hi, own⟩

theorem CoversInterfaces.of_mem_iff {is : List Interface} {files files' : List SourceFile}
    (h : t.CoversInterfaces is files) (hmem : ∀ f, f ∈ files ↔ f ∈ files') :
    t.CoversInterfaces is files' := by
  constructor
  · intro i hi
    obtain ⟨own, hown, hsub⟩ := h.complete i hi
    exact ⟨own, hown, fun f hf => (hmem f).mp (hsub hf)⟩
  · intro f hf
    exact h.sound f ((hmem f).mpr hf)

theorem coversInterfaces_nil {files : List SourceFile} (h : ∀ f ∈ files, f.kind ≠ .interface) :
    t.CoversInterfaces [] files :=
  ⟨by simp, fun f hf hkind => absurd hkind (h f hf)⟩

theorem coversInterfaces_interfaces {is : List Interface} {parts : List (List SourceFile)}
    (h : List.Forall₂ (fun i files => t.interfaceFiles i = .ok files) is parts) :
    t.CoversInterfaces is parts.flatten := by
  induction h with
  | nil => exact coversInterfaces_nil (by simp)
  | @cons i own is parts hown _ ih =>
    have hone : t.CoversInterfaces [i] own := by
      constructor
      · intro j hj
        obtain rfl := List.mem_singleton.mp hj
        exact ⟨own, hown, List.Subset.refl own⟩
      · intro f hf _
        exact ⟨i, List.mem_singleton_self i, own, hown, hf⟩
    exact hone.append ih

theorem HasConstantFile.kind_ne {name : QualifiedName} {constants : List Constant}
    {files : List SourceFile} (h : HasConstantFile name constants files) :
    ∀ f ∈ files, f.kind ≠ .interface := by
  rcases h with ⟨-, rfl⟩ | ⟨-, steps, rfl⟩ <;> simp

mutual

theorem coversInterfaces_module : (m : Module) → (files : List SourceFile) →
    t.moduleFiles m = .ok files → t.CoversInterfaces m.allInterfaces files
  | ⟨name, modules, types, interfaces, constants⟩, files, h => by
    obtain ⟨constantFiles, added, inner, own, stems, taken, folder, hemits⟩ := emitsModule h
    have hmodules := coversInterfaces_modules modules inner hemits.modules.parts
    have hinterfaces := coversInterfaces_interfaces hemits.interfaces.parts
    have hrest : t.CoversInterfaces []
        (constantFiles ++ added ++
          [⟨directory name ++ [indexFile], .module, name, moduleSteps
            ⟨name, modules, types, interfaces, constants⟩ folder.children⟩]) := by
      apply coversInterfaces_nil
      intro f hf
      simp only [List.mem_append, List.mem_singleton] at hf
      rcases hf with (hf | hf) | rfl
      · exact hemits.constants.kind_ne f hf
      · exact (hemits.grows.kind_ne f hf).1
      · simp
    have hall := (hinterfaces.append hmodules).append hrest
    rw [List.append_nil] at hall
    refine hall.of_mem_iff fun f => ?_
    rw [hemits.files_eq]
    simp only [List.mem_append]
    tauto

theorem coversInterfaces_modules : (ms : List Module) → (parts : List (List SourceFile)) →
    List.Forall₂ (fun m files => t.moduleFiles m = .ok files) ms parts →
    t.CoversInterfaces (interfacesOf ms) parts.flatten
  | [], _, h => by
    cases h
    exact coversInterfaces_nil (by simp)
  | m :: ms, _, h => by
    cases h with
    | cons hfirst hrest =>
      exact (coversInterfaces_module m _ hfirst).append (coversInterfaces_modules ms _ hrest)

end

/-- A property that files of every kind have, by what is known of them when they are emitted. -/
structure HoldsOfFiles (t : Target) (P : SourceFile → Prop) : Prop where
  constants : ∀ {name : QualifiedName} {constants : List Constant} {files : List SourceFile},
    HasConstantFile name constants files → ∀ f ∈ files, P f
  types : ∀ {f g : Folder} {added : List SourceFile}, Folder.Grows f g added → ∀ x ∈ added, P x
  interfaceIndex : ∀ {i : Interface} {files added constants : List SourceFile} {folder : Folder},
    EmitsInterface t i files added constants folder →
    P ⟨directory i.name ++ [indexFile], .interface, i.name, t.interfaceSteps i folder.children⟩
  moduleIndex : ∀ {m : Module} {files constants added : List SourceFile}
    {inner interfaces : List (List SourceFile)} {stems taken : Namespace} {folder : Folder},
    EmitsModule t m files constants added inner interfaces stems taken folder →
    P ⟨directory m.name ++ [indexFile], .module, m.name, moduleSteps m folder.children⟩

/-- What holds of the files of each declaration holds of all files. -/
theorem forall_mem_flatten {α : Type} {emit : α → Except SchemaError (List SourceFile)}
    {items : List α} {parts : List (List SourceFile)} {P : SourceFile → Prop}
    (h : List.Forall₂ (fun a files => emit a = .ok files) items parts)
    (hall : ∀ a ∈ items, ∀ files, emit a = .ok files → ∀ f ∈ files, P f) :
    ∀ f ∈ parts.flatten, P f := by
  induction h with
  | nil => simp
  | cons hfiles _ ih =>
    rw [List.flatten_cons, List.forall_mem_append]
    exact ⟨hall _ List.mem_cons_self _ hfiles, ih fun a ha => hall a (.tail _ ha)⟩

namespace HoldsOfFiles

variable {P : SourceFile → Prop}

theorem interfaceFiles (hP : t.HoldsOfFiles P) {i : Interface} {files : List SourceFile}
    (h : t.interfaceFiles i = .ok files) : ∀ f ∈ files, P f := by
  obtain ⟨added, constants, folder, hemits⟩ := emitsInterface h
  have hindex := hP.interfaceIndex hemits
  rw [hemits.files_eq, List.forall_mem_append, List.forall_mem_append, List.forall_mem_singleton]
  exact ⟨⟨hP.types hemits.grows, hP.constants hemits.constants⟩, hindex⟩

mutual

theorem moduleFiles (hP : t.HoldsOfFiles P) : (m : Module) → (files : List SourceFile) →
    t.moduleFiles m = .ok files → ∀ f ∈ files, P f
  | ⟨name, modules, types, interfaces, constants⟩, files, h => by
    obtain ⟨constantFiles, added, inner, own, stems, taken, folder, hemits⟩ := emitsModule h
    have hinner := forall_mem_flatten hemits.modules.parts (modulesFiles hP modules)
    have hown := forall_mem_flatten hemits.interfaces.parts
      fun i _ files hfiles => hP.interfaceFiles hfiles
    have hindex := hP.moduleIndex hemits
    rw [hemits.files_eq, List.forall_mem_append, List.forall_mem_append, List.forall_mem_append,
      List.forall_mem_append, List.forall_mem_singleton]
    exact ⟨⟨⟨⟨hP.constants hemits.constants, hinner⟩, hP.types hemits.grows⟩, hown⟩, hindex⟩

theorem modulesFiles (hP : t.HoldsOfFiles P) : (ms : List Module) → ∀ m ∈ ms, ∀ files,
    t.moduleFiles m = .ok files → ∀ f ∈ files, P f
  | [] => by simp
  | first :: ms => by
    rw [List.forall_mem_cons]
    exact ⟨moduleFiles hP first, modulesFiles hP ms⟩

end

end HoldsOfFiles

end Target

/-- What was compiled is the tree of a schema, and it covers the schema's interfaces. -/
theorem exists_schema_of_compile {config : Config} {doc : Document} {files : List SourceFile}
    (h : compile config doc = .ok files) :
    ∃ s taken parts, Schema.build doc = .ok s ∧
      Target.EmitsEach (Target.moduleFiles ⟨s, config⟩) Module.name s.modules
        (.reserving .root ["mod"]) taken parts ∧
      files = parts.flatten ++ [⟨[indexFile], .module, .root, Target.rootSteps s.modules⟩] := by
  obtain ⟨s, hs, h⟩ := bind_eq_ok_iff.mp h
  unfold Target.files at h
  obtain ⟨⟨taken, inner⟩, hinner, h⟩ := bind_eq_ok_iff.mp h
  obtain ⟨parts, heach, rfl⟩ := Target.emitsEach_modules hinner
  exact ⟨s, taken, parts, hs, heach, (Except.ok.inj h).symm⟩

end Source
end WireSchema
