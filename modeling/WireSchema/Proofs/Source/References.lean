import WireSchema.Proofs.Source.Agreement
import WireSchema.Proofs.Source.Emission

/-!
# What emitted code refers to

The declaration of a type names the types of its members, of its elements, or of its keys and
values. Each is a type of the language or the path of a type of the document, and the paths of
defined types are those that the files refer to.
-/
namespace WireSchema

open Identifier Schema

/-- All defined types: those of the table, then the requests and responses. -/
def Schema.definedTypes (s : Schema) : List TypeDef :=
  s.types.toList.filterMap TypeDef.defined? ++
    s.interfaces.flatMap fun i => (i.operations.flatMap Operation.messages).map .record

def Schema.definedNames (s : Schema) : List QualifiedName :=
  s.types.toList.filterMap TypeDef.definedName? ++
    s.interfaces.flatMap fun i => i.operations.flatMap Operation.messageNames

theorem TypeDef.name?_of_definedName? {type : TypeDef} {name : QualifiedName}
    (h : type.definedName? = some name) : type.name? = some name := by
  cases type with
  | forward => cases h
  | _ => exact h

theorem TypeDef.defined?_eq_some_iff {type other : TypeDef} :
    type.defined? = some other ↔ type = other ∧ ∃ name, type.definedName? = some name := by
  rw [defined?, Option.map_eq_some_iff]
  exact ⟨fun ⟨name, hname, heq⟩ => ⟨heq, name, hname⟩, fun ⟨heq, name, hname⟩ => ⟨name, hname, heq⟩⟩

theorem Schema.exists_definedType {s : Schema} {name : QualifiedName} (h : name ∈ s.definedNames) :
    ∃ type ∈ s.definedTypes, type.definedName? = some name := by
  rcases List.mem_append.mp h with h | h
  · obtain ⟨type, htype, hname⟩ := List.mem_filterMap.mp h
    have hdefined := TypeDef.defined?_eq_some_iff.mpr ⟨rfl, name, hname⟩
    exact ⟨type, List.mem_append_left _ (List.mem_filterMap.mpr ⟨type, htype, hdefined⟩), hname⟩
  · obtain ⟨i, hi, h⟩ := List.mem_flatMap.mp h
    obtain ⟨op, hop, h⟩ := List.mem_flatMap.mp h
    obtain ⟨r, hr, rfl⟩ : ∃ r ∈ op.messages, r.name = name := List.mem_map.mp h
    refine ⟨.record r, List.mem_append_right _ (List.mem_flatMap.mpr ⟨i, hi, ?_⟩), rfl⟩
    exact List.mem_map_of_mem (List.mem_flatMap.mpr ⟨op, hop, hr⟩)

theorem Schema.mem_definedNames {s : Schema} {id : TypeId} {name : QualifiedName}
    (h : (s.type id).definedName? = some name) : name ∈ s.definedNames := by
  refine List.mem_append_left _ (List.mem_filterMap.mpr ⟨s.type id, ?_, h⟩)
  have hbound : id.index < s.types.size := by
    by_contra hout
    rw [Schema.type, Array.getD, dif_neg hout] at h
    cases h
  rw [Schema.type, Array.getD, dif_pos hbound]
  exact Array.getElem_mem_toList hbound

theorem Schema.mem_definedNames_of_message {s : Schema} {i : Interface} (hi : i ∈ s.interfaces)
    {op : Operation} (hop : op ∈ i.operations) {name : QualifiedName}
    (hname : name ∈ op.messageNames) : name ∈ s.definedNames :=
  List.mem_append_right _ (List.mem_flatMap.mpr ⟨i, hi, List.mem_flatMap.mpr ⟨op, hop, hname⟩⟩)

namespace Source

variable {t : Target}

def Strategy.path? : Strategy → Option String
  | .enumeration path => some path
  | .compound path => some path
  | _ => none

/-- The paths by which emitted code refers to defined types. -/
inductive Target.Refers (t : Target) : String → Prop
  /-- A member, element, key or value of a defined type. -/
  | strategy {id : TypeId} {strategy : Strategy} {path : String}
    (hdefined : ∀ name, t.schema.type id ≠ .forward name)
    (hstrategy : t.strategy id = .ok strategy) (hpath : strategy.path? = some path) : Refers t path
  /-- A variant of the messages or exceptions of an interface. -/
  | variant {i : Interface} {v : Variant} (hi : i ∈ t.schema.interfaces)
    (hv : v ∈ (t.requests i).variants ++ (t.responses i).variants ++ (t.exceptions i).variants) :
    Refers t v.path
  /-- The response with which a request is paired. -/
  | response {i : Interface} {op : Operation} {r : RecordType} (hi : i ∈ t.schema.interfaces)
    (hop : op ∈ i.operations) (hr : op.response? = some r) : Refers t (t.path r.name)

theorem definedName_of_strategy {id : TypeId} {strategy : Strategy} {path : String}
    (hdefined : ∀ name, t.schema.type id ≠ .forward name)
    (hstrategy : t.strategy id = .ok strategy) (hpath : strategy.path? = some path) :
    ∃ name, (t.schema.type id).definedName? = some name ∧ path = t.path name := by
  unfold Target.strategy at hstrategy
  generalize t.schema.type id = type at hdefined hstrategy ⊢
  cases type with
  | forward name => exact absurd rfl (hdefined name)
  | map m =>
    cases hpolicy : t.config.mapPolicy with
    | reject =>
      rw [hpolicy] at hstrategy
      cases hstrategy
    | codec =>
      rw [hpolicy] at hstrategy
      obtain rfl := Except.ok.inj hstrategy
      exact ⟨m.name, rfl, (Option.some.inj hpath).symm⟩
  | record r | sequence q | enumeration e =>
    obtain rfl := Except.ok.inj hstrategy
    exact ⟨_, rfl, (Option.some.inj hpath).symm⟩
  | _ =>
    obtain rfl := Except.ok.inj hstrategy
    cases hpath

/-- Whatever emitted code refers to is the path of a defined type. -/
theorem Target.Refers.exists_name {path : String} (h : t.Refers path) :
    ∃ name ∈ t.schema.definedNames, path = t.path name := by
  cases h with
  | strategy hdefined hstrategy hpath =>
    obtain ⟨name, hname, hpath⟩ := definedName_of_strategy hdefined hstrategy hpath
    exact ⟨name, Schema.mem_definedNames hname, hpath⟩
  | @variant i v hi hv =>
    rcases List.mem_append.mp hv with hv | hv
    · rcases List.mem_append.mp hv with hv | hv
      · obtain ⟨op, hop, rfl⟩ := List.mem_map.mp hv
        exact ⟨_, mem_definedNames_of_message hi hop List.mem_cons_self, rfl⟩
      · obtain ⟨op, hop, hv⟩ := List.mem_filterMap.mp hv
        obtain ⟨r, hr, rfl⟩ := Option.map_eq_some_iff.mp hv
        exact ⟨_, mem_definedNames_of_message hi hop (by simp [Operation.messageNames, hr]), rfl⟩
    · obtain ⟨r, hr, rfl⟩ := List.mem_map.mp hv
      obtain ⟨id, -, hr⟩ := List.mem_filterMap.mp hr
      have hdefined : (t.schema.type id).definedName? = some r.name := by
        split at hr
        · rename_i htype
          obtain rfl := Option.some.inj hr
          rw [htype]
          rfl
        · cases hr
      exact ⟨r.name, Schema.mem_definedNames hdefined, rfl⟩
  | @response i op r hi hop hr =>
    exact ⟨_, mem_definedNames_of_message hi hop (by simp [Operation.messageNames, hr]), rfl⟩

/-- How emitted code names the type of a value. -/
inductive Target.Spells (t : Target) (id : TypeId) : String → Prop
  | bool (h : t.schema.type id = .bool) : Spells t id "bool"
  | numeric {n : Numeric} (h : t.schema.type id = .numeric n) : Spells t id n.keyword
  | text {wide : Bool} (h : t.schema.type id = .text wide) : Spells t id "String"
  | blob (h : t.schema.type id = .blob) : Spells t id "Vec<u8>"
  | defined {name : QualifiedName} (h : (t.schema.type id).definedName? = some name)
    (hrefers : t.Refers (t.path name)) : Spells t id (t.path name)
  | forward {name : QualifiedName} (h : t.schema.type id = .forward name) :
    Spells t id (t.path name)

theorem Target.Spells.eq_path {id : TypeId} {text : String} {name : QualifiedName}
    (h : t.Spells id text) (hname : (t.schema.type id).definedName? = some name) :
    text = t.path name := by
  cases h with
  | defined h _ => rw [Option.some.inj (h.symm.trans hname)]
  | bool h | numeric h | text h | blob h | forward h =>
    rw [h] at hname
    cases hname

theorem spells_of_strategy {id : TypeId} {strategy : Strategy}
    (h : t.strategy id = .ok strategy) : t.Spells id strategy.typeText := by
  -- A strategy with a path has that path for its text.
  have hdefined : ∀ {path}, (∀ name, t.schema.type id ≠ .forward name) →
      strategy.path? = some path → t.Spells id path := by
    intro path hnot hpath
    have hrefers := Target.Refers.strategy hnot h hpath
    obtain ⟨name, hname, rfl⟩ := definedName_of_strategy hnot h hpath
    exact .defined hname hrefers
  unfold Target.strategy at h
  cases htype : t.schema.type id with
  | bool =>
    rw [htype] at h
    obtain rfl := Except.ok.inj h
    exact .bool htype
  | numeric n =>
    rw [htype] at h
    obtain rfl := Except.ok.inj h
    exact .numeric htype
  | text wide =>
    rw [htype] at h
    obtain rfl := Except.ok.inj h
    exact .text htype
  | blob =>
    rw [htype] at h
    obtain rfl := Except.ok.inj h
    exact .blob htype
  | forward name =>
    rw [htype] at h
    obtain rfl := Except.ok.inj h
    exact .forward htype
  | map m =>
    cases hpolicy : t.config.mapPolicy with
    | reject =>
      simp only [htype, hpolicy] at h
      cases h
    | codec =>
      simp only [htype, hpolicy] at h
      obtain rfl := Except.ok.inj h
      exact hdefined (by simp [htype]) rfl
  | record r | sequence q | enumeration e =>
    rw [htype] at h
    obtain rfl := Except.ok.inj h
    exact hdefined (by simp [htype]) rfl

/-- The item by which a file declares its type, with the types of what is in it. -/
inductive Target.DeclaresType (t : Target) : TypeDef → Step → Prop
  | record {r : RecordType} {items : List Step}
    (h : List.Forall₂ (fun m item => ∃ text, t.Spells m.type text ∧
      item = Step.line s!"pub {snake m.name}: {text},") r.members items) :
    DeclaresType t (.record r) (.block s!"pub struct {camel r.name.name}" items)
  | sequence {q : SequenceType} {item inner : String} (h : t.Spells q.element item)
    (hinner : inner = s!"Vec<{item}>") :
    DeclaresType t (.sequence q) (.line s!"pub struct {camel q.name.name}({inner});")
  | map {m : MapType} {key value inner : String} (hkey : t.Spells m.key key)
    (hvalue : t.Spells m.value value)
    (hinner : inner = s!"std::collections::BTreeMap<{key}, {value}>") :
    DeclaresType t (.map m) (.line s!"pub struct {camel m.name.name}({inner});")
  | enumeration (e : EnumType) :
    DeclaresType t (.enumeration e) (.block s!"pub enum {camel e.name.name}" (enumeratorLines e))

theorem IsTypeFile.declares {type : TypeDef} {f : SourceFile} (h : IsTypeFile t type f) :
    ∃ item ∈ f.steps, t.DeclaresType type item := by
  cases h with
  | @record _ _ r _ steps h =>
    obtain ⟨fields, hfields, h⟩ := bind_eq_ok_iff.mp h
    obtain rfl := Except.ok.inj h
    have hmembers := (Target.isFieldOf_of_fieldsFrom hfields).1
    refine ⟨.block s!"pub struct {camel r.name.name}" (fields.map fun f =>
      .line s!"pub {f.declaration},"), by simp, .record ?_⟩
    rw [List.forall₂_map_right_iff]
    refine hmembers.imp fun m f hf => ⟨_, spells_of_strategy hf.strategy, ?_⟩
    rw [← hf.ident]
    rfl
  | @sequence _ _ q steps h =>
    obtain ⟨element, helement, h⟩ := bind_eq_ok_iff.mp h
    obtain rfl := Except.ok.inj h
    refine ⟨_, ?_, .sequence (spells_of_strategy helement) rfl⟩
    simp
  | @map _ _ m steps h =>
    obtain ⟨key, hkey, h⟩ := bind_eq_ok_iff.mp h
    obtain ⟨value, hvalue, h⟩ := bind_eq_ok_iff.mp h
    obtain rfl := Except.ok.inj h
    refine ⟨_, ?_, .map (spells_of_strategy hkey) (spells_of_strategy hvalue) rfl⟩
    simp
  | @enumeration _ _ e steps h =>
    obtain ⟨-, -, h⟩ := bind_eq_ok_iff.mp h
    obtain rfl := Except.ok.inj h
    refine ⟨_, ?_, .enumeration e⟩
    simp

/-- The index of an interface has its messages and exceptions by their paths. -/
def Target.Gathers (t : Target) (i : Interface) (index : SourceFile) : Prop :=
  ∀ d ∈ [t.requests i, t.responses i, t.exceptions i],
    .block s!"pub enum {d.ident}" (d.variants.map fun v => .line s!"{v.ident}({v.path}),") ∈
      index.steps

theorem exists_gathers {i : Interface} {files : List SourceFile}
    (h : t.interfaceFiles i = .ok files) :
    ∃ index ∈ files, index.kind = .interface ∧ index.name = i.name ∧ t.Gathers i index := by
  obtain ⟨added, constants, folder, hemits⟩ := Target.emitsInterface h
  refine ⟨_, hemits.files_eq ▸ List.mem_append_right _ List.mem_cons_self, rfl, rfl, ?_⟩
  intro d hd
  simp only [List.mem_cons, List.not_mem_nil, or_false] at hd
  rcases hd with rfl | rfl | rfl
  · simp [Target.interfaceSteps, Target.requestSteps, DispatchEnum.declaration]
  · simp [Target.interfaceSteps, Target.responseSteps, DispatchEnum.declaration]
  · simp [Target.interfaceSteps, Target.exceptionSteps, DispatchEnum.declaration]

end Source
end WireSchema
