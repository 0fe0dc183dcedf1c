import WireSchema.Proofs.Schema.TypeRules
import WireSchema.Proofs.Schema.Listing
import WireSchema.Proofs.Source.Emission

/-!
# Refusing maps

The policy for maps is looked at where the strategy of a map is asked for, and nowhere else. So a
document is emitted alike under both policies unless the refusing one comes to a map. It comes to
every map that is declared, since each is listed by its module and has a file of its own.
-/
namespace WireSchema

namespace Document

def TypeBody.isMap : TypeBody → Bool
  | .map _ _ => true
  | _ => false

mutual

def Module.declaresMap : Module → Bool
  | ⟨_, modules, types, _, _⟩ => types.any (·.body.isMap) || mapDeclaredIn modules

def mapDeclaredIn : List Module → Bool
  | [] => false
  | m :: modules => m.declaresMap || mapDeclaredIn modules

end

def declaresMap (doc : Document) : Bool := mapDeclaredIn doc.modules

def Entry.isMap (e : Entry) : Bool := e.declaration?.any (·.body.isMap)

theorem any_isMap_interface (scope : QualifiedName) (i : Interface) :
    (i.entries scope).any (·.isMap) = false := by
  rw [List.any_eq_false]
  intro e he
  rcases List.mem_cons.mp he with rfl | he
  · exact Bool.false_ne_true
  · obtain ⟨x, -, rfl⟩ := List.mem_map.mp he
    exact Bool.false_ne_true

mutual

theorem Module.any_isMap_entries (name : QualifiedName) (m : Module) :
    (m.entries name).any (·.isMap) = m.declaresMap := by
  obtain ⟨own, modules, types, interfaces, constants⟩ := m
  have hinterfaces : (interfaces.flatMap (·.entries name)).any (·.isMap) = false := by
    rw [List.any_flatMap]
    exact List.any_eq_false.mpr fun i _ => by rw [any_isMap_interface]; exact Bool.false_ne_true
  rw [Module.entries, Module.declaresMap, List.any_append, List.any_append, hinterfaces,
    Bool.or_false, any_isMap_entriesOf name modules, List.any_map]
  rfl

theorem any_isMap_entriesOf (scope : QualifiedName) (modules : List Module) :
    (entriesOf scope modules).any (·.isMap) = mapDeclaredIn modules := by
  cases modules with
  | nil => rw [entriesOf, mapDeclaredIn, List.any_nil]
  | cons m modules =>
    rw [entriesOf, mapDeclaredIn, List.any_append, m.any_isMap_entries,
      any_isMap_entriesOf scope modules]

end

theorem declaresMap_iff {doc : Document} :
    doc.declaresMap ↔ ∃ name key value, ⟨name, .map key value⟩ ∈ doc.declarations := by
  unfold declaresMap declarations entries
  rw [← any_isMap_entriesOf .root, List.any_eq_true]
  constructor
  · rintro ⟨e, he, hmap⟩
    obtain ⟨⟨name, body⟩, hx, hbody⟩ := (Option.any_eq_true _ _).mp hmap
    cases body with
    | map key value => exact ⟨name, key, value, List.mem_filterMap.mpr ⟨e, he, hx⟩⟩
    | _ => cases hbody
  · rintro ⟨name, key, value, hx⟩
    obtain ⟨e, he, hx⟩ := List.mem_filterMap.mp hx
    exact ⟨e, he, (Option.any_eq_true _ _).mpr ⟨_, hx, rfl⟩⟩

end Document

namespace Schema

open Document (Declaration)

variable {doc : Document} {s : Schema}

theorem declared_of_map (h : build doc = .ok s) {id : TypeId} {m : MapType}
    (hm : s.type id = .map m) : ∃ key value, ⟨m.name, .map key value⟩ ∈ doc.declarations := by
  obtain ⟨declared, last, hcompletes, htypes⟩ := completes_of_build h
  obtain ⟨key, value, _, _, hdeclared, -⟩ := hcompletes.typeRules.keys (m := m) (i := id.index)
    (htypes ▸ getElem?_of_type hm (by simp))
  exact ⟨key, value, hdeclared⟩

theorem listed_of_declared (h : build doc = .ok s) {name : QualifiedName} {key value : String}
    (hx : ⟨name, .map key value⟩ ∈ doc.declarations) :
    ∃ m ∈ modulesOf s.modules, ∃ id ∈ m.types, ∃ q, s.type id = .map q := by
  obtain ⟨declared, last, hcompletes, htypes⟩ := completes_of_build h
  obtain ⟨look, hlook⟩ := hcompletes.ready.sound.exists_fits
  obtain ⟨id, type, -, hplaced, hslot⟩ :=
    (hcompletes.shows look hlook name.text).exists_type hx ⟨nofun, fun _ => nofun⟩
  rw [← htypes] at hslot
  obtain ⟨q, rfl, hname⟩ : ∃ q, type = .map q ∧ q.name = name :=
    ⟨_, (Option.some.inj hplaced).symm, rfl⟩
  have htype : s.type id = .map q := by
    unfold Schema.type
    rw [Array.getD_eq_getD_getElem?, hslot, Option.getD_some]
  rcases (orderly_of_build h).listed hslot rfl with ⟨m, hm, -, hid⟩ | ⟨i, hi, -, hid⟩
  · exact ⟨m, hm, id, hid, q, htype⟩
  · -- The exceptions of an interface are records.
    obtain ⟨decl, -, hbuilt⟩ := exists_of_mem_right (interfaces_of_build h).1 hi
    obtain ⟨e, -, r, hr⟩ := exists_of_mem_right hbuilt.exceptions hid
    cases hslot.symm.trans hr.type_eq

end Schema

namespace Source

open Identifier Schema

variable {α β : Type} {s : Schema}

/-- Two emissions of a schema that are the same, except that the first one may refuse a map. -/
def Narrows (s : Schema) (x x' : Except SchemaError α) : Prop :=
  x = x' ∨ ∃ id m, s.type id = .map m ∧ x = .error (.unsupportedMap m.name.text)

theorem Narrows.bind {x x' : Except SchemaError α} {f f' : α → Except SchemaError β}
    (hx : Narrows s x x') (hf : ∀ a, Narrows s (f a) (f' a)) : Narrows s (x >>= f) (x' >>= f') := by
  rcases hx with rfl | ⟨id, m, hm, rfl⟩
  · cases x with
    | error e => exact .inl rfl
    | ok a => exact hf a
  · exact .inr ⟨id, m, hm, rfl⟩

theorem narrows_foldlM {f f' : β → α → Except SchemaError β}
    (h : ∀ b a, Narrows s (f b a) (f' b a)) (as : List α) (b : β) :
    Narrows s (as.foldlM f b) (as.foldlM f' b) := by
  induction as generalizing b with
  | nil => exact .inl rfl
  | cons a as ih =>
    rw [List.foldlM_cons, List.foldlM_cons]
    exact (h b a).bind ih

namespace Target

variable (t : Target)

/-- The target with another policy for maps. -/
def under (policy : MapPolicy) : Target :=
  { t with config := { t.config with mapPolicy := policy } }

theorem schema_under (policy : MapPolicy) : (t.under policy).schema = t.schema := rfl

theorem narrows_strategy (id : TypeId) :
    Narrows t.schema ((t.under .reject).strategy id) ((t.under .codec).strategy id) := by
  unfold strategy
  rw [schema_under, schema_under]
  cases hm : t.schema.type id with
  | map m => exact .inr ⟨id, m, hm, rfl⟩
  | _ => exact .inl rfl

theorem narrows_fieldsFrom (taken : Namespace) (members : List Member) :
    Narrows t.schema ((t.under .reject).fieldsFrom taken members)
      ((t.under .codec).fieldsFrom taken members) := by
  induction members generalizing taken with
  | nil => exact .inl rfl
  | cons m members ih =>
    unfold fieldsFrom
    refine Narrows.bind (.inl rfl) fun taken => ?_
    refine (t.narrows_strategy m.type).bind fun strategy => ?_
    exact (ih taken).bind fun _ => .inl rfl

theorem narrows_recordSteps (r : RecordType) (response? : Option RecordType) :
    Narrows t.schema ((t.under .reject).recordSteps r response?)
      ((t.under .codec).recordSteps r response?) :=
  (t.narrows_fieldsFrom _ r.members).bind fun _ => .inl rfl

theorem narrows_sequenceSteps (q : SequenceType) :
    Narrows t.schema ((t.under .reject).sequenceSteps q) ((t.under .codec).sequenceSteps q) :=
  (t.narrows_strategy q.element).bind fun _ => .inl rfl

theorem narrows_mapSteps (m : MapType) :
    Narrows t.schema ((t.under .reject).mapSteps m) ((t.under .codec).mapSteps m) :=
  (t.narrows_strategy m.key).bind fun _ => (t.narrows_strategy m.value).bind fun _ => .inl rfl

theorem narrows_constantLines (taken : Namespace) (constants : List Constant) :
    Narrows t.schema ((t.under .reject).constantLines taken constants)
      ((t.under .codec).constantLines taken constants) := by
  induction constants generalizing taken with
  | nil => exact .inl rfl
  | cons c constants ih =>
    unfold constantLines
    refine Narrows.bind (.inl rfl) fun taken => ?_
    refine Narrows.bind ?_ fun step => (ih taken).bind fun _ => .inl rfl
    exact (t.narrows_strategy c.type).bind fun _ => .inl rfl

theorem narrows_constantFiles (scope : QualifiedName) (constants : List Constant) :
    Narrows t.schema ((t.under .reject).constantFiles scope constants)
      ((t.under .codec).constantFiles scope constants) := by
  unfold constantFiles
  split
  · exact .inl rfl
  · refine Narrows.bind ?_ fun _ => .inl rfl
    exact (t.narrows_constantLines _ constants).bind fun _ => .inl rfl

end Target

namespace Folder

variable (t : Target) (f : Folder)

theorem narrows_addRecord (kind : FileKind) (r : RecordType) (response? : Option RecordType) :
    Narrows t.schema (f.addRecord (t.under .reject) kind r response?)
      (f.addRecord (t.under .codec) kind r response?) :=
  (t.narrows_recordSteps r response?).bind fun _ => .inl rfl

theorem narrows_addType (id : TypeId) :
    Narrows t.schema (f.addType (t.under .reject) id) (f.addType (t.under .codec) id) := by
  unfold addType
  rw [Target.schema_under, Target.schema_under]
  cases t.schema.type id with
  | record r => exact f.narrows_addRecord t _ r none
  | sequence q => exact (t.narrows_sequenceSteps q).bind fun _ => .inl rfl
  | map m =>
    refine (t.narrows_strategy id).bind fun _ => ?_
    exact (t.narrows_mapSteps m).bind fun _ => .inl rfl
  | _ => exact .inl rfl

theorem narrows_addOperations (taken : Namespace) (operations : List Operation) :
    Narrows t.schema (addOperations (t.under .reject) f taken operations)
      (addOperations (t.under .codec) f taken operations) := by
  induction operations generalizing f taken with
  | nil => exact .inl rfl
  | cons op operations ih =>
    unfold addOperations
    refine Narrows.bind (.inl rfl) fun taken => ?_
    refine (f.narrows_addRecord t .request op.request op.response?).bind fun f => ?_
    cases op.response? with
    | some r => exact (f.narrows_addRecord t .response r none).bind fun f => ih f taken
    | none => exact ih f taken

end Folder

namespace Target

variable (t : Target)

theorem narrows_interfaceFiles (i : Interface) :
    Narrows t.schema ((t.under .reject).interfaceFiles i) ((t.under .codec).interfaceFiles i) := by
  refine (Folder.narrows_addOperations t _ _ i.operations).bind fun folder => ?_
  refine (narrows_foldlM (fun f r => f.narrows_addRecord t .exception r none) _ folder).bind
    fun folder => ?_
  exact (t.narrows_constantFiles i.name i.constants).bind fun _ => .inl rfl

theorem narrows_interfacesFiles (taken : Namespace) (interfaces : List Interface) :
    Narrows t.schema ((t.under .reject).interfacesFiles taken interfaces)
      ((t.under .codec).interfacesFiles taken interfaces) := by
  induction interfaces generalizing taken with
  | nil => exact .inl rfl
  | cons i interfaces ih =>
    unfold interfacesFiles
    refine Narrows.bind (.inl rfl) fun taken => ?_
    exact (t.narrows_interfaceFiles i).bind fun _ => (ih taken).bind fun _ => .inl rfl

mutual

theorem narrows_moduleFiles (m : Module) :
    Narrows t.schema ((t.under .reject).moduleFiles m) ((t.under .codec).moduleFiles m) := by
  obtain ⟨name, modules, types, interfaces, constants⟩ := m
  unfold moduleFiles
  refine (t.narrows_constantFiles name constants).bind fun _ => ?_
  refine (narrows_modulesFiles _ modules).bind fun stems => ?_
  refine (narrows_foldlM (fun f id => f.narrows_addType t id) types _).bind fun folder => ?_
  exact (t.narrows_interfacesFiles folder.stems interfaces).bind fun _ => .inl rfl

theorem narrows_modulesFiles (taken : Namespace) (modules : List Module) :
    Narrows t.schema ((t.under .reject).modulesFiles taken modules)
      ((t.under .codec).modulesFiles taken modules) := by
  cases modules with
  | nil =>
    unfold modulesFiles
    exact .inl rfl
  | cons m modules =>
    unfold modulesFiles
    refine Narrows.bind (.inl rfl) fun taken => ?_
    refine (narrows_moduleFiles m).bind fun _ => ?_
    exact (narrows_modulesFiles taken modules).bind fun _ => .inl rfl

end

theorem narrows_files : Narrows t.schema (t.under .reject).files (t.under .codec).files :=
  (t.narrows_modulesFiles _ t.schema.modules).bind fun _ => .inl rfl

variable {t}

theorem not_map_of_addType {f g : Folder} {id : TypeId} (h : f.addType (t.under .reject) id = .ok g)
    (m : MapType) : t.schema.type id ≠ .map m := by
  intro hm
  unfold Folder.addType at h
  rw [schema_under, hm] at h
  obtain ⟨strategy, hstrategy, -⟩ := bind_eq_ok_iff.mp h
  unfold Target.strategy at hstrategy
  rw [schema_under, hm] at hstrategy
  cases hstrategy

theorem not_map_of_addTypes {f g : Folder} {ids : List TypeId}
    (h : ids.foldlM (fun f id => f.addType (t.under .reject) id) f = .ok g) :
    ∀ id ∈ ids, ∀ m, t.schema.type id ≠ .map m := by
  induction ids generalizing f with
  | nil => simp
  | cons id ids ih =>
    rw [List.foldlM_cons] at h
    obtain ⟨mid, hmid, h⟩ := bind_eq_ok_iff.mp h
    exact List.forall_mem_cons.mpr ⟨not_map_of_addType hmid, ih h⟩

mutual

/-- A module that is emitted while maps are refused lists none, and neither do the modules in it. -/
theorem not_map_of_moduleFiles : (m : Module) → (files : List SourceFile) →
    (t.under .reject).moduleFiles m = .ok files →
    ∀ m' ∈ m.allModules, ∀ id ∈ m'.types, ∀ q, t.schema.type id ≠ .map q
  | ⟨name, modules, types, interfaces, constants⟩, files, h => by
    unfold moduleFiles at h
    obtain ⟨_, -, h⟩ := bind_eq_ok_iff.mp h
    obtain ⟨⟨stems, inner⟩, hmodules, h⟩ := bind_eq_ok_iff.mp h
    obtain ⟨folder, htypes, -⟩ := bind_eq_ok_iff.mp h
    obtain ⟨parts, heach, -⟩ := emitsEach_modules hmodules
    rw [Module.allModules]
    exact List.forall_mem_cons.mpr ⟨not_map_of_addTypes htypes,
      not_map_of_modulesFiles modules parts heach.parts⟩

theorem not_map_of_modulesFiles : (ms : List Module) → (parts : List (List SourceFile)) →
    List.Forall₂ (fun m files => (t.under .reject).moduleFiles m = .ok files) ms parts →
    ∀ m' ∈ modulesOf ms, ∀ id ∈ m'.types, ∀ q, t.schema.type id ≠ .map q
  | [], _, _ => by
    rw [modulesOf]
    simp
  | m :: ms, _, h => by
    cases h with
    | cons hfirst hrest =>
      rw [modulesOf]
      exact List.forall_mem_append.mpr ⟨not_map_of_moduleFiles m _ hfirst,
        not_map_of_modulesFiles ms _ hrest⟩

end

end Target

theorem compile_of_build {doc : Document} {s : Schema} (config : Config)
    (h : Schema.build doc = .ok s) : compile config doc = Target.files ⟨s, config⟩ := by
  unfold compile
  rw [h]
  rfl

theorem compile_of_build_eq_error {doc : Document} {e : SchemaError} (config : Config)
    (h : Schema.build doc = .error e) : compile config doc = .error e := by
  unfold compile
  rw [h]
  rfl

/-- The refusing policy changes nothing, or it refuses a map that is declared. -/
theorem compile_reject_cases (config : Config) (doc : Document) :
    compile { config with mapPolicy := .reject } doc =
        compile { config with mapPolicy := .codec } doc ∨
      ∃ name key value, ⟨name, .map key value⟩ ∈ doc.declarations ∧
        compile { config with mapPolicy := .reject } doc = .error (.unsupportedMap name.text) := by
  cases hs : Schema.build doc with
  | error e => exact .inl (by rw [compile_of_build_eq_error _ hs, compile_of_build_eq_error _ hs])
  | ok s =>
    rw [compile_of_build _ hs, compile_of_build _ hs]
    rcases Target.narrows_files ⟨s, config⟩ with hsame | ⟨id, m, hm, hrefused⟩
    · exact .inl hsame
    · obtain ⟨key, value, hx⟩ := declared_of_map hs hm
      exact .inr ⟨m.name, key, value, hx, hrefused⟩

theorem declaresMap_eq_false_of_compile {config : Config} {doc : Document}
    {files : List SourceFile} (h : compile { config with mapPolicy := .reject } doc = .ok files) :
    doc.declaresMap = false := by
  obtain ⟨s, taken, parts, hs, heach, -⟩ := exists_schema_of_compile h
  by_contra hmap
  obtain ⟨name, key, value, hx⟩ := Document.declaresMap_iff.mp (by simpa using hmap)
  obtain ⟨m, hm, id, hid, q, hq⟩ := listed_of_declared hs hx
  exact Target.not_map_of_modulesFiles (t := ⟨s, config⟩) s.modules parts heach.parts m hm id hid q
    hq

/-- Refusing maps makes a difference to documents that declare one, and to no others. A document is
emitted by the refusing policy exactly if it is emitted by the other one and declares no map, in the
same files. Otherwise the error is the same one, or it names a map that is declared. -/
theorem compile_refusing_maps (config : Config) (doc : Document) :
    ((∃ files, compile { config with mapPolicy := .reject } doc = .ok files) ↔
      (∃ files, compile { config with mapPolicy := .codec } doc = .ok files) ∧
        doc.declaresMap = false) ∧
    (∀ files, compile { config with mapPolicy := .reject } doc = .ok files →
      compile { config with mapPolicy := .codec } doc = .ok files) ∧
    ∀ e, compile { config with mapPolicy := .reject } doc = .error e →
      compile { config with mapPolicy := .codec } doc = .error e ∨
        ∃ name key value, ⟨name, .map key value⟩ ∈ doc.declarations ∧
          e = .unsupportedMap name.text := by
  have hcases := compile_reject_cases config doc
  have hkept : ∀ files, compile { config with mapPolicy := .reject } doc = .ok files →
      compile { config with mapPolicy := .codec } doc = .ok files := by
    intro files hfiles
    rcases hcases with hsame | ⟨_, _, _, -, hrefused⟩
    · rw [← hsame, hfiles]
    · cases hfiles.symm.trans hrefused
  refine ⟨⟨?_, ?_⟩, hkept, ?_⟩
  · rintro ⟨files, hfiles⟩
    exact ⟨⟨files, hkept files hfiles⟩, declaresMap_eq_false_of_compile hfiles⟩
  · rintro ⟨⟨files, hfiles⟩, hnone⟩
    rcases hcases with hsame | ⟨name, key, value, hx, -⟩
    · exact ⟨files, hsame.trans hfiles⟩
    · have hmap := Document.declaresMap_iff.mpr ⟨name, key, value, hx⟩
      rw [hnone] at hmap
      cases hmap
  · intro e he
    rcases hcases with hsame | ⟨name, key, value, hx, hrefused⟩
    · exact .inl (hsame.symm.trans he)
    · exact .inr ⟨name, key, value, hx, Except.error.inj (he.symm.trans hrefused)⟩

end Source
end WireSchema
