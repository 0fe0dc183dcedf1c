import WireSchema.Proofs.Schema.Integrity
import WireSchema.Proofs.Schema.Waiting

/-!
# Types are listed where they are declared

A type in the table of a built schema has the name of a declaration, and the module or the interface
with that declaration lists the place of the type. Types that are only declared are listed as well.
-/
namespace WireSchema.Schema

variable {d d' : Draft} {P : QualifiedName → Prop}

mutual

def Module.allModules : Module → List Module
  | ⟨name, modules, types, interfaces, constants⟩ =>
    ⟨name, modules, types, interfaces, constants⟩ :: modulesOf modules

def modulesOf : List Module → List Module
  | [] => []
  | m :: modules => m.allModules ++ modulesOf modules

end

/-- A module or an interface lists a place. It is the one in which the name is declared. -/
def Listed (ms : List Module) (is : List Interface) (id : TypeId) (name : QualifiedName) : Prop :=
  (∃ m ∈ ms, m.name = name.scope ∧ id ∈ m.types) ∨
    ∃ i ∈ is, i.name = name.scope ∧ id ∈ i.exceptions

theorem Listed.mono {ms ms' : List Module} {is is' : List Interface} {id : TypeId}
    {name : QualifiedName} (h : Listed ms is id name) (hms : ms ⊆ ms') (his : is ⊆ is') :
    Listed ms' is' id name := by
  rcases h with ⟨m, hm, hlists⟩ | ⟨i, hi, hlists⟩
  · exact .inl ⟨m, hms hm, hlists⟩
  · exact .inr ⟨i, his hi, hlists⟩

/-- What one round of a loop adds stays if every round keeps what is there. -/
theorem mem_foldl_of_mem {α β : Type} {f : List β → α → List β} {b : β} {a : α}
    (hkeeps : ∀ bs a', bs ⊆ f bs a') (hadds : ∀ bs, b ∈ f bs a) {as : List α} (ha : a ∈ as)
    (bs : List β) : b ∈ as.foldl f bs := by
  have hstays : ∀ (as : List α) (bs : List β), bs ⊆ as.foldl f bs := by
    intro as
    induction as with
    | nil => exact List.Subset.refl
    | cons a' as ih => exact fun bs => List.Subset.trans (hkeeps bs a') (ih (f bs a'))
  induction as generalizing bs with
  | nil => cases ha
  | cons first as ih =>
    rcases List.mem_cons.mp ha with rfl | ha
    · exact hstays as _ (hadds bs)
    · exact ih ha (f bs first)

theorem mem_declaredTypes {scope : QualifiedName} {names : List String} {own : String}
    {id : TypeId} (hown : own ∈ names)
    (hid : d.names.lookup (scope.child own).text = some (.type id)) :
    id ∈ declaredTypes d scope names := by
  unfold declaredTypes
  refine mem_foldl_of_mem ?_ ?_ hown []
  · intro ids name
    split
    · split
      · exact List.Subset.refl ids
      · exact List.subset_append_left ids _
    · exact List.Subset.refl ids
  · intro ids
    rw [hid]
    dsimp only
    split
    · assumption
    · exact List.mem_append_right _ (List.mem_singleton_self id)

theorem exceptions_assembleInterface {scope : QualifiedName} {decl : Document.Interface}
    {i : Interface} (hd : d.Sound) (h : assembleInterface scope decl d = .ok (i, d')) :
    i.exceptions =
      declaredExceptions d (scope.child decl.name) (decl.exceptions.map (·.name)) := by
  unfold assembleInterface at h
  obtain ⟨uid, mid, huid, h⟩ := Build.bind_eq_ok_iff.mp h
  obtain ⟨-, rfl⟩ := Build.lift_eq_ok_iff.mp huid
  rw [Build.get_bind] at h
  cases hother : d.interfaceUids.lookup uid with
  | some other =>
    rw [hother] at h
    cases h
  | none =>
    rw [hother] at h
    obtain ⟨_, numbered, hnumbered, h⟩ := Build.bind_eq_ok_iff.mp h
    obtain rfl := Build.modify_eq_ok_iff.mp hnumbered
    obtain ⟨operations, mid, hoperations, h⟩ := Build.bind_eq_ok_iff.mp h
    rw [Build.get_bind] at h
    obtain ⟨constants, last, -, h⟩ := Build.bind_eq_ok_iff.mp h
    obtain ⟨rfl, rfl⟩ := Build.pure_eq_ok_iff.mp h
    have hsound := (hd.step (.number d ((uid, (scope.child decl.name).text) :: d.interfaceUids))).1
    have hnames := (hsound.reaches (leads_assembleOperations hsound hoperations).reaches).2.names_eq
    unfold declaredExceptions
    rw [hnames]

theorem lists_assembleInterfaces {scope : QualifiedName} {decls : List Document.Interface}
    {is : List Interface} (hd : d.Sound)
    (h : decls.mapM (assembleInterface scope) d = .ok (is, d')) {decl : Document.Interface}
    (hdecl : decl ∈ decls) {e : Document.Exception} (he : e ∈ decl.exceptions) {id : TypeId}
    (hid : d.names.lookup ((scope.child decl.name).child e.name).text = some (.type id)) :
    Listed [] is id ((scope.child decl.name).child e.name) := by
  induction decls generalizing is d with
  | nil => cases hdecl
  | cons first decls ih =>
    obtain ⟨i, mid, rest, hi, hrest, rfl⟩ := Build.mapM_cons_eq_ok_iff.mp h
    obtain ⟨hleads, hname⟩ := leads_assembleInterface hd hi
    obtain ⟨hmid, hext⟩ := hd.reaches hleads.reaches
    rcases List.mem_cons.mp hdecl with rfl | hdecl
    · right
      refine ⟨i, List.mem_cons_self, by rw [hname, QualifiedName.child_scope], ?_⟩
      rw [exceptions_assembleInterface hd hi, declaredExceptions, List.mem_filterMap]
      refine ⟨e.name, List.mem_map_of_mem he, ?_⟩
      rw [hid]
    · rw [← hext.names_eq] at hid
      exact (ih hmid hrest hdecl hid).mono (List.Subset.refl _) (List.subset_cons_self i rest)

mutual

theorem lists_assembleModule {scope : QualifiedName} {decl : Document.Module} {m : Module}
    {d d' : Draft} (hd : d.Sound) (h : assembleModule scope decl d = .ok (m, d'))
    {name : QualifiedName} (hname : name ∈ decl.typeNames scope) {id : TypeId}
    (hid : d.names.lookup name.text = some (.type id)) :
    Listed m.allModules m.allInterfaces id name := by
  obtain ⟨own, modules, types, decls, constants⟩ := decl
  rw [assembleModule, Build.get_bind] at h
  obtain ⟨cs, mid, hcs, h⟩ := Build.bind_eq_ok_iff.mp h
  obtain ⟨is, mid', his, h⟩ := Build.bind_eq_ok_iff.mp h
  obtain ⟨ms, last, hms, h⟩ := Build.bind_eq_ok_iff.mp h
  obtain ⟨rfl, rfl⟩ := Build.pure_eq_ok_iff.mp h
  obtain ⟨hmid, hext⟩ := hd.reaches (leads_assembleConstants hd hcs).reaches
  obtain ⟨hmid', hext'⟩ := hmid.reaches (leads_assembleInterfaces hmid his).1.reaches
  rw [Document.Module.typeNames, List.mem_append, List.mem_append] at hname
  rw [Module.allModules, Module.allInterfaces]
  rcases hname with (hname | hname) | hname
  · obtain ⟨decl, hdecl, rfl⟩ := List.mem_map.mp hname
    refine .inl ⟨_, List.mem_cons_self, (QualifiedName.child_scope _ _).symm, ?_⟩
    exact mem_declaredTypes (List.mem_map_of_mem hdecl) hid
  · obtain ⟨decl, hdecl, hname⟩ := List.mem_flatMap.mp hname
    obtain ⟨e, he, rfl⟩ := List.mem_map.mp hname
    rw [← hext.names_eq] at hid
    exact (lists_assembleInterfaces hmid his hdecl he hid).mono (List.nil_subset _)
      (List.subset_append_left _ _)
  · rw [← (hext.trans hext').names_eq] at hid
    exact (lists_assembleModules hmid' hms hname hid).mono (List.subset_cons_self _ _)
      (List.subset_append_right _ _)

/-- The place of a declared name is listed by what the name is declared in. -/
theorem lists_assembleModules {scope : QualifiedName} {decls : List Document.Module}
    {ms : List Module} {d d' : Draft} (hd : d.Sound)
    (h : assembleModules scope decls d = .ok (ms, d')) {name : QualifiedName}
    (hname : name ∈ Document.typeNamesOf scope decls) {id : TypeId}
    (hid : d.names.lookup name.text = some (.type id)) :
    Listed (modulesOf ms) (interfacesOf ms) id name := by
  cases decls with
  | nil => cases hname
  | cons decl decls =>
    rw [assembleModules] at h
    obtain ⟨m, mid, hm, h⟩ := Build.bind_eq_ok_iff.mp h
    obtain ⟨rest, last, hrest, h⟩ := Build.bind_eq_ok_iff.mp h
    obtain ⟨rfl, rfl⟩ := Build.pure_eq_ok_iff.mp h
    obtain ⟨hmid, hext⟩ := hd.reaches (leads_assembleModule hd hm).1.reaches
    rw [Document.typeNamesOf, List.mem_append] at hname
    rw [modulesOf, interfacesOf]
    rcases hname with hname | hname
    · exact (lists_assembleModule hd hm hname hid).mono (List.subset_append_left _ _)
        (List.subset_append_left _ _)
    · rw [← hext.names_eq] at hid
      exact (lists_assembleModules hmid hrest hname hid).mono (List.subset_append_right _ _)
        (List.subset_append_right _ _)

end

namespace Draft

/-- What is added to the table has no name. -/
theorem TypesNamed.keeps (h : d.TypesNamed P) (hd : d.Sound) (hd' : d'.Sound)
    (hkeeps : d.Keeps d') : d'.TypesNamed P := by
  intro i type name htype hname
  have hplace := hd'.place_of_name htype hname
  rw [hkeeps.names_eq] at hplace
  have hsome := Array.getElem?_eq_getElem (hd.inTable_of_name hplace)
  obtain rfl := Option.some.inj (htype.symm.trans (hkeeps.type_eq hsome))
  exact h i _ name hsome hname

theorem TypesNamed.withType (h : d.TypesNamed P) {id : TypeId} {type : TypeDef}
    {name : QualifiedName} (hname : type.name? = some name) (hP : P name) :
    (d.withType id type).TypesNamed P := by
  intro i other otherName hother hotherName
  obtain ⟨-, rfl⟩ | ⟨-, hother⟩ := getElem?_set_eq_some hother
  · obtain rfl := Option.some.inj (hname.symm.trans hotherName)
    exact hP
  · exact h i other otherName hother hotherName

end Draft

theorem typesNamed_definePending {p : Pending} (hd : d.Sound) (hnamed : d.TypesNamed P)
    (hname : P p.name) (h : definePending p d = .ok ((), d')) : d'.TypesNamed P := by
  unfold definePending at h
  obtain ⟨found, mid, hfound, h⟩ := Build.bind_eq_ok_iff.mp h
  obtain ⟨hleads, hfoundName⟩ := leads_definition? hd hfound
  have hkeeps := ((ends_definition? p d).of_ok hfound).toKeeps
  have hmid := hnamed.keeps hd (hleads.sound hd) hkeeps
  cases found with
  | none =>
    obtain ⟨-, rfl⟩ := Build.pure_eq_ok_iff.mp h
    exact hmid
  | some type =>
    obtain rfl := (Prod.mk.inj (Except.ok.inj h)).2
    exact hmid.withType (hfoundName type rfl) hname

theorem typesNamed_defineAll (hd : d.Sound) (hnamed : d.TypesNamed P)
    (hpending : ∀ p ∈ d.pending, P p.name) (h : defineAll d = .ok ((), d')) :
    d'.TypesNamed P := by
  unfold defineAll at h
  rw [Build.get_bind] at h
  obtain ⟨_, mid, hsettle, h⟩ := Build.bind_eq_ok_iff.mp h
  obtain rfl := Build.modify_eq_ok_iff.mp hsettle
  refine (Build.forM_preserves (P := fun now => d.Reaches now ∧ now.TypesNamed P) ?_
    ⟨Relation.ReflTransGen.single (.settle d), hnamed⟩ h).2
  rintro p hp now next ⟨hnow, hnamed⟩ hnext
  exact ⟨reaches_waiting hd hp hnow hnext,
    typesNamed_definePending (hd.reaches hnow).1 hnamed (hpending p hp) hnext⟩

/-- Types and interfaces are told apart by their names, and every named type is listed by the module
or interface that its name is declared in. -/
structure Orderly (s : Schema) : Prop where
  name_unique : ∀ {i j : Nat} {type other : TypeDef} {name : QualifiedName},
    s.types[i]? = some type → s.types[j]? = some other → type.name? = some name →
    other.name? = some name → i = j
  interfaces_nodup : (s.interfaces.map (·.name)).Nodup
  listed : ∀ {id : TypeId} {type : TypeDef} {name : QualifiedName},
    s.types[id.index]? = some type → type.name? = some name →
    Listed (modulesOf s.modules) s.interfaces id name

theorem orderly_of_build {doc : Document} {s : Schema} (h : build doc = .ok s) : s.Orderly := by
  obtain ⟨declared, defined, last, hdeclare, hdefine, hassemble, htypes⟩ := build_eq_ok h
  have hdeclaring := declaring_modules (P := (· ∈ Document.typeNamesOf .root doc.modules)) .empty
    (fun _ hn => hn) hdeclare
  obtain ⟨hnamed, hpending⟩ := hdeclaring.named
  obtain ⟨hdefined, -⟩ := hdeclaring.sound.reaches (reaches_defineAll hdeclaring.sound hdefine)
  obtain ⟨hleads, hinterfaces⟩ := leads_assembleModules hdefined hassemble
  obtain ⟨hlast, hext⟩ := hdefined.reaches hleads.reaches
  have hkeeps : defined.Keeps last := by
    have hprepares := ((ends_declareModules .root doc.modules {}).of_ok hdeclare).1
    have hsettles := (ends_defineAll (hprepares.tidy Draft.tidy_empty)).of_ok hdefine
    have hstart : defined.Assembling [] [] := by
      refine ⟨⟨.nil, by simp⟩, ?_⟩
      rw [hsettles.uids_eq, hprepares.uids_eq]
      rfl
    exact ((ends_assembleModules .root doc.modules hstart).of_ok hassemble).1
  have hlastNamed := (typesNamed_defineAll hdeclaring.sound hnamed hpending hdefine).keeps hdefined
    hlast hkeeps
  refine ⟨?_, ?_, ?_⟩
  · intro i j type other name htype hother hname hotherName
    rw [htypes] at htype hother
    have hplace := hlast.place_of_name htype hname
    rw [hlast.place_of_name hother hotherName] at hplace
    exact (TypeId.mk.inj (Declared.type.inj (Option.some.inj hplace))).symm
  · exact hinterfaces ▸ hdeclaring.nodup.of_map
  · intro id type name htype hname
    rw [htypes] at htype
    have hplace := hlast.place_of_name htype hname
    rw [hext.names_eq] at hplace
    exact lists_assembleModules hdefined hassemble (hlastNamed _ type name htype hname) hplace

end WireSchema.Schema
