import WireSchema.Proofs.Schema.Passes

/-!
# Integrity of built schemas

In a schema that a document is built into, everything that is stored as a place in the table is one,
no primitive type stands twice in the table, and no two types or interfaces have the same written
name. So looking for a type by its name finds that very type.
-/
namespace WireSchema.Schema

/-- Every place that a schema stores, in its table and in its modules. -/
def references (s : Schema) : List TypeId :=
  s.types.toList.flatMap TypeDef.parts ++ referencesOf s.modules

/-- A schema without dangling places and without repeated types. -/
structure Intact (s : Schema) : Prop where
  in_range : ∀ id ∈ s.references, id.index < s.types.size
  primitive_unique : ∀ {i j : Nat} {type : TypeDef}, s.types[i]? = some type →
    s.types[j]? = some type → type.name? = none → i = j
  name_unique : ∀ {i j : Nat} {type other : TypeDef} {name name' : QualifiedName},
    s.types[i]? = some type → s.types[j]? = some other → type.name? = some name →
    other.name? = some name' → name.text = name'.text → i = j

theorem Intact.findType?_eq {s : Schema} (hs : s.Intact) {i : Nat} {type : TypeDef}
    {name : QualifiedName} (htype : s.types[i]? = some type) (hname : type.name? = some name) :
    s.findType? name.text = some ⟨i⟩ := by
  obtain ⟨hi, hget⟩ := Array.getElem?_eq_some_iff.mp htype
  have hfound : s.types.findIdx? (fun t => t.name?.any (·.text == name.text)) = some i := by
    rw [Array.findIdx?_eq_some_iff_getElem]
    refine ⟨hi, by simp [hget, hname], ?_⟩
    intro j hj hmatch
    obtain ⟨other, hother, htext⟩ := (Option.any_eq_true _ _).mp hmatch
    have hget' := Array.getElem?_eq_getElem (Nat.lt_trans hj hi)
    have hsame := hs.name_unique hget' htype hother hname (beq_iff_eq.mp htext)
    omega
  rw [findType?, hfound, Option.map_some]

/-- The drafts through which a build goes. -/
theorem build_eq_ok {doc : Document} {s : Schema} (h : build doc = .ok s) :
    ∃ declared defined last,
      declareModules .root doc.modules {} = .ok ((), declared) ∧
      defineAll declared = .ok ((), defined) ∧
      assembleModules .root doc.modules defined = .ok (s.modules, last) ∧ s.types = last.types := by
  unfold build at h
  cases hrun : (construct doc).run {} with
  | error e =>
    rw [hrun] at h
    cases h
  | ok p =>
    rw [hrun] at h
    obtain rfl := Except.ok.inj h
    obtain ⟨_, declared, hdeclare, h⟩ := Build.bind_eq_ok_iff.mp hrun
    obtain ⟨_, defined, hdefine, h⟩ := Build.bind_eq_ok_iff.mp h
    rw [Build.get_bind] at h
    obtain ⟨_, checked, hcheck, h⟩ := Build.bind_eq_ok_iff.mp h
    obtain ⟨-, rfl⟩ := Build.lift_eq_ok_iff.mp hcheck
    exact ⟨declared, defined, p.2, hdeclare, hdefine, h, rfl⟩

/-- A sound draft whose modules refer to its table makes an intact schema. -/
theorem Draft.Sound.intact {d : Draft} (hd : d.Sound) {modules : List Module}
    (hmodules : ∀ id ∈ referencesOf modules, d.InTable id) : Intact ⟨d.types, modules⟩ where
  in_range := by
    intro id hid
    rcases List.mem_append.mp hid with hid | hid
    · obtain ⟨type, htype, hpart⟩ := List.mem_flatMap.mp hid
      obtain ⟨i, htype⟩ := List.mem_iff_getElem?.mp htype
      rw [Array.getElem?_toList] at htype
      exact hd.parts htype id hpart
    · exact hmodules id hid
  primitive_unique := by
    intro i j type hi hj hprimitive
    have hplace := hd.place_of_primitive hi hprimitive
    rw [hd.place_of_primitive hj hprimitive] at hplace
    exact (TypeId.mk.inj (Option.some.inj hplace)).symm
  name_unique := by
    intro i j type other name name' hi hj hname hname' htext
    have hplace := hd.place_of_name hi hname
    rw [htext, hd.place_of_name hj hname'] at hplace
    exact (TypeId.mk.inj (Declared.type.inj (Option.some.inj hplace))).symm

/-- Whatever is built is intact, so every type is found by its own name. It has the interfaces of
the document, and no two of them have the same written name. -/
theorem build_intact (doc : Document) (s : Schema) (h : build doc = .ok s) :
    s.Intact ∧
    (∀ (i : Nat) (type : TypeDef) (name : QualifiedName), s.types[i]? = some type →
      type.name? = some name → s.findType? name.text = some ⟨i⟩) ∧
    s.interfaces.map (·.name) = Document.interfaceNamesOf .root doc.modules ∧
    ((Document.interfaceNamesOf .root doc.modules).map (·.text)).Nodup := by
  obtain ⟨declared, defined, last, hdeclare, hdefine, hassemble, htypes⟩ := build_eq_ok h
  have hdeclaring := declaring_declareModules .empty hdeclare
  obtain ⟨hdefined, -⟩ := hdeclaring.sound.reaches (reaches_defineAll hdeclaring.sound hdefine)
  obtain ⟨hleads, hinterfaces⟩ := leads_assembleModules hdefined hassemble
  have hintact : s.Intact := by
    have hlast := (hleads.sound hdefined).intact hleads.inTable
    rwa [← htypes] at hlast
  exact ⟨hintact, fun i type name => hintact.findType?_eq, hinterfaces, hdeclaring.nodup⟩

/-- Nodes with labels, declared before they are defined, and a service that finds them. -/
def hub : Document where
  modules := [{
    name := "hub"
    modules := []
    types := [⟨"Node", .forward⟩, ⟨"Nodes", .sequence "Node"⟩, ⟨"Label", .alias "string"⟩,
      ⟨"Node", .record [⟨"label", "Label"⟩, ⟨"inner", "::hub::Nodes"⟩]⟩,
      ⟨"ByLabel", .map "Label" "Node"⟩]
    interfaces := [{
      name := "Lookup"
      uid := 1
      operations := [{
        name := "find"
        uid := 1
        params := [⟨"label", "Label", true, false⟩, ⟨"near", "ByLabel", false, true⟩]
        returns := some "Node"
        oneway := false }]
      exceptions := [⟨"Missing", [⟨"label", "Label"⟩]⟩]
      constants := [⟨"limit", "int", .integer 3⟩] }]
    constants := [⟨"separator", "Label", .text "/"⟩] }]

theorem build_intact_hub :
    ∃ s, build hub = .ok s ∧ s.Intact ∧ s.findType? "hub::Node" = some ⟨0⟩ := by
  have hnode : ((build hub).toOption.bind (·.types[0]?)).bind (·.name?) =
      some ⟨["hub", "Node"]⟩ := by decide +kernel
  obtain ⟨type, hslot, hname⟩ := Option.bind_eq_some_iff.mp hnode
  obtain ⟨s, hs, htype⟩ := Option.bind_eq_some_iff.mp hslot
  cases h : build hub with
  | error e =>
    rw [h] at hs
    cases hs
  | ok built =>
    rw [h] at hs
    obtain rfl := Option.some.inj hs
    obtain ⟨hintact, hfound, -⟩ := build_intact hub built h
    exact ⟨built, rfl, hintact, hfound 0 type ⟨["hub", "Node"]⟩ htype hname⟩

end WireSchema.Schema
