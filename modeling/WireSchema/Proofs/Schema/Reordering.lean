import WireSchema.Proofs.Schema.Renaming
import WireSchema.Proofs.Schema.Rules

/-!
# Types in another order

The types of a module may be declared in any order. Names stand where they stood, because the
declarations of one name in one module can be exchanged: the only two that cannot are a forward
declaration and an alias. So references denote the same types, and the same documents are accepted.
-/
namespace WireSchema

open Schema

namespace Document

mutual

/-- The types of the module, and those of the modules inside, are listed in another order. -/
inductive Module.Reordered : Module → Module → Prop
  | intro {name : String} {modules modules' : List Module} {types types' : List TypeDecl}
    {interfaces : List Interface} {constants : List Constant}
    (hmodules : ReorderedModules modules modules') (htypes : types.Perm types') :
    Module.Reordered ⟨name, modules, types, interfaces, constants⟩
      ⟨name, modules', types', interfaces, constants⟩

inductive ReorderedModules : List Module → List Module → Prop
  | nil : ReorderedModules [] []
  | cons {m m' : Module} {modules modules' : List Module} (hm : Module.Reordered m m')
    (hmodules : ReorderedModules modules modules') :
    ReorderedModules (m :: modules) (m' :: modules')

end

def Reordered (doc doc' : Document) : Prop := ReorderedModules doc.modules doc'.modules

mutual

theorem Module.Reordered.symm {m m' : Module} (h : m.Reordered m') : m'.Reordered m := by
  cases h with
  | intro hmodules htypes => exact .intro hmodules.symm htypes.symm

theorem ReorderedModules.symm {modules modules' : List Module}
    (h : ReorderedModules modules modules') : ReorderedModules modules' modules := by
  cases h with
  | nil => exact .nil
  | cons hm hmodules => exact .cons hm.symm hmodules.symm

end

theorem Module.Reordered.name_eq {m m' : Module} (h : m.Reordered m') : m.name = m'.name := by
  cases h with
  | intro => rfl

mutual

/-- What is entered is the same up to the order. What is assembled and the interfaces stay. -/
theorem Module.Reordered.contents {m m' : Module} (h : m.Reordered m') (name : QualifiedName) :
    (m.entries name).Perm (m'.entries name) ∧ m.clauses name = m'.clauses name ∧
      m.namedInterfaces name = m'.namedInterfaces name := by
  cases h with
  | intro hmodules htypes =>
    obtain ⟨hentries, hclauses, hinterfaces⟩ := hmodules.contents name
    rw [Module.entries, Module.entries, Module.clauses, Module.clauses, Module.namedInterfaces,
      Module.namedInterfaces, hclauses, hinterfaces]
    exact ⟨((htypes.map _).append_right _).append hentries, rfl, rfl⟩

theorem ReorderedModules.contents {modules modules' : List Module}
    (h : ReorderedModules modules modules') (scope : QualifiedName) :
    (entriesOf scope modules).Perm (entriesOf scope modules') ∧
      clausesOf scope modules = clausesOf scope modules' ∧
      namedInterfacesOf scope modules = namedInterfacesOf scope modules' := by
  cases h with
  | nil => exact ⟨.refl _, rfl, rfl⟩
  | cons hm hmodules =>
    rw [entriesOf, entriesOf, clausesOf, clausesOf, namedInterfacesOf, namedInterfacesOf,
      ← hm.name_eq]
    obtain ⟨hentries, hclauses, hinterfaces⟩ := hm.contents (scope.child _)
    obtain ⟨hentries', hclauses', hinterfaces'⟩ := hmodules.contents scope
    rw [hclauses, hclauses', hinterfaces, hinterfaces']
    exact ⟨hentries.append hentries', rfl, rfl⟩

end

section

variable {doc doc' : Document} (h : doc.Reordered doc')
include h

theorem Reordered.symm : doc'.Reordered doc := ReorderedModules.symm h

theorem Reordered.declarations_perm : doc.declarations.Perm doc'.declarations :=
  (ReorderedModules.contents h .root).1.filterMap _

theorem Reordered.clauses_eq : doc.clauses = doc'.clauses :=
  (ReorderedModules.contents h .root).2.1

theorem Reordered.interfaces_eq : doc.interfaces = doc'.interfaces :=
  (ReorderedModules.contents h .root).2.2

theorem Reordered.references_perm : doc.references.Perm doc'.references := by
  unfold references
  rw [h.clauses_eq]
  exact (h.declarations_perm.flatMap_right _).append_right _

end

/-- No name has both an alias and a forward declaration. -/
def KeepsApart (es : List Entry) : Prop :=
  ∀ name target, ⟨name, .alias target⟩ ∈ es.filterMap (·.declaration?) →
    ⟨name, .forward⟩ ∉ es.filterMap (·.declaration?)

theorem KeepsApart.sublist {es es' : List Entry} (h : KeepsApart es') (hsub : es.Sublist es') :
    KeepsApart es := by
  intro name target halias hforward
  have hsub := (hsub.filterMap (·.declaration?)).subset
  exact h name target (hsub halias) (hsub hforward)

theorem KeepsApart.reordered {doc doc' : Document} (hapart : KeepsApart doc.entries)
    (h : doc.Reordered doc') : KeepsApart doc'.entries := by
  intro name target halias hforward
  exact hapart name target (h.declarations_perm.mem_iff.mpr halias)
    (h.declarations_perm.mem_iff.mpr hforward)

end Document

open Document (Entry Declaration TypeDecl KeepsApart)

theorem QualifiedName.child_inj_of_text {scope : QualifiedName} {name name' : String}
    (h : (scope.child name).text = (scope.child name').text) : name = name' := by
  rw [← nameWithin_eq, ← nameWithin_eq] at h
  unfold nameWithin at h
  split at h
  · exact h
  · exact String.append_right_inj _ |>.mp h

namespace Schema

/-- Two declarations of one name in one module can be exchanged, unless one is an alias and the
other a forward declaration. -/
theorem Standing.declare_comm {scope : QualifiedName} {x y : TypeDecl} (hname : x.name = y.name)
    (hxy : ∀ target, x.body = .alias target → y.body ≠ .forward)
    (hyx : ∀ target, y.body = .alias target → x.body ≠ .forward) (st : Standing) :
    (st.declare (.type scope x)).declare (.type scope y) =
      (st.declare (.type scope y)).declare (.type scope x) := by
  obtain ⟨name, body⟩ := x
  obtain ⟨name', body'⟩ := y
  obtain rfl : name = name' := hname
  cases st with
  | unseen =>
    cases body with
    | forward =>
      cases body' with
      | «alias» target => exact absurd rfl (hyx target rfl)
      | _ => simp [declare]
    | «alias» target =>
      cases body' with
      | forward => exact absurd rfl (hxy target rfl)
      | _ => simp [declare]
    | _ => cases body' <;> simp [declare]
  | announced shown =>
    by_cases hx : body = .forward <;> by_cases hy : body' = .forward <;> simp [declare, hx, hy]
  | defined shown other made =>
    by_cases hx : body = .forward <;> by_cases hy : body' = .forward <;> simp [declare, hx, hy]
  | _ => rfl

/-- The entries of one name come to the same standing, from every standing before them. -/
def SameStandings (es es' : List Entry) : Prop :=
  ∀ (key : String) (st : Standing), (ownEntries es key).foldl Standing.declare st =
    (ownEntries es' key).foldl Standing.declare st

theorem SameStandings.refl (es : List Entry) : SameStandings es es := fun _ _ => rfl

theorem SameStandings.append {es es' rest rest' : List Entry} (h : SameStandings es es')
    (hrest : SameStandings rest rest') : SameStandings (es ++ rest) (es' ++ rest') := by
  intro key st
  have happend : ∀ a b : List Entry, (ownEntries (a ++ b) key).foldl Standing.declare st =
      (ownEntries b key).foldl Standing.declare ((ownEntries a key).foldl Standing.declare st) := by
    intro a b
    rw [ownEntries, List.filter_append, List.foldl_append]
    rfl
  rw [happend, happend, h key st, hrest key]

theorem sameStandings_types {scope : QualifiedName} {types types' : List TypeDecl}
    (h : types.Perm types') (hapart : KeepsApart (types.map (.type scope))) :
    SameStandings (types.map (.type scope)) (types'.map (.type scope)) := by
  -- Of an alias and a forward declaration of one name, only one is there.
  have hbodies : ∀ x ∈ types, ∀ y ∈ types, x.name = y.name → ∀ target, x.body = .alias target →
      y.body ≠ .forward := by
    intro x hx y hy hname target halias hforward
    refine hapart (scope.child x.name) target ?_ ?_
    · exact List.mem_filterMap.mpr ⟨_, List.mem_map_of_mem hx, by rw [← halias]; rfl⟩
    · exact List.mem_filterMap.mpr ⟨_, List.mem_map_of_mem hy, by rw [hname, ← hforward]; rfl⟩
  intro key st
  refine ((h.map (Entry.type scope)).filter _).foldl_eq' ?_ st
  intro e he e' he' st
  obtain ⟨he, hkey⟩ := mem_ownEntries.mp he
  obtain ⟨he', hkey'⟩ := mem_ownEntries.mp he'
  obtain ⟨x, hx, rfl⟩ := List.mem_map.mp he
  obtain ⟨y, hy, rfl⟩ := List.mem_map.mp he'
  have hname : x.name = y.name := QualifiedName.child_inj_of_text (hkey.trans hkey'.symm)
  exact Standing.declare_comm hname (hbodies x hx y hy hname) (hbodies y hy x hx hname.symm) st

mutual

theorem sameStandings_module {m m' : Document.Module} (h : m.Reordered m') (name : QualifiedName)
    (hapart : KeepsApart (m.entries name)) : SameStandings (m.entries name) (m'.entries name) := by
  cases h with
  | intro hmodules htypes =>
    rw [Document.Module.entries] at hapart ⊢
    rw [Document.Module.entries]
    refine ((sameStandings_types htypes ?_).append (.refl _)).append
      (sameStandings_modules hmodules name ?_)
    · exact hapart.sublist ((List.sublist_append_left _ _).trans (List.sublist_append_left _ _))
    · exact hapart.sublist (List.sublist_append_right _ _)

theorem sameStandings_modules {modules modules' : List Document.Module}
    (h : Document.ReorderedModules modules modules') (scope : QualifiedName)
    (hapart : KeepsApart (Document.entriesOf scope modules)) :
    SameStandings (Document.entriesOf scope modules) (Document.entriesOf scope modules') := by
  cases h with
  | nil => exact .refl _
  | cons hm hmodules =>
    rw [Document.entriesOf] at hapart ⊢
    rw [Document.entriesOf, ← hm.name_eq]
    refine (sameStandings_module hm _ ?_).append (sameStandings_modules hmodules scope ?_)
    · exact hapart.sublist (List.sublist_append_left _ _)
    · exact hapart.sublist (List.sublist_append_right _ _)

end

theorem standing_reordered {doc doc' : Document} (h : doc.Reordered doc')
    (hapart : KeepsApart doc.entries) (key : String) :
    standing doc'.entries key = standing doc.entries key :=
  (sameStandings_modules h .root hapart key .unseen).symm

section Accepted

variable {doc doc' : Document} {σ : TypeId → TypeId} {names names' : List (String × Declared)}

theorem alike_of_reflects {d d' : Draft} (hd : d.Reflects doc.entries)
    (hd' : d'.Reflects doc'.entries)
    (hst : ∀ key, standing doc'.entries key = standing doc.entries key) (key : String) :
    d.Alike d' key := by
  have hstands := hd.stands key
  have hstands' := hd'.stands key
  rw [hst] at hstands'
  cases hkey : standing doc.entries key with
  | announced | defined =>
    rw [hkey] at hstands hstands'
    obtain ⟨-, id, hid, -⟩ := hstands
    obtain ⟨-, id', hid', -⟩ := hstands'
    exact .inr ⟨id, id', hid, hid'⟩
  | clash =>
    rw [hkey] at hstands
    exact hstands.elim
  | unseen | synonym | interface =>
    rw [hkey] at hstands hstands'
    exact .inl (Eq.trans hstands' (Eq.symm hstands))

theorem Renames.isProper_clause (h : Renames σ names names') {c : Document.Clause}
    (hc : Clause.IsProper names c) : Clause.IsProper names' c := by
  cases c with
  | constants scope decls =>
    refine ⟨hc.1, ?_⟩
    intro c hmem den' hgives'
    obtain ⟨den, hgives, rfl⟩ := h.exists_gives hgives'
    have hadmits := hc.2 c hmem den hgives
    cases den <;> exact hadmits
  | operations interface decls => exact hc

/-- The rules hold of the reordered document as well. -/
theorem Renames.isProper (h : Renames σ names names') (hdoc : doc.Reordered doc')
    (hproper : doc.IsProper names) : doc'.IsProper names' where
  declarations x hx := hproper.declarations x (hdoc.declarations_perm.mem_iff.mpr hx)
  keys name key value hmem den' hgives' := by
    obtain ⟨den, hgives, rfl⟩ := h.exists_gives hgives'
    have horders := hproper.keys name key value (hdoc.declarations_perm.mem_iff.mpr hmem) den hgives
    cases den with
    | primitive type => exact horders
    | declared id =>
      obtain ⟨other, enumerators, hother, hid⟩ := horders
      exact ⟨other, enumerators, hdoc.declarations_perm.mem_iff.mp hother, h.lookup_type hid⟩
  clauses c hc := h.isProper_clause (hproper.clauses c (hdoc.clauses_eq ▸ hc))

/-- Only places of names matter while names are declared. -/
theorem Completes.exists_renames {declared last declared' : Draft} {modules : List Module}
    (h : Completes doc declared last modules)
    (hdeclare' : declareModules .root doc'.modules {} = .ok ((), declared'))
    (halike : ∀ key, declared.Alike declared' key) :
    ∃ σ, Renames σ declared.names declared'.names := by
  have hdeclaring := declaring_declareModules .empty h.declares
  have hdeclaring' := declaring_declareModules .empty hdeclare'
  obtain ⟨σ, hσ⟩ := hdeclaring.sound.exists_corresponds hdeclaring'.sound halike
    fun _ _ htype hname => absurd hname (hdeclaring.name?_ne_none htype)
  exact ⟨σ, hσ.names⟩

theorem accepts_reordered {s : Schema} (hapart : KeepsApart doc.entries) (h : doc.Reordered doc')
    (hs : build doc = .ok s) : ∃ s', build doc' = .ok s' := by
  cases hbuilt : build doc' with
  | ok s' => exact ⟨s', rfl⟩
  | error e =>
    exfalso
    obtain ⟨declared, last, hcompletes, -⟩ := completes_of_build hs
    have hst := standing_reordered h hapart
    rcases rejects_of_build hbuilt with ⟨⟨x, -, hclash⟩, -⟩ | ⟨declared', hdeclare', hfaults⟩
    · rw [hst] at hclash
      exact hcompletes.reflects.ne_clash _ hclash
    · have hreflects' := (ends_declareModules_reflects doc').of_ok hdeclare'
      obtain ⟨σ, hrenames⟩ := hcompletes.exists_renames hdeclare'
        (alike_of_reflects hcompletes.reflects hreflects' hst)
      have hother : e.IsOther := by
        intro hfault
        have hbreaks := (ends_construct doc').of_error (construct_of_build_eq_error hbuilt) hfault
        rw [← h.interfaces_eq] at hbreaks
        exact not_breaks_of_build hs e hbreaks
      rcases hfaults hother with ⟨r, hr, hfails⟩ | ⟨hbroken, -⟩
      · obtain ⟨id, den, hgives, -⟩ := hcompletes.placed r (h.references_perm.mem_iff.mpr hr)
        rw [hcompletes.names_eq] at hgives
        cases Denotes.unique (hrenames.gives hgives) hfails
      · exact hbroken (hrenames.isProper h hcompletes.proper)

end Accepted

section Schemas

variable {σ : TypeId → TypeId} {names names' : List (String × Declared)}

mutual

theorem renamed_placed (hrenames : Renames σ names names') (hinj : Separates σ names)
    (look : Document.Reference → TypeId) {m m' : Document.Module} (h : m.Reordered m')
    (name : QualifiedName) :
    Module.Renamed σ (Module.placed look names name m)
      (Module.placed (fun r => σ (look r)) names' name m') := by
  cases h with
  | intro hmodules htypes =>
    rw [Module.placed, Module.placed, constant_placed_renamed, ← List.map_map,
      interfaces_placed_renamed look hrenames]
    exact .intro (renamed_placedModules hrenames hinj look hmodules name)
      (declaredTypes_renamed hrenames hinj name (htypes.map _))

theorem renamed_placedModules (hrenames : Renames σ names names') (hinj : Separates σ names)
    (look : Document.Reference → TypeId) {modules modules' : List Document.Module}
    (h : Document.ReorderedModules modules modules') (scope : QualifiedName) :
    RenamedModules σ (placedModules look names scope modules)
      (placedModules (fun r => σ (look r)) names' scope modules') := by
  cases h with
  | nil =>
    rw [placedModules, placedModules]
    exact .nil
  | cons hm hmodules =>
    rw [placedModules, placedModules, ← hm.name_eq]
    exact .cons (renamed_placed hrenames hinj look hm _)
      (renamed_placedModules hrenames hinj look hmodules scope)

end

end Schemas

/-- A primitive type of one table is one that a reference denotes, and so it is in the other. -/
theorem Completes.contains {doc doc' : Document} {declared last declared' last' : Draft}
    {modules modules' : List Module} (h : Completes doc declared last modules)
    (h' : Completes doc' declared' last' modules') (halike : ∀ key, declared.Alike declared' key)
    (hreferences : doc.references.Perm doc'.references) : last'.Contains last := by
  intro i type htype hname
  obtain ⟨σ, hrenames⟩ := h.exists_renames h'.declares halike
  obtain ⟨r, hr, hgives⟩ := h.used htype hname
  obtain ⟨id', den', hgives', hholds'⟩ := h'.placed r (hreferences.mem_iff.mp hr)
  rw [h'.names_eq] at hgives'
  obtain rfl := Except.ok.inj (Denotes.unique (hrenames.gives hgives) hgives')
  exact ⟨id'.index, hholds'⟩

theorem exists_isRenaming {doc doc' : Document} {s s' : Schema} (hapart : KeepsApart doc.entries)
    (h : doc.Reordered doc') (hs : build doc = .ok s) (hs' : build doc' = .ok s') :
    ∃ σ, s.IsRenaming σ s' := by
  obtain ⟨declared, last, hcompletes, htypes⟩ := completes_of_build hs
  obtain ⟨declared', last', hcompletes', htypes'⟩ := completes_of_build hs'
  have hst := standing_reordered h hapart
  have halike := alike_of_reflects hcompletes.reflects hcompletes'.reflects hst
  have hcontains' := hcompletes.contains hcompletes' halike h.references_perm
  have hcontains := hcompletes'.contains hcompletes (fun key => (halike key).symm)
    h.references_perm.symm
  have hlast := hcompletes.ready.sound
  have hlast' := hcompletes'.ready.sound
  have hlastAlike : ∀ key, last.Alike last' key := by
    unfold Draft.Alike
    rw [hcompletes.names_eq, hcompletes'.names_eq]
    exact halike
  obtain ⟨σ, hσ⟩ := hlast.exists_corresponds hlast' hlastAlike hcontains'
  obtain ⟨look, hlook⟩ := hlast.exists_fits
  have hlook' := hσ.fits hlast' hcontains hlook
  refine ⟨σ, ?_, ?_, ?_⟩
  · rw [htypes, htypes']
    exact hσ.bijOn hlast hlast' hcontains
  · intro id type htype
    rw [htypes] at htype
    rw [htypes']
    refine hσ.types hlast (hcompletes.shows look hlook) (fun key => ?_) htype
    rw [← hst]
    exact hcompletes'.shows _ hlook' key
  · rw [hcompletes.modules_eq look hlook, hcompletes'.modules_eq _ hlook']
    refine renamed_placedModules ?_ ?_ look h .root
    · rw [← hcompletes.names_eq, ← hcompletes'.names_eq]
      exact hσ.names
    · rw [← hcompletes.names_eq]
      intro key key' id id' hid hid' hsame
      exact hσ.injOn hlast hlast' (hlast.inTable_of_name hid) (hlast.inTable_of_name hid') hsame

/-- The order in which a module declares its types does not matter, as long as no name has both an
alias and a forward declaration: the same documents are accepted, and their schemas differ only in
the places of the types and in the order in which modules list them. -/
theorem build_reordered (doc doc' : Document) (hapart : KeepsApart doc.entries)
    (h : doc.Reordered doc') :
    ((∃ s, build doc = .ok s) ↔ ∃ s', build doc' = .ok s') ∧
      ∀ s s', build doc = .ok s → build doc' = .ok s' → ∃ σ, s.IsRenaming σ s' := by
  refine ⟨⟨?_, ?_⟩, fun s s' hs hs' => exists_isRenaming hapart h hs hs'⟩
  · rintro ⟨s, hs⟩
    exact accepts_reordered hapart h hs
  · rintro ⟨s', hs'⟩
    exact accepts_reordered (hapart.reordered h) h.symm hs'

def hubBackwards : Document where
  modules := hub.modules.map fun m => { m with types := m.types.reverse }

/-- The forward declaration of a node comes last then, after its definition and its uses. -/
theorem build_reordered_hub :
    KeepsApart hub.entries ∧ hub.Reordered hubBackwards ∧
      ∃ s s' σ, build hub = .ok s ∧ build hubBackwards = .ok s' ∧ s.IsRenaming σ s' := by
  have hapart : KeepsApart hub.entries := by
    intro name target halias hforward
    have hbodies : ∀ x ∈ hub.declarations, ⟨x.name, .forward⟩ ∈ hub.declarations →
        x.body ∈ [.forward, .record [⟨"label", "Label"⟩, ⟨"inner", "::hub::Nodes"⟩]] := by decide
    have hbody := hbodies _ halias hforward
    simp at hbody
  have hreordered : hub.Reordered hubBackwards :=
    .cons (.intro .nil (List.reverse_perm _).symm) .nil
  have hbuilt : (build hub).toOption.map (fun _ => ()) = some () := by decide +kernel
  obtain ⟨s, hs, -⟩ := exists_ok_of_toOption hbuilt
  obtain ⟨haccepts, hrenaming⟩ := build_reordered hub hubBackwards hapart hreordered
  obtain ⟨s', hs'⟩ := haccepts.mp ⟨s, hs⟩
  obtain ⟨σ, hσ⟩ := hrenaming s s' hs hs'
  exact ⟨hapart, hreordered, s, s', σ, hs, hs', hσ⟩

end Schema
end WireSchema
