import WireSchema.Proofs.Schema.Acceptance
import WireSchema.Proofs.Schema.Integrity

/-!
# What written references come to

In an accepted document every reference denotes a type, and so does every alias on its way. What is
denoted is what the definition of the name says: forward declarations change nothing about it,
except that an alias after a forward declaration is not seen. Targets of aliases that no reference
comes to are not looked at.
-/
namespace WireSchema

open Schema

namespace Schema

open Document (Reference)

def LeadsTo (names : List (String × Declared)) (r : Reference) (key : String) : Prop :=
  TypeDef.primitive? r.text = none ∧ ∃ what, Means names r.scope r.text key what

/-- The references on the way from `r` to a type: itself, and the targets of the aliases that are
followed. -/
inductive Follows (names : List (String × Declared)) (r : Reference) : Reference → Prop
  | start : Follows names r r
  | alias {t : Reference} {key target : String} {home : QualifiedName} (hway : Follows names r t)
    (hprimitive : TypeDef.primitive? t.text = none)
    (hmeans : Means names t.scope t.text key (.alias target home)) :
    Follows names r ⟨home, target⟩

end Schema

namespace Document

def aliasTargets (doc : Document) : List Reference :=
  doc.declarations.filterMap fun x =>
    match x.body with
    | .alias target => some ⟨x.name.scope, target⟩
    | _ => none

/-- A reference of the document comes to `t`. -/
def Uses (doc : Document) (names : List (String × Declared)) (t : Reference) : Prop :=
  ∃ r ∈ doc.references, Follows names r t

/-- An alias of a name that has a forward declaration as well. -/
def Hides (doc : Document) (x : Declaration) : Prop :=
  (∃ target, x.body = .alias target) ∧
    ∃ y ∈ doc.declarations, y.body = .forward ∧ y.name.text = x.name.text

end Document

namespace Schema

open Document (Declaration Reference BreaksInterfaces)

variable {names : List (String × Declared)} {r t : Reference} {doc : Document} {s : Schema}

theorem gives_iff_chain {den : Denotation} :
    Gives names r den ↔ ∃ n, Chain names n r.scope r.text den := by
  constructor
  · exact fun h => Denotes.exists_chain h rfl
  · rintro ⟨n, hchain⟩
    exact hchain.denotes (Draft.ahead_nil names r.scope r.text)

/-- A reference to an alias denotes what the target denotes where the alias is declared. -/
theorem gives_alias_iff {key target : String} {home : QualifiedName} {den : Denotation}
    (hprimitive : TypeDef.primitive? r.text = none)
    (hmeans : Means names r.scope r.text key (.alias target home)) :
    Gives names r den ↔ Gives names ⟨home, target⟩ den := by
  rw [gives_iff_chain, gives_iff_chain]
  constructor
  · rintro ⟨n, hchain⟩
    cases hchain with
    | primitive h => simp [h] at hprimitive
    | type _ hmeans' => cases hmeans.unique hmeans'
    | follow _ hmeans' hnext =>
      obtain ⟨-, rfl, rfl⟩ := hmeans.alias_unique hmeans'
      exact ⟨_, hnext⟩
  · rintro ⟨n, hchain⟩
    exact ⟨n + 1, .follow hprimitive hmeans hchain⟩

theorem Follows.gives_iff (h : Follows names r t) {den : Denotation} :
    Gives names r den ↔ Gives names t den := by
  induction h with
  | start => exact Iff.rfl
  | «alias» _ hprimitive hmeans ih => exact ih.trans (gives_alias_iff hprimitive hmeans)

/-- A place of a schema holds what a reference denotes. -/
def Holds (s : Schema) (id : TypeId) : Denotation → Prop
  | .primitive type => s.types[id.index]? = some type
  | .declared place => id = place

/-- What a reference denotes is what a declaration says: what the target of an alias denotes, or a
type with the declared definition. -/
def Expresses (s : Schema) (names : List (String × Declared)) (look : Reference → TypeId)
    (r : Reference) (x : Declaration) : Prop :=
  match x.body with
  | .alias target => ∀ den, Gives names r den ↔ Gives names ⟨x.name.scope, target⟩ den
  | _ => ∃ id type, Gives names r (.declared id) ∧ TypeDef.placed? look x = some type ∧
      s.types[id.index]? = some type

/-- An alias is a synonym, unless there is a forward declaration as well. Then it takes over a place
and is not seen. -/
theorem Draft.Reflects.alias_standing {d : Draft} {x : Declaration} {target : String}
    (h : d.Reflects doc.entries) (hx : x ∈ doc.declarations) (halias : x.body = .alias target) :
    doc.Hides x ∧ (∃ shown,
        standing doc.entries x.name.text = .defined shown x.name (.alias target)) ∨
      ¬ doc.Hides x ∧ standing doc.entries x.name.text = .synonym target x.name.scope := by
  have hadmits := admits_standing hx
  cases hst : standing doc.entries x.name.text with
  | announced shown =>
    rw [hst] at hadmits
    cases halias.symm.trans hadmits
  | defined shown name body =>
    rw [hst] at hadmits
    rcases hadmits with rfl | hforward
    · obtain rfl : body = .alias target := halias
      obtain ⟨hmem, htext⟩ := (defined_declaration hst).2.2 target rfl
      exact .inl ⟨⟨⟨target, rfl⟩, _, hmem, rfl, htext⟩, shown, rfl⟩
    · cases halias.symm.trans hforward
  | synonym target' scope =>
    rw [hst] at hadmits
    obtain rfl := Document.TypeBody.alias.inj (halias.symm.trans hadmits.1)
    refine .inr ⟨?_, by rw [hadmits.2]⟩
    rintro ⟨-, y, hy, hforward, htext⟩
    have hother := admits_standing hy
    rw [htext, hst] at hother
    cases hforward.symm.trans hother.1
  | clash => exact absurd hst (h.ne_clash _)
  | unseen | interface =>
    rw [hst] at hadmits
    exact hadmits.elim

section Completed

variable {declared last : Draft} {look : Reference → TypeId} {x : Declaration}
  {modules : List Module} (h : Completes doc declared last modules) (hlook : last.Fits look)
include h

theorem Completes.gives_declared {key : String} {id : TypeId}
    (hleads : LeadsTo declared.names r key) (hid : last.names.lookup key = some (.type id)) :
    Gives declared.names r (.declared id) := by
  obtain ⟨hprimitive, what, hmeans⟩ := hleads
  rw [h.names_eq, hmeans.lookup_eq] at hid
  obtain rfl := Option.some.inj hid
  exact .type hprimitive hmeans

include hlook

theorem Completes.holds_look (hr : r ∈ doc.references) :
    ∃ den, Gives declared.names r den ∧ last.Holds (look r) den := by
  obtain ⟨id, den, hgives, hholds⟩ := h.placed r hr
  rw [hlook r id ⟨den, hgives, hholds⟩]
  exact ⟨den, h.names_eq ▸ hgives, hholds⟩

theorem Completes.expresses (hx : x ∈ doc.declarations) (hbody : x.body ≠ .forward)
    (hseen : ¬ doc.Hides x) (hleads : LeadsTo declared.names r x.name.text) :
    Expresses ⟨last.types, modules⟩ declared.names look r x := by
  by_cases hdefines : x.IsDefinition
  · obtain ⟨id, type, hid, hplaced, htype⟩ :=
      (h.shows look hlook x.name.text).exists_type hx hdefines
    have hgives := h.gives_declared hleads hid
    obtain ⟨name, body⟩ := x
    cases body with
    | «alias» target => exact absurd rfl (hdefines.2 target)
    | _ => exact ⟨id, type, hgives, hplaced, htype⟩
  · obtain ⟨target, halias⟩ : ∃ target, x.body = .alias target := by
      by_contra hnone
      exact hdefines ⟨hbody, fun target halias => hnone ⟨target, halias⟩⟩
    rcases h.reflects.alias_standing hx halias with ⟨hhides, -⟩ | ⟨-, hst⟩
    · exact absurd hhides hseen
    · have hstands := h.reflects.stands x.name.text
      rw [hst] at hstands
      obtain ⟨hprimitive, what, hmeans⟩ := hleads
      obtain rfl := Option.some.inj (hmeans.lookup_eq.symm.trans hstands)
      unfold Expresses
      rw [halias]
      exact fun den => gives_alias_iff hprimitive hmeans

/-- An alias that is not seen leaves a place without a definition. -/
theorem Completes.forward_of_hides (hx : x ∈ doc.declarations) (hhides : doc.Hides x)
    (hleads : LeadsTo declared.names r x.name.text) :
    ∃ id name, Gives declared.names r (.declared id) ∧
      last.types[id.index]? = some (.forward name) := by
  obtain ⟨target, halias⟩ := hhides.1
  rcases h.reflects.alias_standing hx halias with ⟨-, shown, hst⟩ | ⟨hseen, -⟩
  · have hshown := h.shows look hlook x.name.text
    rw [hst] at hshown
    obtain ⟨id, hid, htype⟩ := hshown
    exact ⟨id, shown, h.gives_declared hleads hid, htype⟩
  · exact absurd hhides hseen

/-- A place without a definition is one that nothing but such an alias defines. -/
theorem Completes.forward_or_hides {i : Nat} {name : QualifiedName}
    (htype : last.types[i]? = some (.forward name)) (hx : x ∈ doc.declarations)
    (hname : x.name.text = name.text) : x.body = .forward ∨ doc.Hides x := by
  have hadmits := admits_standing hx
  rw [hname] at hadmits
  rcases h.ready.sound.type_cases (h.shows look hlook) htype rfl with ⟨shown, hst, -⟩ |
    ⟨shown, defined, body, hst, hforward⟩
  · rw [hst] at hadmits
    exact .inl hadmits
  · rw [hst] at hadmits
    rcases hadmits with rfl | hbody
    · obtain ⟨hdefined, -, hlost⟩ := defined_declaration hst
      cases body with
      | «alias» target =>
        obtain ⟨hmem, htext⟩ := hlost target rfl
        exact .inr ⟨⟨target, rfl⟩, _, hmem, rfl, htext.trans hname.symm⟩
      | forward => exact absurd rfl hdefined
      | _ => cases hforward
    · exact .inl hbody

end Completed

/-- Every reference that means a name denotes what the definition of the name says, whichever
forward declarations the name has. Only an alias besides a forward declaration is not seen: then the
place of the name stays without a definition, and no other place does whose name has one. -/
theorem build_keeps_definitions (doc : Document) (s : Schema) (h : build doc = .ok s) :
    ∃ declared look, declareModules .root doc.modules {} = .ok ((), declared) ∧
      (∀ r ∈ doc.references, ∃ den, Gives declared.names r den ∧ s.Holds (look r) den) ∧
      (∀ x ∈ doc.declarations, x.body ≠ .forward → ∀ r, LeadsTo declared.names r x.name.text →
        (¬ doc.Hides x → s.Expresses declared.names look r x) ∧
        (doc.Hides x → ∃ id name, Gives declared.names r (.declared id) ∧
          s.types[id.index]? = some (.forward name))) ∧
      ∀ (i : Nat) (name : QualifiedName), s.types[i]? = some (.forward name) →
        ∀ x ∈ doc.declarations, x.name.text = name.text → x.body = .forward ∨ doc.Hides x := by
  obtain ⟨declared, last, hcompletes, htypes⟩ := completes_of_build h
  obtain ⟨types, modules⟩ := s
  obtain rfl : types = last.types := htypes
  obtain ⟨look, hlook⟩ := hcompletes.ready.sound.exists_fits
  refine ⟨declared, look, hcompletes.declares, ?_, ?_, ?_⟩
  · intro r hr
    obtain ⟨den, hgives, hholds⟩ := hcompletes.holds_look hlook hr
    exact ⟨den, hgives, by cases den <;> exact hholds⟩
  · intro x hx hbody r hleads
    exact ⟨fun hseen => hcompletes.expresses hlook hx hbody hseen hleads,
      fun hhides => hcompletes.forward_of_hides hlook hx hhides hleads⟩
  · intro i name htype x hx hname
    exact hcompletes.forward_or_hides hlook htype hx hname

def hubNames : List (String × Declared) :=
  [("hub::Lookup::Missing", .type ⟨3⟩), ("hub::Lookup", .interface), ("hub::ByLabel", .type ⟨2⟩),
    ("hub::Label", .alias "string" ⟨["hub"]⟩), ("hub::Nodes", .type ⟨1⟩), ("hub::Node", .type ⟨0⟩)]

theorem names_of_hub {declared : Draft}
    (h : declareModules .root hub.modules {} = .ok ((), declared)) : declared.names = hubNames := by
  have hnames : (declareModules .root hub.modules {}).toOption.map (·.2.names) = some hubNames := by
    decide +kernel
  rw [h] at hnames
  exact Option.some.inj hnames

/-- A node is defined after its forward declaration, and references denote its definition. -/
theorem build_keeps_definitions_hub :
    ∃ s look id type, build hub = .ok s ∧ Gives hubNames ⟨⟨["hub"]⟩, "Node"⟩ (.declared id) ∧
      TypeDef.placed? look ⟨⟨["hub", "Node"]⟩,
        .record [⟨"label", "Label"⟩, ⟨"inner", "::hub::Nodes"⟩]⟩ = some type ∧
      s.types[id.index]? = some type := by
  have hbuilt : (build hub).toOption.map (fun _ => ()) = some () := by decide +kernel
  obtain ⟨s, hs, -⟩ := exists_ok_of_toOption hbuilt
  obtain ⟨declared, look, hdeclare, -, hdefinitions, -⟩ := build_keeps_definitions hub s hs
  have hmeans : Means hubNames ⟨["hub"]⟩ "Node" "hub::Node" (.type ⟨0⟩) := by
    refine .relative (absolute?_eq_none_iff.mp (by decide)) (List.prefix_refl ["hub"])
      ⟨by decide, nofun⟩ ?_
    intro inner hinner hlt
    exact absurd hinner.length_le (Nat.not_le_of_lt hlt)
  rw [names_of_hub hdeclare] at hdefinitions
  obtain ⟨hnode, -⟩ := hdefinitions ⟨⟨["hub", "Node"]⟩,
    .record [⟨"label", "Label"⟩, ⟨"inner", "::hub::Nodes"⟩]⟩ (by decide) nofun ⟨⟨["hub"]⟩, "Node"⟩
    ⟨by decide, _, hmeans⟩
  obtain ⟨id, type, hgives, hplaced, htype⟩ := hnode fun hhides => nomatch hhides.1
  exact ⟨s, look, id, type, hs, hgives, hplaced, htype⟩

/-- A name with a forward declaration and an alias, and a record that refers to it. -/
def veiled : Document where
  modules := [{
    name := "m"
    modules := []
    types := [⟨"T", .forward⟩, ⟨"T", .alias "string"⟩, ⟨"S", .record [⟨"t", "T"⟩]⟩]
    interfaces := []
    constants := [] }]

/-- The alias is not seen: the member has a type without a definition, and not the type of texts. -/
theorem build_veiled_undefined :
    (∃ s, build veiled = .ok s ∧ s.types.toList = [.forward ⟨["m", "T"]⟩,
      .record ⟨⟨["m", "S"]⟩, .plain, [⟨"t", ⟨0⟩⟩]⟩]) ∧
    ⟨⟨["m", "T"]⟩, .alias "string"⟩ ∈ veiled.declarations :=
  ⟨exists_ok_of_toOption (by decide +kernel), by decide⟩

/-- A reference denotes a type, which has a place in the schema. -/
def Resolved (s : Schema) (names : List (String × Declared)) (r : Reference) : Prop :=
  ∃ den id, Gives names r den ∧ s.Holds id den

theorem Completes.resolved {declared last : Draft} {modules : List Module}
    (h : Completes doc declared last modules) (huses : doc.Uses declared.names t) :
    Resolved ⟨last.types, modules⟩ declared.names t := by
  obtain ⟨r, hr, hway⟩ := huses
  obtain ⟨id, den, hgives, hholds⟩ := h.placed r hr
  rw [h.names_eq] at hgives
  exact ⟨den, id, hway.gives_iff.mp hgives, by cases den <;> exact hholds⟩

theorem unique_declared {declared declared' : Draft}
    (h : declareModules .root doc.modules {} = .ok ((), declared))
    (h' : declareModules .root doc.modules {} = .ok ((), declared')) : declared = declared' := by
  rw [h] at h'
  exact (Prod.mk.inj (Except.ok.inj h')).2

theorem isOther_of_isReferenceFault {e : SchemaError} (h : e.IsReferenceFault) :
    e.IsOther := by
  cases e with
  | unknownType | aliasCycle => exact not_false
  | _ => cases h

/-- If nothing else is wrong with a document, it is rejected for a reference. -/
theorem isReferenceFault_of_rejects {declared : Draft} {e : SchemaError} (h : Rejects doc e)
    (hdeclare : declareModules .root doc.modules {} = .ok ((), declared))
    (hproper : doc.IsProper declared.names) (hother : e.IsOther) : e.IsReferenceFault := by
  rcases h with ⟨⟨x, hx, hclash⟩, -⟩ | ⟨declared', hdeclare', hfaults⟩
  · have hreflects := (ends_declareModules_reflects doc).of_ok hdeclare
    exact absurd hclash (hreflects.ne_clash _)
  · obtain rfl := unique_declared hdeclare hdeclare'
    rcases hfaults hother with ⟨r, -, hfails⟩ | ⟨hbroken, -⟩
    · exact Denotes.isReferenceFault hfails rfl
    · exact absurd hproper hbroken

/-- In an accepted document every reference denotes a type, and so does the target of every alias
that references come to. A document with a reference that denotes nothing is rejected, and unless it
breaks another rule, the error is the one for a reference that it writes. -/
theorem build_answers_references (doc : Document) :
    (∀ s, build doc = .ok s → ∃ declared,
      declareModules .root doc.modules {} = .ok ((), declared) ∧
      (∀ r ∈ doc.references, s.Resolved declared.names r) ∧
      ∀ t ∈ doc.aliasTargets, doc.Uses declared.names t → s.Resolved declared.names t) ∧
    (∀ e, build doc = .error e → e.IsReferenceFault → ∃ declared,
      declareModules .root doc.modules {} = .ok ((), declared) ∧
      ∃ r ∈ doc.references, Fails declared.names r e) ∧
    ∀ declared, declareModules .root doc.modules {} = .ok ((), declared) →
      ∀ t, doc.Uses declared.names t → (∀ den, ¬ Gives declared.names t den) →
      ∃ e, build doc = .error e ∧ (doc.IsProper declared.names →
        (∀ fault, ¬ BreaksInterfaces doc.interfaces fault) → e.IsReferenceFault) := by
  refine ⟨?_, ?_, ?_⟩
  · intro s h
    obtain ⟨declared, last, hcompletes, htypes⟩ := completes_of_build h
    obtain ⟨types, modules⟩ := s
    obtain rfl : types = last.types := htypes
    refine ⟨declared, hcompletes.declares, ?_, fun t _ huses => hcompletes.resolved huses⟩
    exact fun r hr => hcompletes.resolved ⟨r, hr, .start⟩
  · intro e h hfault
    rcases rejects_of_build h with ⟨-, hother⟩ | ⟨declared, hdeclare, hfaults⟩
    · exact absurd hfault hother
    · rcases hfaults (isOther_of_isReferenceFault hfault) with hfails | ⟨-, hnot⟩
      · exact ⟨declared, hdeclare, hfails⟩
      · exact absurd hfault hnot
  · intro declared hdeclare t huses hnone
    cases h : build doc with
    | ok s =>
      obtain ⟨declared', last, hcompletes, -⟩ := completes_of_build h
      obtain rfl := unique_declared hdeclare hcompletes.declares
      obtain ⟨den, -, hgives, -⟩ := hcompletes.resolved huses
      exact absurd hgives (hnone den)
    | error e =>
      refine ⟨e, rfl, fun hproper hrules => ?_⟩
      apply isReferenceFault_of_rejects (rejects_of_build h) hdeclare hproper
      intro hfault
      exact hrules e ((ends_construct doc).of_error (construct_of_build_eq_error h) hfault)

/-- Two aliases of each other, and a sequence that refers to one of them. -/
def looped : Document where
  modules := [{
    name := "m"
    modules := []
    types := [⟨"A", .alias "B"⟩, ⟨"B", .alias "A"⟩, ⟨"S", .sequence "A"⟩]
    interfaces := []
    constants := [] }]

theorem build_answers_references_hub :
    (∃ s, build hub = .ok s ∧ (∀ r ∈ hub.references, s.Resolved hubNames r) ∧
      s.Resolved hubNames ⟨⟨["hub"]⟩, "string"⟩) ∧
    build looped = .error (.aliasCycle "m::A") ∧
    ∃ declared, declareModules .root looped.modules {} = .ok ((), declared) ∧
      ∃ r ∈ looped.references, Fails declared.names r (.aliasCycle "m::A") := by
  constructor
  · have hbuilt : (build hub).toOption.map (fun _ => ()) = some () := by decide +kernel
    obtain ⟨s, hs, -⟩ := exists_ok_of_toOption hbuilt
    obtain ⟨declared, hdeclare, hreferences, htargets⟩ := (build_answers_references hub).1 s hs
    rw [names_of_hub hdeclare] at hreferences htargets
    have hmeans : Means hubNames ⟨["hub"]⟩ "Label" "hub::Label" (.alias "string" ⟨["hub"]⟩) :=
      (Draft.refersTo?_eq_alias_iff (d := { names := hubNames })).mp (by decide +kernel)
    have huses : hub.Uses hubNames ⟨⟨["hub"]⟩, "string"⟩ :=
      ⟨⟨⟨["hub"]⟩, "Label"⟩, by decide, .alias .start (by decide) hmeans⟩
    exact ⟨s, hs, hreferences, htargets _ (by decide) huses⟩
  · have hfault : (match build looped with
        | .ok _ => none
        | .error e => some e) = some (.aliasCycle "m::A") := by decide +kernel
    cases h : build looped with
    | ok s =>
      rw [h] at hfault
      cases hfault
    | error e =>
      rw [h] at hfault
      obtain rfl := Option.some.inj hfault
      exact ⟨rfl, (build_answers_references looped).2.1 _ h trivial⟩

/-- An alias that nothing refers to, of a type that is declared nowhere. -/
def stray : Document where
  modules := [{
    name := "m"
    modules := []
    types := [⟨"A", .alias "Missing"⟩]
    interfaces := []
    constants := [] }]

/-- The document is accepted, and the target of its alias denotes nothing. -/
theorem build_stray_unresolved :
    (∃ s, build stray = .ok s ∧ s.types.size = 0) ∧
    ⟨⟨["m"]⟩, "Missing"⟩ ∈ stray.aliasTargets ∧
    ∃ declared, declareModules .root stray.modules {} = .ok ((), declared) ∧
      Fails declared.names ⟨⟨["m"]⟩, "Missing"⟩ (.unknownType "m" "Missing") := by
  refine ⟨exists_ok_of_toOption (by decide +kernel), by decide, ?_⟩
  have hnames : (declareModules .root stray.modules {}).toOption.map (·.2.names) =
      some [("m::A", .alias "Missing" ⟨["m"]⟩)] := by decide +kernel
  obtain ⟨⟨⟨⟩, declared⟩, hdeclare, hnames⟩ := exists_ok_of_toOption hnames
  refine ⟨declared, hdeclare, .unknown (by decide) ?_⟩
  rw [show declared.names = _ from hnames]
  exact Draft.refersTo?_eq_none_iff.mp
    (show Draft.refersTo? { names := [("m::A", .alias "Missing" ⟨["m"]⟩)] } ⟨["m"]⟩ "Missing" = none
      by decide +kernel)

end Schema
end WireSchema
