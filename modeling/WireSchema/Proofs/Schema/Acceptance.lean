import WireSchema.Proofs.Schema.Assembly

/-!
# Accepted and rejected documents

Whether a document is accepted is said by rules in which the order of its declarations does not
occur: no name clashes, every reference denotes a type, and declarations, keys of maps and what is
assembled are as they have to be. The schema of an accepted document is what its declarations say,
with every reference replaced by its place.
-/
namespace WireSchema

open Schema

namespace Document

/-- A type whose values have a total order: a primitive one, or an enumeration of the document. -/
def Orders (doc : Document) (names : List (String × Declared)) : Denotation → Prop
  | .primitive type => type.isOrderable = true
  | .declared id => ∃ name enumerators, ⟨name, .enumeration enumerators⟩ ∈ doc.declarations ∧
      names.lookup name.text = some (.type id)

/-- The rules for a document whose names are declared, those for references and interfaces apart. -/
structure IsProper (doc : Document) (names : List (String × Declared)) : Prop where
  declarations : ∀ x ∈ doc.declarations, Schema.IsProper x
  keys : ∀ name key value, ⟨name, .map key value⟩ ∈ doc.declarations →
    ∀ den, Gives names ⟨name.scope, key⟩ den → doc.Orders names den
  clauses : ∀ c ∈ doc.clauses, Clause.IsProper names c

/-- A name clashes. -/
def Clashes (doc : Document) : Prop := ∃ e ∈ doc.entries, standing doc.entries e.key = .clash

def Declaration.IsDefinition (x : Declaration) : Prop :=
  x.body ≠ .forward ∧ ∀ target, x.body ≠ .alias target

theorem Declaration.isDefinition_of_references {x : Declaration} {r : Reference}
    (h : r ∈ x.references) : x.IsDefinition := by
  obtain ⟨name, body⟩ := x
  cases body with
  | enumeration | «alias» | forward => cases h
  | _ => exact ⟨nofun, fun _ => nofun⟩

end Document

namespace Schema

open Document (Declaration Clause Reference)

variable {doc : Document} {d d' : Draft} {x : Declaration}

theorem Draft.Reflects.pending_declared (h : d.Reflects doc.entries) {p : Pending}
    (hp : p ∈ d.pending) : p.declaration ∈ doc.declarations := by
  obtain ⟨shown, hdefined⟩ := h.waiting p hp
  exact (defined_declaration hdefined).2.1.1

/-- A declaration that defines a type is the one that counts for its name. -/
theorem standing_of_isDefinition (hx : x ∈ doc.declarations) (hdefines : x.IsDefinition)
    (hclash : standing doc.entries x.name.text ≠ .clash) :
    ∃ shown, standing doc.entries x.name.text = .defined shown x.name x.body := by
  have hadmits := admits_standing hx
  cases hst : standing doc.entries x.name.text with
  | announced shown =>
    rw [hst] at hadmits
    exact absurd hadmits hdefines.1
  | defined shown name body =>
    rw [hst] at hadmits
    rcases hadmits with rfl | hforward
    · exact ⟨shown, rfl⟩
    · exact absurd hforward hdefines.1
  | synonym target scope =>
    rw [hst] at hadmits
    exact absurd hadmits.1 (hdefines.2 target)
  | clash => exact absurd hst hclash
  | unseen | interface =>
    rw [hst] at hadmits
    exact hadmits.elim

theorem Draft.Reflects.ne_clash (h : d.Reflects doc.entries) (key : String) :
    standing doc.entries key ≠ .clash := by
  intro hclash
  have hstands := h.stands key
  rw [hclash] at hstands
  exact hstands

theorem Draft.Reflects.exists_pending (h : d.Reflects doc.entries) (hx : x ∈ doc.declarations)
    (hdefines : x.IsDefinition) : ∃ p ∈ d.pending, p.declaration = x := by
  obtain ⟨shown, hdefined⟩ := standing_of_isDefinition hx hdefines (h.ne_clash _)
  have hstands := h.stands x.name.text
  rw [hdefined] at hstands
  obtain ⟨-, id, -, -, -, hpending⟩ := hstands
  exact ⟨_, hpending, rfl⟩

theorem Draft.Reflects.mem_references_iff (h : d.Reflects doc.entries) {r : Reference} :
    r ∈ d.pending.flatMap (·.declaration.references) ↔
      r ∈ doc.declarations.flatMap (·.references) := by
  constructor
  · intro hr
    obtain ⟨p, hp, hr⟩ := List.mem_flatMap.mp hr
    exact List.mem_flatMap.mpr ⟨_, h.pending_declared hp, hr⟩
  · intro hr
    obtain ⟨x, hx, hr⟩ := List.mem_flatMap.mp hr
    obtain ⟨p, hp, rfl⟩ := h.exists_pending hx (Declaration.isDefinition_of_references hr)
    exact List.mem_flatMap.mpr ⟨p, hp, hr⟩

theorem isProper_of_not_isDefinition (h : ¬ x.IsDefinition) : IsProper x := by
  obtain ⟨name, body⟩ := x
  cases body with
  | «alias» | forward => trivial
  | _ => exact absurd ⟨nofun, fun _ => nofun⟩ h

/-- A draft in which all definitions are made shows what became of a name. -/
def Draft.Shows (look : Reference → TypeId) (d : Draft) (key : String) : Standing → Prop
  | .unseen => d.names.lookup key = none
  | .announced shown => ∃ id, d.names.lookup key = some (.type id) ∧
      d.types[id.index]? = some (.forward shown)
  | .defined shown name body => ∃ id, d.names.lookup key = some (.type id) ∧
      d.types[id.index]? = some ((TypeDef.placed? look ⟨name, body⟩).getD (.forward shown))
  | .synonym target scope => d.names.lookup key = some (.alias target scope)
  | .interface => d.names.lookup key = some .interface
  | .clash => False

theorem Draft.Stands.shows {look : Reference → TypeId} {key : String} {st : Standing}
    (h : d.Stands key st) (htidy : d.Tidy) (hfills : d.Fills look d.pending d')
    (hnames : d'.names = d.names) : d'.Shows look key st := by
  cases st with
  | announced shown =>
    obtain ⟨-, id, hid, htype, hforward⟩ := h
    refine ⟨id, hnames ▸ hid, hfills.kept ?_ htype⟩
    intro p hp hsame
    obtain rfl : p.id = id := congrArg TypeId.mk hsame
    exact htidy.apart p hp hforward
  | defined shown name body =>
    obtain ⟨-, id, hid, htype, -, hpending⟩ := h
    exact ⟨id, hnames ▸ hid, hfills.filled _ hpending htype⟩
  | clash => exact h
  | _ => exact (congrArg (List.lookup key) hnames).trans h

theorem Draft.Shows.keeps {look : Reference → TypeId} {key : String} {st : Standing}
    (h : d.Shows look key st) (hkeeps : d.Keeps d') : d'.Shows look key st := by
  cases st with
  | announced shown =>
    obtain ⟨id, hid, htype⟩ := h
    exact ⟨id, hkeeps.names_eq ▸ hid, hkeeps.type_eq htype⟩
  | defined shown name body =>
    obtain ⟨id, hid, htype⟩ := h
    exact ⟨id, hkeeps.names_eq ▸ hid, hkeeps.type_eq htype⟩
  | clash => exact h
  | _ => exact (congrArg (List.lookup key) hkeeps.names_eq).trans h

theorem Draft.Shows.exists_type {look : Reference → TypeId}
    (hshown : d.Shows look x.name.text (standing doc.entries x.name.text))
    (hx : x ∈ doc.declarations) (hdefines : x.IsDefinition) :
    ∃ id type, d.names.lookup x.name.text = some (.type id) ∧
      TypeDef.placed? look x = some type ∧ d.types[id.index]? = some type := by
  have hclash : standing doc.entries x.name.text ≠ .clash := by
    intro hclash
    rw [hclash] at hshown
    exact hshown
  obtain ⟨shown, hst⟩ := standing_of_isDefinition hx hdefines hclash
  rw [hst] at hshown
  obtain ⟨id, hid, htype⟩ := hshown
  have hplaced : ∃ type, TypeDef.placed? look x = some type := by
    obtain ⟨name, body⟩ := x
    cases body with
    | «alias» target => exact absurd rfl (hdefines.2 target)
    | forward => exact absurd rfl hdefines.1
    | _ => exact ⟨_, rfl⟩
  obtain ⟨type, hplaced⟩ := hplaced
  refine ⟨id, type, hid, hplaced, ?_⟩
  rwa [hplaced, Option.getD_some] at htype

section Table

variable {look : Reference → TypeId} (hd : d.Sound)
  (hshows : ∀ key, d.Shows look key (standing doc.entries key))
include hd hshows

/-- A type with a name is the definition that counts for the name, or the name is only announced. -/
theorem Draft.Sound.type_cases {i : Nat} {type : TypeDef} {name : QualifiedName}
    (htype : d.types[i]? = some type) (hname : type.name? = some name) :
    (∃ shown, standing doc.entries name.text = .announced shown ∧ type = .forward shown) ∨
      ∃ shown defined body, standing doc.entries name.text = .defined shown defined body ∧
        type = (TypeDef.placed? look ⟨defined, body⟩).getD (.forward shown) := by
  have hplace := hd.place_of_name htype hname
  have hshown := hshows name.text
  cases hst : standing doc.entries name.text with
  | announced shown =>
    rw [hst] at hshown
    obtain ⟨id, hid, htype'⟩ := hshown
    obtain rfl := Declared.type.inj (Option.some.inj (hplace.symm.trans hid))
    exact .inl ⟨shown, rfl, Option.some.inj (htype.symm.trans htype')⟩
  | defined shown defined body =>
    rw [hst] at hshown
    obtain ⟨id, hid, htype'⟩ := hshown
    obtain rfl := Declared.type.inj (Option.some.inj (hplace.symm.trans hid))
    exact .inr ⟨shown, defined, body, rfl, Option.some.inj (htype.symm.trans htype')⟩
  | clash =>
    rw [hst] at hshown
    exact hshown.elim
  | unseen | synonym | interface =>
    rw [hst] at hshown
    cases hplace.symm.trans hshown

theorem Draft.Sound.orders_iff {r : Reference} {id : TypeId} {den : Denotation}
    (hgives : Gives d.names r den) (hholds : d.Holds id den) :
    doc.Orders d.names den ↔ (d.types.getD id.index (.forward .root)).isOrderable = true := by
  rw [Array.getD_eq_getD_getElem?]
  cases den with
  | primitive type =>
    rw [show d.types[id.index]? = some type from hholds]
    rfl
  | declared place =>
    obtain rfl : id = place := hholds
    obtain ⟨type, name, htype, hname⟩ := hd.exists_type_of_declared hgives
    have hplace := hd.place_of_name htype hname
    rw [htype, Option.getD_some]
    constructor
    · rintro ⟨other, enumerators, hmem, hother⟩
      have hadmits := admits_standing hmem
      rw [hd.name_unique hother hplace] at hadmits
      rcases hd.type_cases hshows htype hname with ⟨shown, hst, rfl⟩ |
        ⟨shown, defined, body, hst, rfl⟩
      · rw [hst] at hadmits
        cases hadmits
      · rw [hst] at hadmits
        rcases hadmits with heq | hforward
        · obtain ⟨rfl, rfl⟩ := Declaration.mk.inj heq
          rfl
        · cases hforward
    · intro horder
      rcases hd.type_cases hshows htype hname with ⟨shown, hst, rfl⟩ |
        ⟨shown, defined, body, hst, rfl⟩
      · cases horder
      · cases body with
        | enumeration enumerators =>
          obtain ⟨-, ⟨hmem, htext⟩, -⟩ := defined_declaration hst
          exact ⟨defined, enumerators, hmem, htext ▸ hplace⟩
        | _ => cases horder

/-- A map in the table is one that is declared. -/
theorem Draft.Sound.exists_map {i : Nat} {m : MapType} (htype : d.types[i]? = some (.map m)) :
    ∃ key value, ⟨m.name, .map key value⟩ ∈ doc.declarations ∧
      m.key = look ⟨m.name.scope, key⟩ ∧ m.value = look ⟨m.name.scope, value⟩ := by
  rcases hd.type_cases hshows htype rfl with ⟨shown, -, hforward⟩ |
    ⟨shown, defined, body, hst, hmap⟩
  · cases hforward
  · cases body with
    | map key value =>
      obtain rfl := TypeDef.map.inj hmap
      exact ⟨key, value, (defined_declaration hst).2.1.1, rfl, rfl⟩
    | _ => cases hmap

theorem Draft.Sound.keys_iff (hlook : d.Fits look)
    (hplaced : ∀ r ∈ doc.declarations.flatMap (·.references), ∃ id, d.Places r id) :
    (∀ m, .map m ∈ d.types.toList →
      (d.types.getD m.key.index (.forward .root)).isOrderable = true) ↔
    ∀ name key value, ⟨name, .map key value⟩ ∈ doc.declarations →
      ∀ den, Gives d.names ⟨name.scope, key⟩ den → doc.Orders d.names den := by
  have hkey : ∀ {name : QualifiedName} {key value : String},
      ⟨name, .map key value⟩ ∈ doc.declarations → ∃ den,
        Gives d.names ⟨name.scope, key⟩ den ∧ d.Holds (look ⟨name.scope, key⟩) den := by
    intro name key value hmem
    obtain ⟨id, den, hgives, hholds⟩ :=
      hplaced ⟨name.scope, key⟩ (List.mem_flatMap.mpr ⟨_, hmem, List.mem_cons_self⟩)
    refine ⟨den, hgives, ?_⟩
    rwa [hlook _ id ⟨den, hgives, hholds⟩]
  constructor
  · intro hordered name key value hmem den hgives
    obtain ⟨den', hgives', hholds⟩ := hkey hmem
    obtain rfl := Except.ok.inj (Denotes.unique hgives' hgives)
    rw [hd.orders_iff hshows hgives hholds]
    obtain ⟨id, type, -, hplaced, htype⟩ :=
      (hshows name.text).exists_type hmem ⟨nofun, fun _ => nofun⟩
    obtain rfl := Option.some.inj hplaced
    have hmap := hordered _ (Array.mem_toList_iff.mpr (Array.mem_of_getElem? htype))
    exact hmap
  · intro hrule m hm
    obtain ⟨i, htype⟩ := List.mem_iff_getElem?.mp hm
    rw [Array.getElem?_toList] at htype
    obtain ⟨key, value, hmem, hmkey, -⟩ := hd.exists_map hshows htype
    obtain ⟨den, hgives, hholds⟩ := hkey hmem
    rw [hmkey, ← hd.orders_iff hshows hgives hholds]
    exact hrule m.name key value hmem den hgives

end Table

/-- The check of the keys fails for a map of the table whose keys have no order. -/
theorem checkMapKeys_cases (types : Array TypeDef) :
    (checkMapKeys types = .ok () ∧ ∀ m, .map m ∈ types.toList →
      (types.getD m.key.index (.forward .root)).isOrderable = true) ∨
    ∃ e, checkMapKeys types = .error e ∧ ¬ e.IsReferenceFault ∧ ∃ m, .map m ∈ types.toList ∧
      ¬ (types.getD m.key.index (.forward .root)).isOrderable = true := by
  unfold checkMapKeys
  generalize types.toList = checked
  induction checked with
  | nil => exact .inl ⟨rfl, by simp⟩
  | cons type checked ih =>
    rw [List.forM]
    cases type with
    | map m =>
      by_cases hkey : (types.getD m.key.index (.forward .root)).isOrderable
      · dsimp only
        rw [if_pos hkey]
        rcases ih with ⟨hok, hall⟩ | ⟨e, he, hfault, m', hm', hkey'⟩
        · refine .inl ⟨hok, ?_⟩
          intro m' hm'
          rcases List.mem_cons.mp hm' with hm' | hm'
          · rwa [TypeDef.map.inj hm']
          · exact hall m' hm'
        · exact .inr ⟨e, he, hfault, m', List.mem_cons_of_mem _ hm', hkey'⟩
      · dsimp only
        rw [if_neg hkey]
        exact .inr ⟨_, rfl, id, m, List.mem_cons_self, hkey⟩
    | _ =>
      rcases ih with ⟨hok, hall⟩ | ⟨e, he, hfault, m', hm', hkey'⟩
      · exact .inl ⟨hok, by simpa using hall⟩
      · exact .inr ⟨e, he, hfault, m', List.mem_cons_of_mem _ hm', hkey'⟩

/-- What an accepted document comes to. -/
structure Completes (doc : Document) (declared last : Draft) (modules : List Module) : Prop where
  declares : declareModules .root doc.modules {} = .ok ((), declared)
  reflects : declared.Reflects doc.entries
  names_eq : last.names = declared.names
  ready : last.Ready
  placed : ∀ r ∈ doc.references, ∃ id, last.Places r id
  used : ∀ {i : Nat} {type : TypeDef}, last.types[i]? = some type → type.name? = none →
    ∃ r ∈ doc.references, Gives declared.names r (.primitive type)
  proper : doc.IsProper declared.names
  shows : ∀ look, last.Fits look → ∀ key, last.Shows look key (standing doc.entries key)
  modules_eq : ∀ look, last.Fits look →
    modules = placedModules look declared.names .root doc.modules

/-- Why a document is rejected, if it is not for a rule for interfaces. -/
def Rejects (doc : Document) (e : SchemaError) : Prop :=
  doc.Clashes ∧ ¬ e.IsReferenceFault ∨
    ∃ declared, declareModules .root doc.modules {} = .ok ((), declared) ∧
      Faults declared.names doc.references (doc.IsProper declared.names) e

theorem Draft.Declaring.name?_ne_none {P : QualifiedName → Prop} {interfaces : List String}
    (h : Declaring P interfaces d) {i : Nat} {type : TypeDef} (htype : d.types[i]? = some type) :
    type.name? ≠ none := by
  induction h with
  | empty => simp at htype
  | reserve _ _ _ ih =>
    obtain ⟨-, rfl⟩ | htype := getElem?_push_eq_some htype
    · exact nofun
    · exact ih htype
  | synonym _ _ ih | interface _ _ ih | await _ _ _ ih | forwardOnly _ _ ih => exact ih htype

theorem Draft.Declaring.ready {P : QualifiedName → Prop} {interfaces : List String}
    (h : Declaring P interfaces d) : d.Ready := by
  refine ⟨h.sound, ?_⟩
  intro name id hknown
  rw [h.aliases_eq] at hknown
  cases hknown

/-- A draft in which the definitions of a document are made. -/
structure Defines (doc : Document) (declared defined : Draft) : Prop where
  ready : defined.Ready
  names_eq : defined.names = declared.names
  uids_eq : defined.interfaceUids = []
  placed : ∀ r ∈ doc.declarations.flatMap (·.references), ∃ id, defined.Places r id
  used : ∀ {i : Nat} {type : TypeDef}, defined.types[i]? = some type → type.name? = none →
    ∃ r ∈ doc.declarations.flatMap (·.references), Gives defined.names r (.primitive type)
  proper : ∀ x ∈ doc.declarations, IsProper x
  shows : ∀ look, defined.Fits look → ∀ key, defined.Shows look key (standing doc.entries key)

theorem ends_defineAll_defines {declared : Draft}
    (hdeclare : declareModules .root doc.modules {} = .ok ((), declared))
    (hreflects : declared.Reflects doc.entries) :
    defineAll.Ends declared (fun _ defined => Defines doc declared defined)
      (Faults declared.names doc.references (doc.IsProper declared.names)) := by
  have hdeclaring := declaring_declareModules .empty hdeclare
  have hready := hdeclaring.ready
  have hprepares := ((ends_declareModules .root doc.modules {}).of_ok hdeclare).1
  have htidy := hprepares.tidy Draft.tidy_empty
  refine (ends_defineAll_fills hready htidy).with_run.mono ?_ ?_
  · rintro _ defined ⟨⟨hadvances, hproper, hfills⟩, hdefine⟩
    obtain ⟨hsound, hext⟩ := hready.sound.reaches hadvances.reaches
    refine ⟨hready.reaches hadvances.reaches, hext.names_eq, ?_, ?_, ?_, ?_, ?_⟩
    · rw [((ends_defineAll htidy).of_ok hdefine).uids_eq, hprepares.uids_eq]
    · exact fun r hr => hadvances.placed r (hreflects.mem_references_iff.mpr hr)
    · intro i type htype hname
      rcases hadvances.used htype hname with htype | ⟨r, hr, hgives⟩
      · exact absurd hname (hdeclaring.name?_ne_none htype)
      · exact ⟨r, hreflects.mem_references_iff.mp hr, hext.names_eq ▸ hgives⟩
    · intro x hx
      by_cases hdefines : x.IsDefinition
      · obtain ⟨p, hp, rfl⟩ := hreflects.exists_pending hx hdefines
        exact hproper p hp
      · exact isProper_of_not_isDefinition hdefines
    · intro look hlook key
      exact (hreflects.stands key).shows htidy (hfills look hlook) hext.names_eq
  · intro e he
    refine he.mono ?_ fun hproper p hp => hproper.declarations _ (hreflects.pending_declared hp)
    exact fun r hr => List.mem_append_left _ (hreflects.mem_references_iff.mp hr)

theorem Defines.ends_checkMapKeys {declared defined : Draft} (h : Defines doc declared defined) :
    (liftM (checkMapKeys defined.types) : Build Unit).Ends defined
      (fun _ d' => defined = d' ∧ ∀ name key value, ⟨name, .map key value⟩ ∈ doc.declarations →
        ∀ den, Gives declared.names ⟨name.scope, key⟩ den → doc.Orders declared.names den)
      (Faults declared.names doc.references (doc.IsProper declared.names)) := by
  obtain ⟨look, hlook⟩ := h.ready.sound.exists_fits
  have hkeys := h.ready.sound.keys_iff (h.shows look hlook) hlook h.placed
  rw [h.names_eq] at hkeys
  refine Build.ends_lift ?_ ?_
  · intro _ hok
    rcases checkMapKeys_cases defined.types with ⟨-, hall⟩ | ⟨e, he, -⟩
    · exact ⟨rfl, hkeys.mp hall⟩
    · cases hok.symm.trans he
  · intro e he
    rcases checkMapKeys_cases defined.types with ⟨hok, -⟩ | ⟨e', he', hfault, m, hm, hkey⟩
    · cases he.symm.trans hok
    · obtain rfl := Except.error.inj (he.symm.trans he')
      exact faults_of_not (fun hproper => hkey (hkeys.mpr hproper.keys m hm)) hfault

theorem Defines.keeps {declared defined last : Draft} {modules : List Module}
    (h : Defines doc declared defined)
    (hrun : assembleModules .root doc.modules defined = .ok (modules, last)) :
    defined.Keeps last := by
  have hstart : defined.Assembling [] [] := ⟨⟨.nil, by simp⟩, h.uids_eq⟩
  exact ((ends_assembleModules .root doc.modules hstart).of_ok hrun).1

/-- Building completes the document, or it is rejected. -/
theorem ends_construct_completes (doc : Document) :
    (construct doc).Ends {} (fun modules last => ∃ declared, Completes doc declared last modules)
      (Rejects doc) := by
  unfold construct
  refine Build.Ends.bind ((ends_declareModules_reflects doc).with_run.mono (fun _ _ h => h) ?_) ?_
  · rintro e ⟨x, hx, hclash, rfl⟩
    exact .inl ⟨⟨x, hx, hclash⟩, id⟩
  rintro _ declared ⟨hreflects, hdeclare⟩
  refine Build.Ends.bind ((ends_defineAll_defines hdeclare hreflects).mono (fun _ _ h => h)
    fun e he => .inr ⟨declared, hdeclare, he⟩) ?_
  intro _ defined hdefined
  apply Build.ends_get_bind
  refine Build.Ends.bind (hdefined.ends_checkMapKeys.mono (fun _ _ h => h)
    fun e he => .inr ⟨declared, hdeclare, he⟩) ?_
  rintro _ _ ⟨rfl, hkeys⟩
  have hassembled := yields_assembleModules hdefined.ready .root doc.modules
  rw [hdefined.names_eq] at hassembled
  refine (Build.Ends.with_run hassembled).mono ?_ ?_
  · rintro modules last ⟨⟨hlast, hclauses, hmodules⟩, hrun⟩
    have hkeeps := hdefined.keeps hrun
    obtain ⟨hsound, hext⟩ := hdefined.ready.sound.reaches hlast.reaches
    refine ⟨declared, hdeclare, hreflects, hkeeps.names_eq.trans hdefined.names_eq,
      hdefined.ready.reaches hlast.reaches, ?_, ?_, ⟨hdefined.proper, hkeys, hclauses⟩, ?_,
      hmodules⟩
    · refine List.forall_mem_append.mpr ⟨fun r hr => ?_, hlast.placed⟩
      obtain ⟨id, hplaces⟩ := hdefined.placed r hr
      exact ⟨id, hplaces.mono hext⟩
    · intro i type htype hname
      rcases hlast.used htype hname with htype | ⟨r, hr, hgives⟩
      · obtain ⟨r, hr, hgives⟩ := hdefined.used htype hname
        exact ⟨r, List.mem_append_left _ hr, hdefined.names_eq ▸ hgives⟩
      · exact ⟨r, List.mem_append_right _ hr, hdefined.names_eq ▸ hgives⟩
    · intro look hlook key
      exact (hdefined.shows look (hlook.mono hext) key).keeps hkeeps
  · intro e he
    rw [hdefined.names_eq] at he
    exact .inr ⟨declared, hdeclare, he.mono (List.subset_append_right _ _) (·.clauses)⟩

/-- The drafts through which an accepted document goes. -/
theorem completes_of_build {s : Schema} (h : build doc = .ok s) :
    ∃ declared last, Completes doc declared last s.modules ∧ s.types = last.types := by
  obtain ⟨last, hrun, htypes⟩ := construct_of_build_eq_ok h
  obtain ⟨declared, hcompletes⟩ := (ends_construct_completes doc).of_ok hrun
  exact ⟨declared, last, hcompletes, htypes⟩

/-- A type that is defined stands in the table. -/
theorem getElem?_of_type {s : Schema} {id : TypeId} {type : TypeDef} (h : s.type id = type)
    (hdefined : ∀ name, type ≠ .forward name) : s.types[id.index]? = some type := by
  unfold Schema.type at h
  rw [Array.getD_eq_getD_getElem?] at h
  cases hslot : s.types[id.index]? with
  | none =>
    rw [hslot] at h
    exact absurd h.symm (hdefined .root)
  | some found =>
    rw [hslot] at h
    exact congrArg some h

/-- The keys of the maps of a schema have an order. -/
theorem isOrderable_key {s : Schema} (h : build doc = .ok s) {id : TypeId} {m : MapType}
    (ht : s.type id = .map m) : (s.type m.key).isOrderable := by
  obtain ⟨declared, last, hcompletes, htypes⟩ := completes_of_build h
  obtain ⟨look, hlook⟩ := hcompletes.ready.sound.exists_fits
  have hkeys := hcompletes.ready.sound.keys_iff (hcompletes.shows look hlook) hlook
    fun r hr => hcompletes.placed r (List.mem_append_left _ hr)
  rw [hcompletes.names_eq, ← htypes] at hkeys
  refine hkeys.mpr hcompletes.proper.keys m (Array.mem_toList_iff.mpr ?_)
  exact Array.mem_of_getElem? (getElem?_of_type ht (by simp))

theorem rejects_of_build {e : SchemaError} (h : build doc = .error e) : Rejects doc e :=
  (ends_construct_completes doc).of_error (construct_of_build_eq_error h)

theorem exists_ok_of_toOption {ε α β : Type} {x : Except ε α} {f : α → β} {b : β}
    (h : x.toOption.map f = some b) : ∃ a, x = .ok a ∧ f a = b := by
  cases x with
  | error e => cases h
  | ok a => exact ⟨a, rfl, Option.some.inj h⟩

end Schema
end WireSchema
