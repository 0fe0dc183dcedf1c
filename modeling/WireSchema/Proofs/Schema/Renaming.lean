import Mathlib.Data.List.Nodup
import Mathlib.Data.List.Perm.Basic
import Mathlib.Data.Set.Function
import WireSchema.Proofs.Schema.Acceptance
import WireSchema.Proofs.Schema.Listing

/-!
# Places under other numbers

Two drafts can hold the same types at different places. If the names of one are those of the other
with the places renamed, references denote the same types in both, up to the renaming. Two drafts
that know the same names and the same primitive types always correspond in this way, and then a
renaming takes one table to the other.
-/
namespace WireSchema

namespace Schema

variable (σ : TypeId → TypeId)

def Member.renamed (m : Member) : Member := { m with type := σ m.type }

def TypeDef.renamed : TypeDef → TypeDef
  | .record r => .record { r with members := r.members.map (Member.renamed σ) }
  | .sequence s => .sequence { s with element := σ s.element }
  | .map m => .map { m with key := σ m.key, value := σ m.value }
  | type => type

def Constant.renamed (c : Constant) : Constant := { c with type := σ c.type }

def Param.renamed (p : Param) : Param := { p with type := σ p.type }

def Operation.renamed (op : Operation) : Operation :=
  { op with params := op.params.map (Param.renamed σ), returns := op.returns.map σ }

def Interface.renamed (i : Interface) : Interface where
  name := i.name
  uid := i.uid
  operations := i.operations.map (Operation.renamed σ)
  exceptions := i.exceptions.map σ
  constants := i.constants.map (Constant.renamed σ)

def Declared.renamed : Declared → Declared
  | .type id => .type (σ id)
  | what => what

def Denotation.renamed : Denotation → Denotation
  | .primitive type => .primitive type
  | .declared id => .declared (σ id)

mutual

/-- A module is another one with its places renamed and its own types listed in some order. -/
inductive Module.Renamed : Module → Module → Prop
  | intro {name : QualifiedName} {modules modules' : List Module} {types types' : List TypeId}
    {interfaces : List Interface} {constants : List Constant}
    (hmodules : RenamedModules modules modules') (htypes : (types.map σ).Perm types') :
    Module.Renamed ⟨name, modules, types, interfaces, constants⟩
      ⟨name, modules', types', interfaces.map (Interface.renamed σ),
        constants.map (Constant.renamed σ)⟩

inductive RenamedModules : List Module → List Module → Prop
  | nil : RenamedModules [] []
  | cons {m m' : Module} {modules modules' : List Module} (hm : Module.Renamed m m')
    (hmodules : RenamedModules modules modules') : RenamedModules (m :: modules) (m' :: modules')

end

/-- A schema is another one with its places renamed: every place of one table is that of the same
type in the other table, and the modules are the same. -/
structure IsRenaming (s s' : Schema) : Prop where
  bijOn : Set.BijOn σ {id | id.index < s.types.size} {id | id.index < s'.types.size}
  types : ∀ {id : TypeId} {type : TypeDef}, s.types[id.index]? = some type →
    s'.types[(σ id).index]? = some (TypeDef.renamed σ type)
  modules : RenamedModules σ s.modules s'.modules

/-- The names of one draft are those of another with the places renamed. -/
def Renames (names names' : List (String × Declared)) : Prop :=
  ∀ key, names'.lookup key = (names.lookup key).map (Declared.renamed σ)

variable {σ} {names names' : List (String × Declared)}

open Document (Declaration Reference)

theorem Renames.lookup_type {key : String} {id : TypeId} (h : Renames σ names names')
    (hid : names.lookup key = some (.type id)) : names'.lookup key = some (.type (σ id)) := by
  rw [h key, hid]
  rfl

theorem Declared.renamed_eq_interface {what : Declared} :
    what.renamed σ = .interface ↔ what = .interface := by
  cases what <;> simp [Declared.renamed]

theorem Renames.refers_iff (h : Renames σ names names') {key : String} {what' : Declared} :
    Refers names' key what' ↔ ∃ what, Refers names key what ∧ what.renamed σ = what' := by
  unfold Refers
  rw [h key, Option.map_eq_some_iff]
  constructor
  · rintro ⟨⟨what, hwhat, rfl⟩, hinterface⟩
    exact ⟨what, ⟨hwhat, fun heq => hinterface (Declared.renamed_eq_interface.mpr heq)⟩, rfl⟩
  · rintro ⟨what, ⟨hwhat, hinterface⟩, rfl⟩
    exact ⟨⟨what, hwhat, rfl⟩, fun heq => hinterface (Declared.renamed_eq_interface.mp heq)⟩

theorem Renames.means_iff (h : Renames σ names names') {scope : QualifiedName}
    {reference key : String} {what' : Declared} :
    Means names' scope reference key what' ↔
      ∃ what, Means names scope reference key what ∧ what.renamed σ = what' := by
  constructor
  · intro hmeans
    cases hmeans with
    | absolute hname' =>
      obtain ⟨what, hname, rfl⟩ := h.refers_iff.mp hname'
      exact ⟨what, .absolute hname, rfl⟩
    | relative hrelative hfront hname' hinner =>
      obtain ⟨what, hname, rfl⟩ := h.refers_iff.mp hname'
      refine ⟨what, .relative hrelative hfront hname ?_, rfl⟩
      intro inner hprefix hlt other hother
      exact hinner inner hprefix hlt _ (h.refers_iff.mpr ⟨other, hother, rfl⟩)
  · rintro ⟨what, hmeans, rfl⟩
    cases hmeans with
    | absolute hname => exact .absolute (h.refers_iff.mpr ⟨what, hname, rfl⟩)
    | relative hrelative hfront hname hinner =>
      refine .relative hrelative hfront (h.refers_iff.mpr ⟨what, hname, rfl⟩) ?_
      intro inner hprefix hlt other hother
      obtain ⟨other, hother, -⟩ := h.refers_iff.mp hother
      exact hinner inner hprefix hlt other hother

theorem Renames.denotes (h : Renames σ names names') {following : List String}
    {scope : QualifiedName} {reference : String} {answer : Except SchemaError Denotation}
    (hdenotes : Denotes names following scope reference answer) :
    Denotes names' following scope reference (answer.map fun den => den.renamed σ) := by
  induction hdenotes with
  | primitive hprimitive => exact .primitive hprimitive
  | unknown hprimitive hnone =>
    refine .unknown hprimitive fun name what' hmeans => ?_
    obtain ⟨what, hmeans, -⟩ := h.means_iff.mp hmeans
    exact hnone name what hmeans
  | type hprimitive hmeans => exact .type hprimitive (h.means_iff.mpr ⟨_, hmeans, rfl⟩)
  | cycle hprimitive hmeans hback =>
    exact .cycle hprimitive (h.means_iff.mpr ⟨_, hmeans, rfl⟩) hback
  | follow hprimitive hmeans hnew _ ih =>
    exact .follow hprimitive (h.means_iff.mpr ⟨_, hmeans, rfl⟩) hnew ih

theorem Renames.gives (h : Renames σ names names') {r : Reference} {den : Denotation}
    (hgives : Gives names r den) : Gives names' r (den.renamed σ) := h.denotes hgives

/-- What a reference denotes is a renamed denotation. -/
theorem Renames.exists_gives (h : Renames σ names names') {r : Reference} {den' : Denotation}
    (hgives : Gives names' r den') : ∃ den, Gives names r den ∧ den.renamed σ = den' := by
  obtain ⟨answer, hanswer⟩ := exists_denotes names r.scope r.text
  have hsame := Denotes.unique (h.denotes hanswer) hgives
  cases answer with
  | error e => cases hsame
  | ok den => exact ⟨den, hanswer, Except.ok.inj hsame⟩

variable {d d' : Draft}

/-- A name of one draft is known to another one as well, at whichever place. -/
def Draft.Alike (d d' : Draft) (key : String) : Prop :=
  d'.names.lookup key = d.names.lookup key ∨
    ∃ id id', d.names.lookup key = some (.type id) ∧ d'.names.lookup key = some (.type id')

theorem Draft.Alike.symm {key : String} (h : d.Alike d' key) : d'.Alike d key := by
  rcases h with hsame | ⟨id, id', h, h'⟩
  · exact .inl hsame.symm
  · exact .inr ⟨id', id, h', h⟩

/-- The primitive types of one draft are all in another one. -/
def Draft.Contains (d' d : Draft) : Prop :=
  ∀ ⦃i : Nat⦄ ⦃type : TypeDef⦄, d.types[i]? = some type → type.name? = none →
    ∃ j : Nat, d'.types[j]? = some type

/-- Places of two drafts for types of one name, or for one primitive type. -/
def Draft.Mates (d d' : Draft) (id id' : TypeId) : Prop :=
  (∃ key, d.names.lookup key = some (.type id) ∧ d'.names.lookup key = some (.type id')) ∨
    ∃ type, type.name? = none ∧ d.types[id.index]? = some type ∧ d'.types[id'.index]? = some type

theorem Draft.Mates.symm {id id' : TypeId} (h : d.Mates d' id id') : d'.Mates d id' id := by
  rcases h with ⟨key, h, h'⟩ | ⟨type, hname, h, h'⟩
  · exact .inl ⟨key, h', h⟩
  · exact .inr ⟨type, hname, h', h⟩

theorem Draft.Mates.inTable {id id' : TypeId} (h : d.Mates d' id id') (hd : d.Sound) :
    d.InTable id := by
  rcases h with ⟨key, h, -⟩ | ⟨type, -, h, -⟩
  · exact hd.inTable_of_name h
  · exact Draft.inTable_of_getElem? h

/-- Renaming takes the places of one draft to those of another. -/
structure Draft.Corresponds (σ : TypeId → TypeId) (d d' : Draft) : Prop where
  names : Renames σ d.names d'.names
  primitives : ∀ {id : TypeId} {type : TypeDef}, d.types[id.index]? = some type →
    type.name? = none → d'.types[(σ id).index]? = some type

namespace Draft.Sound

variable (hd : d.Sound)
include hd

theorem name?_ne_none {key : String} {id : TypeId} {type : TypeDef}
    (h : d.names.lookup key = some (.type id)) (htype : d.types[id.index]? = some type) :
    type.name? ≠ none := by
  obtain ⟨type', name, htype', hname, -⟩ := hd.named h
  obtain rfl := Option.some.inj (htype.symm.trans htype')
  simp [hname]

theorem mates_unique (hd' : d'.Sound) {id mate mate' : TypeId} (h : d.Mates d' id mate)
    (h' : d.Mates d' id mate') : mate = mate' := by
  rcases h with ⟨key, hkey, hmate⟩ | ⟨type, hname, htype, hmate⟩
  · rcases h' with ⟨key', hkey', hmate'⟩ | ⟨type, hname, htype, -⟩
    · rw [hd.name_unique hkey hkey', hmate'] at hmate
      exact (Declared.type.inj (Option.some.inj hmate)).symm
    · exact absurd hname (hd.name?_ne_none hkey htype)
  · rcases h' with ⟨key', hkey', -⟩ | ⟨type', -, htype', hmate'⟩
    · exact absurd hname (hd.name?_ne_none hkey' htype)
    · obtain rfl := Option.some.inj (htype.symm.trans htype')
      exact hd'.primitive_unique hmate hmate' hname

/-- Drafts that know the same names and primitive types correspond. -/
theorem exists_corresponds (hd' : d'.Sound) (halike : ∀ key, d.Alike d' key)
    (hcontains : d'.Contains d) : ∃ σ, Corresponds σ d d' := by
  classical
  let σ : TypeId → TypeId := fun id => if h : ∃ mate, d.Mates d' id mate then h.choose else id
  have hσ : ∀ {id mate : TypeId}, d.Mates d' id mate → σ id = mate := by
    intro id mate hmate
    have hex : ∃ mate, d.Mates d' id mate := ⟨mate, hmate⟩
    rw [show σ id = hex.choose from dif_pos hex]
    exact hd.mates_unique hd' hex.choose_spec hmate
  refine ⟨σ, ?_, ?_⟩
  · intro key
    rcases halike key with hsame | ⟨id, id', h, h'⟩
    · rw [hsame]
      cases hlookup : d.names.lookup key with
      | none => rfl
      | some what =>
        cases what with
        | type id =>
          have hid := hσ (.inl ⟨key, hlookup, hsame.trans hlookup⟩)
          rw [Option.map_some, Declared.renamed, hid]
        | «alias» | interface => rfl
    · rw [h, h', Option.map_some, Declared.renamed, hσ (.inl ⟨key, h, h'⟩)]
  · intro id type htype hname
    obtain ⟨j, hj⟩ := hcontains htype hname
    have hid : σ id = ⟨j⟩ := hσ (.inr ⟨type, hname, htype, hj⟩)
    rwa [hid]

end Draft.Sound

namespace Draft.Corresponds

variable {σ : TypeId → TypeId} (h : Corresponds σ d d')
include h

theorem mates (hd : d.Sound) {id : TypeId} (hid : d.InTable id) : d.Mates d' id (σ id) := by
  have htype := Array.getElem?_eq_getElem hid
  cases hname : d.types[id.index].name? with
  | some name =>
    have hplace := hd.place_of_name htype hname
    exact .inl ⟨name.text, hplace, h.names.lookup_type hplace⟩
  | none => exact .inr ⟨_, hname, htype, h.primitives htype hname⟩

theorem exists_mate (hd' : d'.Sound) (hcontains : d.Contains d') {id' : TypeId}
    (hid' : d'.InTable id') : ∃ id, d.Mates d' id id' := by
  have htype := Array.getElem?_eq_getElem hid'
  cases hname : d'.types[id'.index].name? with
  | some name =>
    have hplace := hd'.place_of_name htype hname
    have hlookup := hplace
    rw [h.names name.text, Option.map_eq_some_iff] at hlookup
    obtain ⟨what, hwhat, hmoved⟩ := hlookup
    cases what with
    | type id => exact ⟨id, .inl ⟨name.text, hwhat, hplace⟩⟩
    | «alias» | interface => cases hmoved
  | none =>
    obtain ⟨i, hi⟩ := hcontains htype hname
    exact ⟨⟨i⟩, .inr ⟨_, hname, hi, htype⟩⟩

theorem injOn (hd : d.Sound) (hd' : d'.Sound) {id other : TypeId} (hid : d.InTable id)
    (hother : d.InTable other) (hsame : σ id = σ other) : id = other := by
  have hmates := h.mates hd hid
  rw [hsame] at hmates
  exact hd'.mates_unique hd hmates.symm (h.mates hd hother).symm

theorem bijOn (hd : d.Sound) (hd' : d'.Sound) (hcontains : d.Contains d') :
    Set.BijOn σ {id | d.InTable id} {id | d'.InTable id} := by
  refine ⟨?_, fun _ hid _ hother => h.injOn hd hd' hid hother, ?_⟩
  · intro id hid
    exact (h.mates hd hid).symm.inTable hd'
  · intro id' hid'
    obtain ⟨id, hmates⟩ := h.exists_mate hd' hcontains hid'
    have hid := hmates.inTable hd
    exact ⟨id, hid, hd.mates_unique hd' (h.mates hd hid) hmates⟩

theorem fits (hd' : d'.Sound) (hcontains : d.Contains d') {look : Reference → TypeId}
    (hlook : d.Fits look) : d'.Fits fun r => σ (look r) := by
  rintro r id' ⟨den', hgives', hholds'⟩
  obtain ⟨den, hgives, rfl⟩ := h.names.exists_gives hgives'
  cases den with
  | declared id =>
    have hplaces : d.Places r id := ⟨_, hgives, rfl⟩
    exact (congrArg σ (hlook r id hplaces)).trans hholds'.symm
  | primitive type =>
    have hname := hgives.name?_eq_none
    obtain ⟨i, hi⟩ := hcontains (show d'.types[id'.index]? = some type from hholds') hname
    have hplaces : d.Places r ⟨i⟩ := ⟨_, hgives, hi⟩
    have hmoved := h.primitives (show d.types[(TypeId.mk i).index]? = _ from hi) hname
    exact (congrArg σ (hlook r _ hplaces)).trans (hd'.primitive_unique hmoved hholds' hname)

end Draft.Corresponds

section Placed

variable (look : Reference → TypeId)

theorem placed?_renamed (x : Declaration) :
    TypeDef.placed? (fun r => σ (look r)) x =
      (TypeDef.placed? look x).map (TypeDef.renamed σ) := by
  obtain ⟨name, body⟩ := x
  cases body <;> simp [TypeDef.placed?, TypeDef.renamed, Member.placed, Member.renamed]

theorem constant_placed_renamed (scope : QualifiedName) :
    Constant.placed (fun r => σ (look r)) scope =
      Constant.renamed σ ∘ Constant.placed look scope := rfl

theorem operation_placed_renamed (interface : QualifiedName) :
    Operation.placed (fun r => σ (look r)) interface =
      Operation.renamed σ ∘ Operation.placed look interface := by
  funext op
  simp [Operation.placed, Operation.renamed, Param.placed, Param.renamed, Function.comp_def]

theorem declaredExceptions_renamed (h : Renames σ names names') (scope : QualifiedName)
    (own : List String) :
    declaredExceptions { names := names' } scope own =
      (declaredExceptions { names } scope own).map σ := by
  unfold declaredExceptions
  rw [List.map_filterMap]
  congr 1
  funext name
  dsimp only
  rw [h]
  cases names.lookup (scope.child name).text with
  | none => rfl
  | some what => cases what <;> rfl

theorem interface_placed_renamed (h : Renames σ names names') (name : QualifiedName)
    (i : Document.Interface) :
    Interface.placed (fun r => σ (look r)) names' name i =
      (Interface.placed look names name i).renamed σ := by
  unfold Interface.placed Interface.renamed
  rw [constant_placed_renamed, operation_placed_renamed, declaredExceptions_renamed h,
    List.map_map, List.map_map]

theorem interfaces_placed_renamed (h : Renames σ names names') (scope : QualifiedName)
    (is : List Document.Interface) :
    is.map (fun i => Interface.placed (fun r => σ (look r)) names' (scope.child i.name) i) =
      (is.map fun i => Interface.placed look names (scope.child i.name) i).map
        (Interface.renamed σ) := by
  rw [List.map_map]
  exact List.map_congr_left fun i _ => interface_placed_renamed look h (scope.child i.name) i

end Placed

/-- A table in which definitions are made goes over to the other table. -/
theorem Draft.Corresponds.types {doc : Document} {look : Reference → TypeId}
    (h : Corresponds σ d d') (hd : d.Sound)
    (hshows : ∀ key, d.Shows look key (standing doc.entries key))
    (hshows' : ∀ key, d'.Shows (fun r => σ (look r)) key (standing doc.entries key)) {id : TypeId}
    {type : TypeDef} (htype : d.types[id.index]? = some type) :
    d'.types[(σ id).index]? = some (TypeDef.renamed σ type) := by
  cases hname : type.name? with
  | none =>
    rw [h.primitives htype hname]
    cases type with
    | bool | numeric | text | blob => rfl
    | _ => cases hname
  | some name =>
    have hplace := h.names.lookup_type (hd.place_of_name htype hname)
    have hshown := hshows' name.text
    rcases hd.type_cases hshows htype hname with ⟨shown, hst, rfl⟩ |
      ⟨shown, defined, body, hst, rfl⟩
    · rw [hst] at hshown
      obtain ⟨id', hid', htype'⟩ := hshown
      obtain rfl := Declared.type.inj (Option.some.inj (hplace.symm.trans hid'))
      exact htype'
    · rw [hst] at hshown
      obtain ⟨id', hid', htype'⟩ := hshown
      obtain rfl := Declared.type.inj (Option.some.inj (hplace.symm.trans hid'))
      rw [placed?_renamed] at htype'
      refine htype'.trans ?_
      cases TypeDef.placed? look ⟨defined, body⟩ <;> rfl

/-- A name adds its place to the list, unless it has none or the list has it already. -/
theorem declaredTypes_concat (d : Draft) (scope : QualifiedName) (own : List String)
    (name : String) :
    declaredTypes d scope (own ++ [name]) = declaredTypes d scope own ∧
        (∀ id, d.names.lookup (scope.child name).text = some (.type id) →
          id ∈ declaredTypes d scope own) ∨
      ∃ id, d.names.lookup (scope.child name).text = some (.type id) ∧
        id ∉ declaredTypes d scope own ∧
        declaredTypes d scope (own ++ [name]) = declaredTypes d scope own ++ [id] := by
  unfold declaredTypes
  rw [List.foldl_append]
  generalize own.foldl _ [] = ids
  rw [List.foldl_cons, List.foldl_nil]
  cases hlookup : d.names.lookup (scope.child name).text with
  | none => exact .inl ⟨rfl, nofun⟩
  | some what =>
    cases what with
    | type id =>
      by_cases hmem : id ∈ ids
      · left
        refine ⟨if_pos hmem, ?_⟩
        rintro _ ⟨⟩
        exact hmem
      · exact .inr ⟨id, rfl, hmem, if_neg hmem⟩
    | «alias» | interface => exact .inl ⟨rfl, nofun⟩

theorem nodup_declaredTypes (d : Draft) (scope : QualifiedName) (own : List String) :
    (declaredTypes d scope own).Nodup := by
  induction own using List.reverseRecOn with
  | nil => exact List.nodup_nil
  | append_singleton own name ih =>
    rcases declaredTypes_concat d scope own name with ⟨hsame, -⟩ | ⟨id, -, hnew, hadded⟩
    · rwa [hsame]
    · rw [hadded, List.nodup_append]
      refine ⟨ih, List.nodup_singleton id, ?_⟩
      rintro a ha b hb rfl
      exact hnew (List.mem_singleton.mp hb ▸ ha)

theorem mem_declaredTypes_iff {scope : QualifiedName} {own : List String} {id : TypeId} :
    id ∈ declaredTypes d scope own ↔
      ∃ name ∈ own, d.names.lookup (scope.child name).text = some (.type id) := by
  constructor
  · induction own using List.reverseRecOn with
    | nil => exact fun hid => nomatch hid
    | append_singleton own name ih =>
      intro hid
      have hstep : id ∈ declaredTypes d scope own ∨
          d.names.lookup (scope.child name).text = some (.type id) := by
        rcases declaredTypes_concat d scope own name with ⟨hsame, -⟩ | ⟨added, hadds, -, hadded⟩
        · exact .inl (hsame ▸ hid)
        · rw [hadded, List.mem_append, List.mem_singleton] at hid
          rcases hid with hid | rfl
          · exact .inl hid
          · exact .inr hadds
      rcases hstep with hid | hlookup
      · obtain ⟨other, hother, hlookup⟩ := ih hid
        exact ⟨other, List.mem_append_left _ hother, hlookup⟩
      · exact ⟨name, List.mem_append_right _ (List.mem_singleton_self name), hlookup⟩
  · rintro ⟨name, hname, hlookup⟩
    exact mem_declaredTypes hname hlookup

/-- No place is renamed to one that another name has. -/
def Separates (σ : TypeId → TypeId) (names : List (String × Declared)) : Prop :=
  ∀ ⦃key key' : String⦄ ⦃id id' : TypeId⦄, names.lookup key = some (.type id) →
    names.lookup key' = some (.type id') → σ id = σ id' → id = id'

/-- The types of a module are listed at the renamed places, in some order. -/
theorem declaredTypes_renamed (h : Renames σ names names') (hinj : Separates σ names)
    (scope : QualifiedName) {own own' : List String} (hown : own.Perm own') :
    ((declaredTypes { names } scope own).map σ).Perm
      (declaredTypes { names := names' } scope own') := by
  rw [List.perm_ext_iff_of_nodup _ (nodup_declaredTypes _ scope own')]
  · intro id'
    rw [List.mem_map, mem_declaredTypes_iff]
    constructor
    · rintro ⟨id, hid, rfl⟩
      obtain ⟨name, hname, hlookup⟩ := mem_declaredTypes_iff.mp hid
      exact ⟨name, hown.mem_iff.mp hname, h.lookup_type hlookup⟩
    · rintro ⟨name, hname, hlookup⟩
      rw [h, Option.map_eq_some_iff] at hlookup
      obtain ⟨what, hwhat, hmoved⟩ := hlookup
      cases what with
      | type id =>
        refine ⟨id, ?_, Declared.type.inj hmoved⟩
        exact mem_declaredTypes_iff.mpr ⟨name, hown.mem_iff.mpr hname, hwhat⟩
      | «alias» | interface => cases hmoved
  · refine (nodup_declaredTypes { names } scope own).map_on ?_
    intro id hid other hother hsame
    obtain ⟨name, -, hlookup⟩ := mem_declaredTypes_iff.mp hid
    obtain ⟨name', -, hlookup'⟩ := mem_declaredTypes_iff.mp hother
    exact hinj hlookup hlookup' hsame

end Schema
end WireSchema
