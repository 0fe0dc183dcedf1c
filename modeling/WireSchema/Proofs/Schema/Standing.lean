import Mathlib.Data.List.Induction
import WireSchema.Proofs.Schema.Waiting

/-!
# Where a name stands

The declarations of a document are gone through one after the other, and what becomes of a name
depends on its own declarations only: it is announced by forward declarations, defined once, made a
synonym or given to an interface, and any other declaration of it clashes. Declaring succeeds if no
name clashes, and the draft then shows where every name stands.
-/
namespace WireSchema

namespace Document

/-- One declaration of a name. -/
inductive Entry where
  | type (scope : QualifiedName) (decl : TypeDecl)
  | interface (name : QualifiedName)
  /-- An exception of an interface. -/
  | exception (name : QualifiedName) (members : List Member)

structure Declaration where
  name : QualifiedName
  body : TypeBody
deriving DecidableEq

namespace Entry

def name : Entry → QualifiedName
  | .type scope decl => scope.child decl.name
  | .interface name => name
  | .exception name _ => name

/-- Names are the same if they are written the same way. -/
def key (e : Entry) : String := e.name.text

def declaration? : Entry → Option Declaration
  | .type scope decl => some ⟨scope.child decl.name, decl.body⟩
  | .interface _ => none
  | .exception name members => some ⟨name, .exception members⟩

theorem name_of_declaration? {e : Entry} {x : Declaration} (h : e.declaration? = some x) :
    x.name = e.name := by
  cases e with
  | interface => cases h
  | _ => exact congrArg Declaration.name (Option.some.inj h).symm

end Entry

def Interface.entries (scope : QualifiedName) (i : Interface) : List Entry :=
  .interface (scope.child i.name) ::
    i.exceptions.map fun e => .exception ((scope.child i.name).child e.name) e.members

mutual

/-- Types, then interfaces, then what the modules inside declare. -/
def Module.entries (name : QualifiedName) : Module → List Entry
  | ⟨_, modules, types, interfaces, _⟩ =>
    types.map (.type name) ++ interfaces.flatMap (·.entries name) ++ entriesOf name modules

def entriesOf (scope : QualifiedName) : List Module → List Entry
  | [] => []
  | m :: modules => m.entries (scope.child m.name) ++ entriesOf scope modules

end

def entries (doc : Document) : List Entry := entriesOf .root doc.modules

/-- What a document says about types, exceptions of interfaces among them. -/
def declarations (doc : Document) : List Declaration := doc.entries.filterMap (·.declaration?)

end Document

namespace Schema

open Document (Entry Declaration TypeBody)

variable {d d' : Draft} {es : List Entry} {e : Entry} {key : String}

def declareEntry : Entry → Build Unit
  | .type scope decl => declareType scope decl
  | .interface name => Draft.enter name .interface
  | .exception name members => do
    let id ← Draft.push (.forward name)
    Draft.enter name (.type id)
    Draft.await ⟨id, name, .exception members⟩

theorem declareInterface_eq (scope : QualifiedName) (i : Document.Interface) :
    declareInterface scope i = forM (i.entries scope) declareEntry := by
  unfold declareInterface Document.Interface.entries
  rw [List.forM_cons, List.forM_map]
  rfl

theorem declareInterfaces_eq (scope : QualifiedName) (is : List Document.Interface) :
    forM is (declareInterface scope) = forM (is.flatMap (·.entries scope)) declareEntry := by
  induction is with
  | nil => rfl
  | cons i is ih =>
    rw [List.forM_cons, List.flatMap_cons, List.forM_append, ih, declareInterface_eq]

mutual

theorem declareModule_eq (name : QualifiedName) (m : Document.Module) :
    declareModule name m = forM (m.entries name) declareEntry := by
  obtain ⟨own, modules, types, interfaces, constants⟩ := m
  rw [declareModule, Document.Module.entries, List.forM_append, List.forM_append, List.forM_map,
    bind_assoc, ← declareInterfaces_eq, ← declareModules_eq]
  rfl

/-- Declaring modules goes through their declarations in order. -/
theorem declareModules_eq (scope : QualifiedName) (modules : List Document.Module) :
    declareModules scope modules = forM (Document.entriesOf scope modules) declareEntry := by
  cases modules with
  | nil =>
    rw [declareModules, Document.entriesOf]
    rfl
  | cons m modules =>
    rw [declareModules, Document.entriesOf, List.forM_append, declareModule_eq, declareModules_eq]

end

/-- What the declarations of one name come to. -/
inductive Standing where
  | unseen
  /-- There are forward declarations only. The first one has the name that is shown. -/
  | announced (shown : QualifiedName)
  /-- There is one definition. Until it is made, the place shows the name of the first
  declaration. -/
  | defined (shown name : QualifiedName) (body : TypeBody)
  | synonym (target : String) (scope : QualifiedName)
  | interface
  /-- Some declaration does not go with those before it. -/
  | clash
deriving DecidableEq

namespace Standing

/-- What another declaration of the same name makes of it. -/
def declare : Standing → Entry → Standing
  | .unseen, .interface _ => .interface
  | .unseen, .exception name members => .defined name name (.exception members)
  | .unseen, .type scope decl =>
    match decl.body with
    | .forward => .announced (scope.child decl.name)
    | .alias target => .synonym target scope
    | body => .defined (scope.child decl.name) (scope.child decl.name) body
  | .announced shown, .type scope decl =>
    if decl.body = .forward then .announced shown
    else .defined shown (scope.child decl.name) decl.body
  | .defined shown name body, .type _ decl =>
    if decl.body = .forward then .defined shown name body else .clash
  | _, _ => .clash

theorem declare_interface {st : Standing} {name : QualifiedName} (h : st ≠ .unseen) :
    st.declare (.interface name) = .clash := by
  cases st with
  | unseen => exact absurd rfl h
  | _ => rfl

theorem declare_exception {st : Standing} {name : QualifiedName} {members : List Document.Member}
    (h : st ≠ .unseen) : st.declare (.exception name members) = .clash := by
  cases st with
  | unseen => exact absurd rfl h
  | _ => rfl

theorem foldl_clash (es : List Entry) : es.foldl declare .clash = .clash := by
  induction es with
  | nil => rfl
  | cons e es ih => exact ih

end Standing

/-- The declarations of one name. -/
def ownEntries (es : List Entry) (key : String) : List Entry := es.filter (·.key = key)

theorem mem_ownEntries : e ∈ ownEntries es key ↔ e ∈ es ∧ e.key = key := by
  simp [ownEntries]

/-- Where a name stands after some declarations. -/
def standing (es : List Entry) (key : String) : Standing :=
  (ownEntries es key).foldl Standing.declare .unseen

theorem standing_append (es rest : List Entry) (key : String) :
    standing (es ++ rest) key = (ownEntries rest key).foldl Standing.declare (standing es key) := by
  rw [standing, ownEntries, List.filter_append, List.foldl_append]
  rfl

theorem standing_append_self (es : List Entry) (e : Entry) :
    standing (es ++ [e]) e.key = (standing es e.key).declare e := by
  simp [standing_append, ownEntries]

theorem standing_append_of_ne (es : List Entry) (h : e.key ≠ key) :
    standing (es ++ [e]) key = standing es key := by
  simp [standing_append, ownEntries, h]

/-- The declarations of a name account for its standing. -/
def Accounts (own : List Entry) : Standing → Prop
  | .unseen => own = []
  | .announced shown =>
    (∃ e ∈ own, e.declaration? = some ⟨shown, .forward⟩) ∧
      ∀ e ∈ own, ∃ name, e.declaration? = some ⟨name, .forward⟩
  | .defined shown name body =>
    body ≠ .forward ∧ (∃ e ∈ own, e.declaration? = some ⟨name, body⟩) ∧
      (∀ e ∈ own,
        e.declaration? = some ⟨name, body⟩ ∨ ∃ other, e.declaration? = some ⟨other, .forward⟩) ∧
      ∀ target, body = .alias target → ∃ e ∈ own, e.declaration? = some ⟨shown, .forward⟩
  | .synonym target scope =>
    ∃ e name, own = [e] ∧ e.declaration? = some ⟨name, .alias target⟩ ∧ name.scope = scope
  | .interface => ∃ name, own = [.interface name]
  | .clash => True

theorem accounts_foldl (own : List Entry) : Accounts own (own.foldl Standing.declare .unseen) := by
  induction own using List.reverseRecOn with
  | nil => rfl
  | append_singleton own e ih =>
    rw [List.foldl_append, List.foldl_cons, List.foldl_nil]
    generalize own.foldl Standing.declare .unseen = st at ih
    match st, e with
    | .unseen, .interface name =>
      obtain rfl : own = [] := ih
      exact ⟨name, rfl⟩
    | .unseen, .exception name members =>
      obtain rfl : own = [] := ih
      simp [Standing.declare, Accounts, Entry.declaration?]
    | .unseen, .type scope ⟨own', body⟩ =>
      obtain rfl : own = [] := ih
      cases body <;> simp [Standing.declare, Accounts, Entry.declaration?]
    | .announced shown, .type scope decl =>
      obtain ⟨⟨first, hfirst, hshown⟩, hall⟩ := ih
      have hfirst := List.mem_append_left [Entry.type scope decl] hfirst
      rw [Standing.declare]
      split
      · rename_i hforward
        refine ⟨⟨first, hfirst, hshown⟩, List.forall_mem_append.mpr ⟨hall, ?_⟩⟩
        simp [Entry.declaration?, hforward]
      · rename_i hforward
        refine ⟨hforward, ⟨_, List.mem_append_right own List.mem_cons_self, rfl⟩, ?_, ?_⟩
        · refine List.forall_mem_append.mpr ⟨fun e he => .inr (hall e he), ?_⟩
          simp [Entry.declaration?]
        · exact fun _ _ => ⟨first, hfirst, hshown⟩
    | .defined shown name body, .type scope decl =>
      rw [Standing.declare]
      split
      · rename_i hforward
        obtain ⟨hbody, ⟨e, he, hdeclares⟩, hall, hlost⟩ := ih
        refine ⟨hbody, ⟨e, List.mem_append_left _ he, hdeclares⟩, ?_, ?_⟩
        · refine List.forall_mem_append.mpr ⟨hall, ?_⟩
          simp [Entry.declaration?, hforward]
        · intro target halias
          obtain ⟨first, hfirst, hshown⟩ := hlost target halias
          exact ⟨first, List.mem_append_left _ hfirst, hshown⟩
      · trivial
    | .announced _, .interface _ => trivial
    | .announced _, .exception _ _ => trivial
    | .defined _ _ _, .interface _ => trivial
    | .defined _ _ _, .exception _ _ => trivial
    | .synonym _ _, _ => trivial
    | .interface, _ => trivial
    | .clash, _ => trivial

section

variable {x : Declaration}

theorem mem_ownEntries_of_declaration (hx : x ∈ es.filterMap (·.declaration?)) :
    ∃ e ∈ ownEntries es x.name.text, e.declaration? = some x := by
  obtain ⟨e, he, hdeclares⟩ := List.mem_filterMap.mp hx
  refine ⟨e, mem_ownEntries.mpr ⟨he, ?_⟩, hdeclares⟩
  rw [Entry.name_of_declaration? hdeclares]
  rfl

theorem declaration_of_mem_ownEntries (he : e ∈ ownEntries es key)
    (hdeclares : e.declaration? = some x) :
    x ∈ es.filterMap (·.declaration?) ∧ x.name.text = key := by
  obtain ⟨he, hkey⟩ := mem_ownEntries.mp he
  refine ⟨List.mem_filterMap.mpr ⟨e, he, hdeclares⟩, ?_⟩
  rw [Entry.name_of_declaration? hdeclares]
  exact hkey

/-- A declaration can be one of those that come to a standing. -/
def Standing.Admits (x : Declaration) : Standing → Prop
  | .announced _ => x.body = .forward
  | .defined _ name body => x = ⟨name, body⟩ ∨ x.body = .forward
  | .synonym target scope => x.body = .alias target ∧ x.name.scope = scope
  | .unseen | .interface => False
  | .clash => True

theorem admits_standing (hx : x ∈ es.filterMap (·.declaration?)) :
    (standing es x.name.text).Admits x := by
  obtain ⟨e, he, hdeclares⟩ := mem_ownEntries_of_declaration hx
  have haccounts := accounts_foldl (ownEntries es x.name.text)
  rw [← standing] at haccounts
  generalize standing es x.name.text = st at haccounts
  cases st with
  | unseen =>
    rw [show ownEntries es x.name.text = [] from haccounts] at he
    cases he
  | announced shown =>
    obtain ⟨name, hforward⟩ := haccounts.2 e he
    obtain rfl := Option.some.inj (hdeclares.symm.trans hforward)
    rfl
  | defined shown name body =>
    rcases haccounts.2.2.1 e he with hdefines | ⟨other, hforward⟩
    · exact .inl (Option.some.inj (hdeclares.symm.trans hdefines))
    · obtain rfl := Option.some.inj (hdeclares.symm.trans hforward)
      exact .inr rfl
  | synonym target scope =>
    obtain ⟨e', name, hown, halias, hscope⟩ := haccounts
    rw [hown, List.mem_singleton] at he
    obtain rfl := Option.some.inj (hdeclares.symm.trans (he ▸ halias))
    exact ⟨rfl, hscope⟩
  | interface =>
    obtain ⟨name, hown⟩ := haccounts
    rw [hown, List.mem_singleton] at he
    rw [he] at hdeclares
    cases hdeclares
  | clash => trivial

/-- What is defined has its definition, and an alias is a definition only after a forward
declaration. -/
theorem defined_declaration {shown name : QualifiedName} {body : TypeBody}
    (h : standing es key = .defined shown name body) :
    body ≠ .forward ∧ (⟨name, body⟩ ∈ es.filterMap (·.declaration?) ∧ name.text = key) ∧
      ∀ target, body = .alias target →
        ⟨shown, .forward⟩ ∈ es.filterMap (·.declaration?) ∧ shown.text = key := by
  have haccounts := accounts_foldl (ownEntries es key)
  rw [← standing, h] at haccounts
  obtain ⟨hbody, ⟨e, he, hdeclares⟩, -, hlost⟩ := haccounts
  refine ⟨hbody, declaration_of_mem_ownEntries he hdeclares, ?_⟩
  intro target halias
  obtain ⟨first, hfirst, hforward⟩ := hlost target halias
  exact declaration_of_mem_ownEntries hfirst hforward

end

namespace Draft

/-- A draft shows where a name stands. -/
def Stands (d : Draft) (key : String) : Standing → Prop
  | .unseen => d.names.lookup key = none
  | .announced shown => shown.text = key ∧ ∃ id, d.names.lookup key = some (.type id) ∧
      d.types[id.index]? = some (.forward shown) ∧ id ∈ d.forwardOnly
  | .defined shown name body => shown.text = key ∧ ∃ id, d.names.lookup key = some (.type id) ∧
      d.types[id.index]? = some (.forward shown) ∧ id ∉ d.forwardOnly ∧ ⟨id, name, body⟩ ∈ d.pending
  | .synonym target scope => d.names.lookup key = some (.alias target scope)
  | .interface => d.names.lookup key = some .interface
  | .clash => False

theorem Stands.lookup_eq_none_iff {st : Standing} (h : d.Stands key st) :
    d.names.lookup key = none ↔ st = .unseen := by
  cases st with
  | unseen => exact ⟨fun _ => rfl, fun _ => h⟩
  | announced shown =>
    obtain ⟨-, id, hid, -⟩ := h
    simp [hid]
  | defined shown name body =>
    obtain ⟨-, id, hid, -⟩ := h
    simp [hid]
  | synonym target scope => simp [show d.names.lookup key = _ from h]
  | interface => simp [show d.names.lookup key = _ from h]
  | clash => exact h.elim

/-- A name with a place is announced, or it is defined and announced no longer. -/
theorem Stands.announced_or_defined {st : Standing} {id : TypeId} (h : d.Stands key st)
    (hid : d.names.lookup key = some (.type id)) :
    (∃ shown, st = .announced shown ∧ id ∈ d.forwardOnly) ∨
      ∃ shown name body, st = .defined shown name body ∧ id ∉ d.forwardOnly := by
  cases st with
  | announced shown =>
    obtain ⟨-, id', hid', -, hforward⟩ := h
    obtain rfl := Declared.type.inj (Option.some.inj (hid'.symm.trans hid))
    exact .inl ⟨shown, rfl, hforward⟩
  | defined shown name body =>
    obtain ⟨-, id', hid', -, hforward, -⟩ := h
    obtain rfl := Declared.type.inj (Option.some.inj (hid'.symm.trans hid))
    exact .inr ⟨shown, name, body, rfl, hforward⟩
  | clash => exact h.elim
  | _ => cases hid.symm.trans h

theorem Stands.clash_of_no_place {st : Standing} (h : d.Stands key st)
    (hplace : ∀ id, d.names.lookup key ≠ some (.type id)) (hseen : st ≠ .unseen) :
    st.declare e = .clash := by
  cases st with
  | unseen => exact absurd rfl hseen
  | announced shown =>
    obtain ⟨-, id, hid, -⟩ := h
    exact absurd hid (hplace id)
  | defined shown name body =>
    obtain ⟨-, id, hid, -⟩ := h
    exact absurd hid (hplace id)
  | _ => rfl

/-- A change that concerns one name leaves the other names as they are. -/
structure ChangesOnly (key : String) (d d' : Draft) : Prop where
  lookup_eq : ∀ {other : String}, other ≠ key → d'.names.lookup other = d.names.lookup other
  type_eq : ∀ {i : Nat} {type : TypeDef}, d.types[i]? = some type → d'.types[i]? = some type
  forward_iff : ∀ {id : TypeId} {name : QualifiedName}, d.types[id.index]? = some (.forward name) →
    name.text ≠ key → (id ∈ d'.forwardOnly ↔ id ∈ d.forwardOnly)
  pending_subset : d.pending ⊆ d'.pending

theorem Stands.frame {other : String} {st : Standing} (h : d.Stands other st)
    (hchange : d.ChangesOnly key d') (hne : other ≠ key) : d'.Stands other st := by
  cases st with
  | announced shown =>
    obtain ⟨rfl, id, hid, htype, hforward⟩ := h
    refine ⟨rfl, id, ?_, hchange.type_eq htype, (hchange.forward_iff htype hne).mpr hforward⟩
    rw [hchange.lookup_eq hne, hid]
  | defined shown name body =>
    obtain ⟨rfl, id, hid, htype, hforward, hpending⟩ := h
    refine ⟨rfl, id, ?_, hchange.type_eq htype, ?_, hchange.pending_subset hpending⟩
    · rw [hchange.lookup_eq hne, hid]
    · rwa [hchange.forward_iff htype hne]
  | clash => exact h
  | _ => exact (hchange.lookup_eq hne).trans h

theorem lookup_cons_of_ne {α : Type} {entries : List (String × α)} {other : String} {a : α}
    (h : other ≠ key) : ((key, a) :: entries).lookup other = entries.lookup other := by
  rw [List.lookup_cons, beq_eq_false_iff_ne.mpr h]

theorem changesOnly_enter (d : Draft) (key : String) (what : Declared) :
    d.ChangesOnly key { d with names := (key, what) :: d.names } :=
  ⟨lookup_cons_of_ne, fun h => h, fun _ _ => Iff.rfl, fun _ h => h⟩

theorem changesOnly_define (d : Draft) (name : QualifiedName) (body : TypeBody) :
    d.ChangesOnly name.text { d.reserve name with
      pending := d.pending ++ [⟨⟨d.types.size⟩, name, body⟩] } :=
  ⟨lookup_cons_of_ne, getElem?_push_of_some, fun _ _ => Iff.rfl, List.subset_append_left _ _⟩

theorem changesOnly_announce (d : Draft) (name : QualifiedName) :
    d.ChangesOnly name.text { d.reserve name with
      forwardOnly := ⟨d.types.size⟩ :: d.forwardOnly } where
  lookup_eq := lookup_cons_of_ne
  type_eq := getElem?_push_of_some
  forward_iff {id other} htype _ := by
    have hlt := inTable_of_getElem? htype
    rw [List.mem_cons, or_iff_right]
    rintro rfl
    exact Nat.lt_irrefl _ hlt
  pending_subset := fun _ h => h

theorem changesOnly_takeOver {shown : QualifiedName} {p : Pending}
    (hshown : d.types[p.id.index]? = some (.forward shown)) (hkey : shown.text = key) :
    d.ChangesOnly key { d with
      forwardOnly := d.forwardOnly.filter (· ≠ p.id)
      pending := d.pending ++ [p] } where
  lookup_eq := fun _ => rfl
  type_eq := fun h => h
  forward_iff {id other} htype hne := by
    have hid : id ≠ p.id := by
      rintro rfl
      rw [htype] at hshown
      obtain rfl := TypeDef.forward.inj (Option.some.inj hshown)
      exact hne hkey
    simp [hid]
  pending_subset := List.subset_append_left _ _

/-- A draft shows where all names stand after some declarations. -/
structure Reflects (es : List Entry) (d : Draft) : Prop where
  stands : ∀ key, d.Stands key (standing es key)
  waiting : ∀ p ∈ d.pending, ∃ shown, standing es p.name.text = .defined shown p.name p.body
  forward_inTable : ∀ id ∈ d.forwardOnly, d.InTable id

theorem reflects_empty : Reflects [] {} := ⟨fun _ => rfl, by simp, by simp⟩

/-- One more declaration changes where its own name stands. -/
theorem Reflects.declare (h : d.Reflects es)
    (hown : d'.Stands e.key ((standing es e.key).declare e)) (hchange : d.ChangesOnly e.key d')
    (hwaiting : ∀ p ∈ d'.pending, p ∈ d.pending ∧ p.name.text ≠ e.key ∨
      p.name.text = e.key ∧ ∃ shown, (standing es e.key).declare e = .defined shown p.name p.body)
    (hforward : ∀ id ∈ d'.forwardOnly, d'.InTable id) : d'.Reflects (es ++ [e]) where
  stands other := by
    by_cases hother : other = e.key
    · rw [hother, standing_append_self]
      exact hown
    · rw [standing_append_of_ne es (Ne.symm hother)]
      exact (h.stands other).frame hchange hother
  waiting p hp := by
    rcases hwaiting p hp with ⟨hold, hne⟩ | ⟨hkey, hdefined⟩
    · rw [standing_append_of_ne es (Ne.symm hne)]
      exact h.waiting p hold
    · rw [hkey, standing_append_self]
      exact hdefined
  forward_inTable := hforward

theorem Reflects.ne_of_waiting (h : d.Reflects es) (hundefined : ∀ shown name body,
    standing es key ≠ .defined shown name body) {p : Pending} (hp : p ∈ d.pending) :
    p.name.text ≠ key := by
  rintro rfl
  obtain ⟨shown, hdefined⟩ := h.waiting p hp
  exact hundefined _ _ _ hdefined

section Unseen

variable (h : d.Reflects es) (hunseen : standing es e.key = .unseen)
include h hunseen

theorem Reflects.enter {what : Declared} {st : Standing} (hdeclare : Standing.unseen.declare e = st)
    (hstands : Stands { d with names := (e.key, what) :: d.names } e.key st) :
    Reflects (es ++ [e]) { d with names := (e.key, what) :: d.names } := by
  refine h.declare ?_ (d.changesOnly_enter e.key what) ?_ h.forward_inTable
  · rwa [hunseen, hdeclare]
  · exact fun p hp => .inl ⟨hp, h.ne_of_waiting (by simp [hunseen]) hp⟩

theorem Reflects.define {body : TypeBody}
    (hdeclare : Standing.unseen.declare e = .defined e.name e.name body) :
    Reflects (es ++ [e]) { d.reserve e.name with
      pending := d.pending ++ [⟨⟨d.types.size⟩, e.name, body⟩] } := by
  refine h.declare ?_ (d.changesOnly_define e.name body) ?_ ?_
  · rw [hunseen, hdeclare]
    refine ⟨rfl, ⟨d.types.size⟩, List.lookup_cons_self, Array.getElem?_push_size, ?_, by simp⟩
    exact fun hmem => Nat.lt_irrefl _ (h.forward_inTable _ hmem)
  · intro p hp
    rw [hunseen, hdeclare]
    rcases List.mem_append.mp hp with hp | hp
    · exact .inl ⟨hp, h.ne_of_waiting (by simp [hunseen]) hp⟩
    · obtain rfl := List.mem_singleton.mp hp
      exact .inr ⟨rfl, _, rfl⟩
  · exact fun id hid => (h.forward_inTable id hid).push _

theorem Reflects.announce (hdeclare : Standing.unseen.declare e = .announced e.name) :
    Reflects (es ++ [e]) { d.reserve e.name with
      forwardOnly := ⟨d.types.size⟩ :: d.forwardOnly } := by
  refine h.declare ?_ (d.changesOnly_announce e.name) ?_ ?_
  · rw [hunseen, hdeclare]
    exact ⟨rfl, ⟨d.types.size⟩, List.lookup_cons_self, Array.getElem?_push_size,
      List.mem_cons_self⟩
  · exact fun p hp => .inl ⟨hp, h.ne_of_waiting (by simp [hunseen]) hp⟩
  · intro id hid
    rcases List.mem_cons.mp hid with rfl | hid
    · exact d.inTable_reserve e.name
    · exact (h.forward_inTable id hid).push _

end Unseen

/-- A definition takes over the place of forward declarations. -/
theorem Reflects.takeOver (h : d.Reflects es) {shown name : QualifiedName} {body : TypeBody}
    {id : TypeId} (hstanding : standing es e.key = .announced shown)
    (hid : d.names.lookup e.key = some (.type id)) (hname : name.text = e.key)
    (hdeclare : (Standing.announced shown).declare e = .defined shown name body) :
    Reflects (es ++ [e]) { d with
      forwardOnly := d.forwardOnly.filter (· ≠ id)
      pending := d.pending ++ [⟨id, name, body⟩] } := by
  have hstands := h.stands e.key
  rw [hstanding] at hstands
  obtain ⟨hshown, id', hid', htype, -⟩ := hstands
  obtain rfl := Declared.type.inj (Option.some.inj (hid'.symm.trans hid))
  refine h.declare ?_ (changesOnly_takeOver (p := ⟨id', name, body⟩) htype hshown) ?_ ?_
  · rw [hstanding, hdeclare]
    exact ⟨hshown, id', hid, htype, by simp, by simp⟩
  · intro p hp
    rw [hstanding, hdeclare]
    rcases List.mem_append.mp hp with hp | hp
    · exact .inl ⟨hp, h.ne_of_waiting (by simp [hstanding]) hp⟩
    · obtain rfl := List.mem_singleton.mp hp
      exact .inr ⟨hname, _, rfl⟩
  · exact fun id hid => h.forward_inTable id (List.mem_of_mem_filter hid)

theorem Reflects.again (h : d.Reflects es)
    (hsame : (standing es e.key).declare e = standing es e.key) : d.Reflects (es ++ [e]) := by
  refine ⟨fun other => ?_, fun p hp => ?_, h.forward_inTable⟩
  · by_cases hother : other = e.key
    · rw [hother, standing_append_self, hsame]
      exact h.stands e.key
    · rw [standing_append_of_ne es (Ne.symm hother)]
      exact h.stands other
  · obtain ⟨shown, hdefined⟩ := h.waiting p hp
    refine ⟨shown, ?_⟩
    by_cases hother : p.name.text = e.key
    · rwa [hother, standing_append_self, hsame, ← hother]
    · rwa [standing_append_of_ne es (Ne.symm hother)]

end Draft

/-- A name that is taken cannot be entered. -/
def refusal (name : QualifiedName) : SchemaError := .duplicateName name.scope.text name.name

variable {E : SchemaError → Prop}

theorem ends_enter_fresh {name : QualifiedName} {what : Declared} {Q : Unit → Draft → Prop}
    (hfresh : d.names.lookup name.text = none →
      Q () { d with names := (name.text, what) :: d.names })
    (htaken : d.names.lookup name.text ≠ none → E (refusal name)) :
    (Draft.enter name what).Ends d Q E := by
  unfold Draft.enter
  apply Build.ends_get_bind
  apply Build.ends_check
  · exact fun hsome => htaken (Option.isSome_iff_ne_none.mp hsome)
  · exact fun hnone => hfresh (Option.not_isSome_iff_eq_none.mp hnone)

theorem ends_reserve_fresh {name : QualifiedName} {next : TypeId → Build Unit}
    {Q : Unit → Draft → Prop}
    (hfresh : d.names.lookup name.text = none → (next ⟨d.types.size⟩).Ends (d.reserve name) Q E)
    (htaken : d.names.lookup name.text ≠ none → E (refusal name)) :
    (do
      let id ← Draft.push (.forward name)
      Draft.enter name (.type id)
      next id : Build Unit).Ends d Q E := by
  have hpush : (Draft.push (.forward name)).Ends d (fun id d' =>
      id = ⟨d.types.size⟩ ∧ d' = { d with types := d.types.push (.forward name) }) E := ⟨rfl, rfl⟩
  apply hpush.bind
  rintro _ _ ⟨rfl, rfl⟩
  refine Build.Ends.bind (Q := fun _ d' => d.names.lookup name.text = none ∧ d' = d.reserve name)
    (ends_enter_fresh (fun hnew => ⟨hnew, rfl⟩) htaken) ?_
  rintro _ _ ⟨hnew, rfl⟩
  exact hfresh hnew

/-- A declaration that does not clash is made, and one that clashes is refused. -/
def Refuses (es : List Entry) (e : Entry) (error : SchemaError) : Prop :=
  (standing es e.key).declare e = .clash ∧ error = refusal e.name

section

variable (h : d.Reflects es)
include h

theorem Draft.Reflects.unseen_of_lookup (hnew : d.names.lookup key = none) :
    standing es key = .unseen :=
  (h.stands key).lookup_eq_none_iff.mp hnew

theorem Draft.Reflects.seen_of_lookup (htaken : d.names.lookup key ≠ none) :
    standing es key ≠ .unseen :=
  fun hunseen => htaken ((h.stands key).lookup_eq_none_iff.mpr hunseen)

/-- A name that has no place of its own to take over must be new. -/
theorem ends_declareFresh_reflects (scope : QualifiedName) (decl : Document.TypeDecl)
    (hclash : standing es (scope.child decl.name).text ≠ .unseen →
      (standing es (scope.child decl.name).text).declare (.type scope decl) = .clash) :
    (declareFresh scope decl).Ends d (fun _ d' => d'.Reflects (es ++ [.type scope decl]))
      (Refuses es (.type scope decl)) := by
  have htaken (ht : d.names.lookup (scope.child decl.name).text ≠ none) :
      Refuses es (.type scope decl) (refusal (scope.child decl.name)) :=
    ⟨hclash (h.seen_of_lookup ht), rfl⟩
  obtain ⟨own, body⟩ := decl
  unfold declareFresh
  cases body <;> dsimp only
  case «alias» target =>
    exact ends_enter_fresh
      (fun hnew => h.enter (e := .type scope ⟨own, _⟩) (h.unseen_of_lookup hnew) rfl
        List.lookup_cons_self) htaken
  case forward =>
    refine ends_reserve_fresh (fun hnew => Build.ends_modify ?_) htaken
    exact h.announce (e := .type scope ⟨own, _⟩) (h.unseen_of_lookup hnew) rfl
  all_goals
    refine ends_reserve_fresh (fun hnew => Build.ends_modify ?_) htaken
    exact h.define (e := .type scope ⟨own, _⟩) (h.unseen_of_lookup hnew) rfl

theorem ends_declareType_reflects (scope : QualifiedName) (decl : Document.TypeDecl) :
    (declareType scope decl).Ends d (fun _ d' => d'.Reflects (es ++ [.type scope decl]))
      (Refuses es (.type scope decl)) := by
  have hstands := h.stands (scope.child decl.name).text
  unfold declareType
  apply Build.ends_get_bind
  match hplace : d.names.lookup (scope.child decl.name).text with
  | none | some .interface | some (.alias _ _) =>
    exact ends_declareFresh_reflects h scope decl (hstands.clash_of_no_place (by simp [hplace]))
  | some (.type id) =>
    dsimp only
    rcases hstands.announced_or_defined hplace with ⟨shown, hst, honly⟩ |
      ⟨shown, name, body, hst, honly⟩
    · by_cases hforward : decl.body = .forward
      · rw [if_pos hforward]
        refine Build.ends_pure (h.again (e := .type scope decl) ?_)
        exact hst ▸ if_pos hforward
      · rw [if_neg hforward, if_pos honly]
        exact h.takeOver (e := .type scope decl) hst hplace rfl (if_neg hforward)
    · by_cases hforward : decl.body = .forward
      · rw [if_pos hforward]
        refine Build.ends_pure (h.again (e := .type scope decl) ?_)
        exact hst ▸ if_pos hforward
      · rw [if_neg hforward, if_neg honly]
        exact ends_declareFresh_reflects h scope decl fun _ => hst ▸ if_neg hforward

end

theorem ends_declareEntry (h : d.Reflects es) (e : Entry) :
    (declareEntry e).Ends d (fun _ d' => d'.Reflects (es ++ [e])) (Refuses es e) := by
  cases e with
  | type scope decl => exact ends_declareType_reflects h scope decl
  | interface name =>
    refine ends_enter_fresh (fun hnew => ?_) fun htaken => ⟨?_, rfl⟩
    · exact h.enter (e := .interface name) (h.unseen_of_lookup hnew) rfl List.lookup_cons_self
    · exact Standing.declare_interface (h.seen_of_lookup htaken)
  | exception name members =>
    refine ends_reserve_fresh (fun hnew => Build.ends_modify ?_) fun htaken => ⟨?_, rfl⟩
    · exact h.define (e := .exception name members) (h.unseen_of_lookup hnew) rfl
    · exact Standing.declare_exception (h.seen_of_lookup htaken)

/-- Declarations that go together are all made. Otherwise the first that clashes is refused. -/
theorem ends_declareEntries (h : d.Reflects es) (rest : List Entry) :
    (forM rest declareEntry).Ends d (fun _ d' => d'.Reflects (es ++ rest))
      (fun error => ∃ before e after, rest = before ++ e :: after ∧
        Refuses (es ++ before) e error) := by
  induction rest generalizing d es with
  | nil => exact Build.ends_pure (by rwa [List.append_nil])
  | cons e rest ih =>
    rw [List.forM_cons]
    refine Build.Ends.bind ((ends_declareEntry h e).mono (fun _ _ h => h) ?_) ?_
    · exact fun error herror => ⟨[], e, rest, rfl, by rwa [List.append_nil]⟩
    · intro _ mid hmid
      refine (ih hmid).mono (fun _ _ h => ?_) ?_
      · rwa [List.append_assoc] at h
      · rintro error ⟨before, e', after, rfl, hrefuses⟩
        refine ⟨e :: before, e', after, rfl, ?_⟩
        rwa [List.append_assoc] at hrefuses

theorem Refuses.standing_eq {error : SchemaError} (h : Refuses es e error) (rest : List Entry) :
    standing (es ++ e :: rest) e.key = .clash := by
  rw [← List.singleton_append, ← List.append_assoc, standing_append, standing_append_self, h.1,
    Standing.foldl_clash]

/-- Declaring comes to a draft that shows where every name of the document stands. It fails if some
name clashes. -/
theorem ends_declareModules_reflects (doc : Document) :
    (declareModules .root doc.modules).Ends {} (fun _ d' => d'.Reflects doc.entries)
      (fun error => ∃ e ∈ doc.entries, standing doc.entries e.key = .clash ∧
        error = refusal e.name) := by
  rw [declareModules_eq]
  refine (ends_declareEntries Draft.reflects_empty (Document.entriesOf .root doc.modules)).mono
    (fun _ _ h => h) ?_
  rintro error ⟨before, e, after, hsplit, hrefuses⟩
  have hentries : doc.entries = before ++ e :: after := hsplit
  rw [hentries]
  exact ⟨e, by simp, hrefuses.standing_eq after, hrefuses.2⟩

end Schema
end WireSchema
