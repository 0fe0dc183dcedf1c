import Mathlib.Data.List.Nodup
import Mathlib.Logic.Relation
import WireSchema.Proofs.Schema.Reference

/-!
# Sound drafts

The table of a draft and the names that are declared so far agree: every type stands where its name
or its spelling says, and whatever refers to a place refers to one in the table. Declaring, defining
and assembling change a draft in a few ways only, and each of them keeps this.
-/
namespace WireSchema

open Schema

namespace TypeDef

/-- The types that a definition refers to. -/
def parts : TypeDef → List TypeId
  | .record r => r.members.map (·.type)
  | .sequence q => [q.element]
  | .map m => [m.key, m.value]
  | _ => []

theorem parts_of_primitive {type : TypeDef} (h : type.name? = none) : type.parts = [] := by
  cases type <;> simp_all [name?, parts]

/-- The types without a name. -/
def primitives : List TypeDef :=
  [.bool, .text false, .text true, .blob] ++ Numeric.all.map .numeric

theorem mem_primitives {type : TypeDef} (h : type.name? = none) : type ∈ primitives := by
  cases type with
  | bool => decide
  | numeric n => cases n <;> decide
  | text wide => cases wide <;> decide
  | blob => decide
  | _ => cases h

theorem eq_of_describe {type other : TypeDef} (h : type.name? = none) (h' : other.name? = none)
    (hsame : type.describe = other.describe) : type = other := by
  have hnodup : (primitives.map describe).Nodup := by decide
  exact List.inj_on_of_nodup_map hnodup (mem_primitives h) (mem_primitives h') hsame

theorem name?_of_primitive? {reference : String} {type : TypeDef}
    (h : primitive? reference = some type) : type.name? = none := by
  have hall : ∀ p ∈ primitiveNames, p.2.name? = none := by decide
  exact hall _ (mem_of_lookup h)

end TypeDef

namespace Schema.Draft

variable {d d' : Draft} {id : TypeId} {type : TypeDef} {name : QualifiedName} {key : String}

/-- The place of a type is one in the table. -/
def InTable (d : Draft) (id : TypeId) : Prop := id.index < d.types.size

theorem inTable_of_getElem? (h : d.types[id.index]? = some type) : d.InTable id :=
  (Array.getElem?_eq_some_iff.mp h).1

/-- The table of a draft agrees with its names. -/
structure Sound (d : Draft) : Prop where
  /-- A type stands at the place for which its name is declared. -/
  place_of_name : ∀ {i : Nat} {type : TypeDef} {name : QualifiedName},
    d.types[i]? = some type → type.name? = some name → d.names.lookup name.text = some (.type ⟨i⟩)
  /-- A primitive type stands at the place for its spelling. -/
  place_of_primitive : ∀ {i : Nat} {type : TypeDef}, d.types[i]? = some type → type.name? = none →
    d.primitives.lookup type.describe = some ⟨i⟩
  named : ∀ {key : String} {id : TypeId}, d.names.lookup key = some (.type id) →
    ∃ type name, d.types[id.index]? = some type ∧ type.name? = some name ∧ name.text = key
  spelled : ∀ {key : String} {id : TypeId}, d.primitives.lookup key = some id →
    ∃ type, d.types[id.index]? = some type ∧ type.name? = none ∧ type.describe = key
  remembered : ∀ {key : String} {id : TypeId}, d.aliases.lookup key = some id → d.InTable id
  parts : ∀ {i : Nat} {type : TypeDef}, d.types[i]? = some type → ∀ id ∈ type.parts, d.InTable id
  /-- A definition waits for the place of its name. -/
  awaited : ∀ p ∈ d.pending, d.names.lookup p.name.text = some (.type p.id)

theorem Sound.inTable_of_name (hd : d.Sound) (h : d.names.lookup key = some (.type id)) :
    d.InTable id := by
  obtain ⟨type, name, htype, -⟩ := hd.named h
  exact inTable_of_getElem? htype

theorem sound_empty : Sound {} where
  place_of_name h := by simp at h
  place_of_primitive h := by simp at h
  named h := by cases h
  spelled h := by cases h
  remembered h := by cases h
  parts h := by simp at h
  awaited := by simp

section Entries

variable {α : Type} {entries : List (String × α)} {added : String} {a b : α}

theorem lookup_cons_of_fresh (hfresh : entries.lookup added = none)
    (h : entries.lookup key = some a) : ((added, b) :: entries).lookup key = some a := by
  have hne : key ≠ added := by
    rintro rfl
    rw [hfresh] at h
    cases h
  rw [List.lookup_cons, beq_eq_false_iff_ne.mpr hne]
  exact h

theorem lookup_cons_eq_some (h : ((added, b) :: entries).lookup key = some a) :
    key = added ∧ b = a ∨ entries.lookup key = some a := by
  rw [List.lookup_cons] at h
  by_cases hkey : key = added
  · left
    rw [beq_iff_eq.mpr hkey] at h
    exact ⟨hkey, Option.some.inj h⟩
  · right
    rwa [beq_eq_false_iff_ne.mpr hkey] at h

variable {xs : Array α} {i : Nat}

theorem getElem?_push_of_some (h : xs[i]? = some a) : (xs.push b)[i]? = some a := by
  have hi : i < xs.size := (Array.getElem?_eq_some_iff.mp h).1
  rw [Array.getElem?_push, if_neg (by omega), h]

theorem getElem?_push_eq_some (h : (xs.push b)[i]? = some a) :
    i = xs.size ∧ b = a ∨ xs[i]? = some a := by
  rw [Array.getElem?_push] at h
  split at h
  · exact .inl ⟨‹_›, Option.some.inj h⟩
  · exact .inr h

end Entries

def reserve (d : Draft) (name : QualifiedName) : Draft :=
  { d with types := d.types.push (.forward name)
           names := (name.text, .type ⟨d.types.size⟩) :: d.names }

theorem InTable.push (h : d.InTable id) (type : TypeDef) : id.index < (d.types.push type).size := by
  rw [Array.size_push]
  exact Nat.lt_succ_of_lt h

theorem Sound.reserve (hd : d.Sound) (hfresh : d.names.lookup name.text = none) :
    (d.reserve name).Sound where
  place_of_name {i type other} htype hname := by
    obtain ⟨rfl, rfl⟩ | htype := getElem?_push_eq_some htype
    · obtain rfl := Option.some.inj hname
      exact List.lookup_cons_self
    · exact lookup_cons_of_fresh hfresh (hd.place_of_name htype hname)
  place_of_primitive {i type} htype hname := by
    obtain ⟨-, rfl⟩ | htype := getElem?_push_eq_some htype
    · cases hname
    · exact hd.place_of_primitive htype hname
  named {key id} h := by
    obtain ⟨rfl, hid⟩ | h := lookup_cons_eq_some h
    · obtain rfl := Declared.type.inj hid
      exact ⟨.forward name, name, Array.getElem?_push_size, rfl, rfl⟩
    · obtain ⟨type, other, htype, hother⟩ := hd.named h
      exact ⟨type, other, getElem?_push_of_some htype, hother⟩
  spelled {key id} h := by
    obtain ⟨type, htype, hspelled⟩ := hd.spelled h
    exact ⟨type, getElem?_push_of_some htype, hspelled⟩
  remembered h := (hd.remembered h).push _
  parts {i type} htype id hid := by
    obtain ⟨-, rfl⟩ | htype := getElem?_push_eq_some htype
    · cases hid
    · exact (hd.parts htype id hid).push _
  awaited p hp := lookup_cons_of_fresh hfresh (hd.awaited p hp)

/-- A name under which no type is declared takes no place. -/
theorem Sound.enter (hd : d.Sound) {key : String} {what : Declared}
    (hfresh : d.names.lookup key = none) (hwhat : ∀ id, what ≠ .type id) :
    Sound { d with names := (key, what) :: d.names } where
  place_of_name htype hname := lookup_cons_of_fresh hfresh (hd.place_of_name htype hname)
  place_of_primitive := hd.place_of_primitive
  named {other id} h := by
    obtain ⟨-, hid⟩ | h := lookup_cons_eq_some h
    · exact absurd hid (hwhat id)
    · exact hd.named h
  spelled := hd.spelled
  remembered := hd.remembered
  parts := hd.parts
  awaited p hp := lookup_cons_of_fresh hfresh (hd.awaited p hp)

theorem Sound.await (hd : d.Sound) {pending : List Pending}
    (hpending : ∀ p ∈ pending, d.names.lookup p.name.text = some (.type p.id)) :
    Sound { d with pending := pending } :=
  { hd with awaited := hpending }

/-- The types of the table have certain names. -/
def TypesNamed (P : QualifiedName → Prop) (d : Draft) : Prop :=
  ∀ (i : Nat) (type : TypeDef) (name : QualifiedName), d.types[i]? = some type →
    type.name? = some name → P name

/-- The drafts that declaring types under certain names comes to, with the interfaces that are
declared on the way. -/
inductive Declaring (P : QualifiedName → Prop) : (interfaces : List String) → Draft → Prop
  | empty : Declaring P [] {}
  | reserve {interfaces : List String} {d : Draft} {name : QualifiedName}
    (hd : Declaring P interfaces d) (hname : P name) (hfresh : d.names.lookup name.text = none) :
    Declaring P interfaces (d.reserve name)
  | synonym {interfaces : List String} {d : Draft} {name scope : QualifiedName} {target : String}
    (hd : Declaring P interfaces d) (hfresh : d.names.lookup name.text = none) :
    Declaring P interfaces { d with names := (name.text, .alias target scope) :: d.names }
  | interface {interfaces : List String} {d : Draft} {name : QualifiedName}
    (hd : Declaring P interfaces d) (hfresh : d.names.lookup name.text = none) :
    Declaring P (interfaces ++ [name.text]) { d with names := (name.text, .interface) :: d.names }
  | await {interfaces : List String} {d : Draft} {p : Pending} (hd : Declaring P interfaces d)
    (hname : P p.name) (hplace : d.names.lookup p.name.text = some (.type p.id)) :
    Declaring P interfaces { d with pending := d.pending ++ [p] }
  | forwardOnly {interfaces : List String} {d : Draft} (hd : Declaring P interfaces d)
    (ids : List TypeId) : Declaring P interfaces { d with forwardOnly := ids }

namespace Declaring

variable {P : QualifiedName → Prop} {interfaces : List String}

theorem sound (h : Declaring P interfaces d) : d.Sound := by
  induction h with
  | empty => exact sound_empty
  | reserve _ _ hfresh ih => exact ih.reserve hfresh
  | synonym _ hfresh ih => exact ih.enter hfresh nofun
  | interface _ hfresh ih => exact ih.enter hfresh nofun
  | await _ _ hplace ih =>
    apply ih.await
    intro p hp
    obtain hp | hp := List.mem_append.mp hp
    · exact ih.awaited p hp
    · obtain rfl := List.mem_singleton.mp hp
      exact hplace
  | forwardOnly _ ids ih => exact { ih with }

theorem aliases_eq (h : Declaring P interfaces d) : d.aliases = [] := by
  induction h with
  | empty => rfl
  | _ => assumption

theorem named (h : Declaring P interfaces d) : d.TypesNamed P ∧ ∀ p ∈ d.pending, P p.name := by
  induction h with
  | empty => exact ⟨by simp [TypesNamed], by simp⟩
  | reserve _ hname _ ih =>
    refine ⟨?_, ih.2⟩
    intro i type name htype hnamed
    obtain ⟨-, rfl⟩ | htype := getElem?_push_eq_some htype
    · obtain rfl := Option.some.inj hnamed
      exact hname
    · exact ih.1 i type name htype hnamed
  | await _ hname _ ih =>
    refine ⟨ih.1, ?_⟩
    intro p hp
    obtain hp | hp := List.mem_append.mp hp
    · exact ih.2 p hp
    · obtain rfl := List.mem_singleton.mp hp
      exact hname
  | _ => assumption

theorem lookup_interface (h : Declaring P interfaces d) (hkey : key ∈ interfaces) :
    d.names.lookup key = some .interface := by
  induction h with
  | empty => cases hkey
  | reserve _ _ hfresh ih => exact lookup_cons_of_fresh hfresh (ih hkey)
  | synonym _ hfresh ih => exact lookup_cons_of_fresh hfresh (ih hkey)
  | interface _ hfresh ih =>
    obtain hkey | hkey := List.mem_append.mp hkey
    · exact lookup_cons_of_fresh hfresh (ih hkey)
    · obtain rfl := List.mem_singleton.mp hkey
      exact List.lookup_cons_self
  | await _ _ _ ih => exact ih hkey
  | forwardOnly _ _ ih => exact ih hkey

theorem nodup (h : Declaring P interfaces d) : interfaces.Nodup := by
  induction h with
  | empty => exact List.nodup_nil
  | interface hd hfresh ih =>
    rw [List.nodup_append]
    refine ⟨ih, List.nodup_singleton _, ?_⟩
    intro key hkey other hother
    obtain rfl := List.mem_singleton.mp hother
    rintro rfl
    rw [hd.lookup_interface hkey] at hfresh
    cases hfresh
  | _ => assumption

end Declaring

/-- A later draft has the same names. Its table may be longer, and primitive types keep their
places. -/
structure Extends (d d' : Draft) : Prop where
  names_eq : d'.names = d.names
  size_le : d.types.size ≤ d'.types.size
  primitive : ∀ {i : Nat} {type : TypeDef}, d.types[i]? = some type → type.name? = none →
    d'.types[i]? = some type

theorem Extends.refl (d : Draft) : d.Extends d := ⟨rfl, Nat.le_refl _, fun h _ => h⟩

theorem Extends.trans {d'' : Draft} (h : d.Extends d') (h' : d'.Extends d'') : d.Extends d'' where
  names_eq := h'.names_eq.trans h.names_eq
  size_le := Nat.le_trans h.size_le h'.size_le
  primitive htype hname := h'.primitive (h.primitive htype hname) hname

theorem InTable.mono (h : d.InTable id) (hext : d.Extends d') : d'.InTable id :=
  Nat.lt_of_lt_of_le h hext.size_le

/-- A draft in which a primitive type is used for the first time. -/
def withPrimitive (d : Draft) (type : TypeDef) : Draft :=
  { d with types := d.types.push type
           primitives := (type.describe, ⟨d.types.size⟩) :: d.primitives }

theorem extends_withPrimitive (d : Draft) (type : TypeDef) : d.Extends (d.withPrimitive type) where
  names_eq := rfl
  size_le := by
    unfold withPrimitive
    rw [Array.size_push]
    exact Nat.le_succ _
  primitive htype _ := getElem?_push_of_some htype

theorem Sound.withPrimitive (hd : d.Sound) (hname : type.name? = none)
    (hfresh : d.primitives.lookup type.describe = none) : (d.withPrimitive type).Sound where
  place_of_name {i other name} hother hnamed := by
    obtain ⟨-, rfl⟩ | hother := getElem?_push_eq_some hother
    · rw [hname] at hnamed
      cases hnamed
    · exact hd.place_of_name hother hnamed
  place_of_primitive {i other} hother hprimitive := by
    obtain ⟨rfl, rfl⟩ | hother := getElem?_push_eq_some hother
    · exact List.lookup_cons_self
    · exact lookup_cons_of_fresh hfresh (hd.place_of_primitive hother hprimitive)
  named {key id} h := by
    obtain ⟨other, name, hother, hnamed⟩ := hd.named h
    exact ⟨other, name, getElem?_push_of_some hother, hnamed⟩
  spelled {key id} h := by
    obtain ⟨rfl, rfl⟩ | h := lookup_cons_eq_some h
    · exact ⟨type, Array.getElem?_push_size, hname, rfl⟩
    · obtain ⟨other, hother, hspelled⟩ := hd.spelled h
      exact ⟨other, getElem?_push_of_some hother, hspelled⟩
  remembered h := (hd.remembered h).push _
  parts {i other} hother id hid := by
    obtain ⟨-, rfl⟩ | hother := getElem?_push_eq_some hother
    · rw [TypeDef.parts_of_primitive hname] at hid
      cases hid
    · exact (hd.parts hother id hid).push _
  awaited := hd.awaited

/-- A primitive type stands at the place that is given for it. -/
theorem Sound.intern (hd : d.Sound) (hname : type.name? = none)
    (h : intern type d = .ok (id, d')) :
    d'.Sound ∧ d.Extends d' ∧ d'.types[id.index]? = some type ∧ d'.aliases = d.aliases := by
  rw [intern_eq] at h
  cases hlookup : d.primitives.lookup type.describe with
  | some place =>
    rw [hlookup] at h
    obtain ⟨rfl, rfl⟩ := Prod.mk.inj (Except.ok.inj h)
    obtain ⟨other, hother, hprimitive, hspelled⟩ := hd.spelled hlookup
    obtain rfl := TypeDef.eq_of_describe hprimitive hname hspelled
    exact ⟨hd, .refl d, hother, rfl⟩
  | none =>
    rw [hlookup] at h
    obtain ⟨rfl, rfl⟩ := Prod.mk.inj (Except.ok.inj h)
    have hsound := hd.withPrimitive hname hlookup
    exact ⟨hsound, extends_withPrimitive d type, Array.getElem?_push_size, rfl⟩

theorem Sound.remember (hd : d.Sound) (hid : d.InTable id) (key : String) :
    (d.remember key id).Sound :=
  { hd with
    remembered := by
      intro other found h
      obtain ⟨-, rfl⟩ | h := lookup_cons_eq_some h
      · exact hid
      · exact hd.remembered h }

/-- Resolving gives a place in the table. -/
theorem Sound.resolves {following : List String} {scope : QualifiedName} {reference : String}
    {result : Except SchemaError (TypeId × Draft)} (hd : d.Sound)
    (h : d.Resolves following scope reference result) (hresult : result = .ok (id, d')) :
    d'.Sound ∧ d.Extends d' ∧ d'.InTable id := by
  induction h generalizing id d' with
  | primitive hprimitive =>
    obtain ⟨hd', hext, hplace, -⟩ := hd.intern (TypeDef.name?_of_primitive? hprimitive) hresult
    exact ⟨hd', hext, inTable_of_getElem? hplace⟩
  | unknown => cases hresult
  | type _ hreferent =>
    obtain ⟨rfl, rfl⟩ := Prod.mk.inj (Except.ok.inj hresult)
    obtain ⟨name, hmeans⟩ := refersTo?_eq_type_iff.mp hreferent
    exact ⟨hd, .refl d, hd.inTable_of_name hmeans.lookup_eq⟩
  | remembered _ _ hknown =>
    obtain ⟨rfl, rfl⟩ := Prod.mk.inj (Except.ok.inj hresult)
    exact ⟨hd, .refl d, hd.remembered hknown⟩
  | cycle => cases hresult
  | @follow following scope home reference name target result _ _ _ _ _ ih =>
    cases result with
    | error e => cases hresult
    | ok p =>
      obtain ⟨hd', hext, hid⟩ := ih rfl
      obtain ⟨rfl, rfl⟩ := Prod.mk.inj (Except.ok.inj hresult)
      exact ⟨hd'.remember hid name, ⟨hext.names_eq, hext.size_le, hext.primitive⟩, hid⟩

theorem getElem?_set_eq_some {α : Type} {xs : Array α} {a b : α} {i j : Nat}
    (h : (xs.setIfInBounds i a)[j]? = some b) : i = j ∧ a = b ∨ i ≠ j ∧ xs[j]? = some b := by
  rw [Array.getElem?_setIfInBounds] at h
  by_cases hij : i = j
  · rw [if_pos hij] at h
    split at h
    · exact .inl ⟨hij, Option.some.inj h⟩
    · cases h
  · rw [if_neg hij] at h
    exact .inr ⟨hij, h⟩

def withType (d : Draft) (id : TypeId) (type : TypeDef) : Draft :=
  { d with types := d.types.setIfInBounds id.index type }

section Definition

variable (hd : d.Sound) (hplace : d.names.lookup name.text = some (.type id))
include hd hplace

theorem Sound.ne_place_of_primitive {i : Nat} (htype : d.types[i]? = some type)
    (hprimitive : type.name? = none) : id.index ≠ i := by
  rintro rfl
  obtain ⟨kept, other, hkept, hother, -⟩ := hd.named hplace
  rw [htype] at hkept
  obtain rfl := Option.some.inj hkept
  rw [hprimitive] at hother
  cases hother

theorem Sound.extends_withType (type : TypeDef) : d.Extends (d.withType id type) where
  names_eq := rfl
  size_le := Nat.le_of_eq Array.size_setIfInBounds.symm
  primitive htype hprimitive := by
    have hne := hd.ne_place_of_primitive hplace htype hprimitive
    exact (Array.getElem?_setIfInBounds_ne hne).trans htype

theorem Sound.withType (hname : type.name? = some name)
    (hparts : ∀ part ∈ type.parts, d.InTable part) : (d.withType id type).Sound := by
  have hext := hd.extends_withType hplace type
  have hbound : id.index < d.types.size := hd.inTable_of_name hplace
  exact {
    place_of_name := by
      intro i other otherName hother hotherName
      obtain ⟨rfl, rfl⟩ | ⟨-, hother⟩ := getElem?_set_eq_some hother
      · obtain rfl := Option.some.inj (hname.symm.trans hotherName)
        exact hplace
      · exact hd.place_of_name hother hotherName
    place_of_primitive := by
      intro i other hother hprimitive
      obtain ⟨-, rfl⟩ | ⟨-, hother⟩ := getElem?_set_eq_some hother
      · rw [hname] at hprimitive
        cases hprimitive
      · exact hd.place_of_primitive hother hprimitive
    named := by
      intro key place hkey
      obtain ⟨other, otherName, hother, hotherName, rfl⟩ := hd.named hkey
      -- The place that gets its definition was kept for the same written name.
      by_cases hsame : id.index = place.index
      · obtain ⟨kept, keptName, hkept, hkeptName, htext⟩ := hd.named hplace
        rw [hsame, hother] at hkept
        obtain rfl := Option.some.inj hkept
        obtain rfl := Option.some.inj (hkeptName.symm.trans hotherName)
        refine ⟨type, name, ?_, hname, htext.symm⟩
        rw [← hsame]
        exact Array.getElem?_setIfInBounds_self_of_lt hbound
      · exact ⟨other, otherName, (Array.getElem?_setIfInBounds_ne hsame).trans hother,
          hotherName, rfl⟩
    spelled := by
      intro key place hkey
      obtain ⟨other, hother, hprimitive, rfl⟩ := hd.spelled hkey
      exact ⟨other, hext.primitive hother hprimitive, hprimitive, rfl⟩
    remembered := fun hkey => (hd.remembered hkey).mono hext
    parts := by
      intro i other hother part hpart
      obtain ⟨-, rfl⟩ | ⟨-, hother⟩ := getElem?_set_eq_some hother
      · exact (hparts part hpart).mono hext
      · exact (hd.parts hother part hpart).mono hext
    awaited := hd.awaited }

end Definition

/-- One change of a draft after all names are declared. -/
inductive Step : Draft → Draft → Prop
  | resolve {d d' : Draft} {scope : QualifiedName} {reference : String} {id : TypeId}
    (h : resolve scope reference d = .ok (id, d')) : Step d d'
  | define {d : Draft} {name : QualifiedName} {id : TypeId} {type : TypeDef}
    (hplace : d.names.lookup name.text = some (.type id)) (hname : type.name? = some name)
    (hparts : ∀ part ∈ type.parts, d.InTable part) : Step d (d.withType id type)
  | settle (d : Draft) : Step d { d with pending := [] }
  | number (d : Draft) (uids : List (UInt32 × String)) : Step d { d with interfaceUids := uids }

/-- The drafts that defining and assembling can come to. -/
def Reaches : Draft → Draft → Prop := Relation.ReflTransGen Step

theorem Sound.step (hd : d.Sound) (h : Step d d') : d'.Sound ∧ d.Extends d' := by
  cases h with
  | @resolve _ scope reference id h =>
    obtain ⟨hd', hext, -⟩ := hd.resolves (resolves_resolve d scope reference) h
    exact ⟨hd', hext⟩
  | define hplace hname hparts =>
    exact ⟨hd.withType hplace hname hparts, hd.extends_withType hplace _⟩
  | settle => exact ⟨hd.await (by simp), rfl, Nat.le_refl _, fun htype _ => htype⟩
  | number => exact ⟨{ hd with }, rfl, Nat.le_refl _, fun htype _ => htype⟩

theorem Sound.reaches (hd : d.Sound) (h : d.Reaches d') : d'.Sound ∧ d.Extends d' := by
  induction h with
  | refl => exact ⟨hd, .refl d⟩
  | tail _ hstep ih =>
    obtain ⟨hmid, hext⟩ := ih
    obtain ⟨hd', hext'⟩ := hmid.step hstep
    exact ⟨hd', hext.trans hext'⟩

end Schema.Draft
end WireSchema
