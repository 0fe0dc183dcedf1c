import WireSchema.Proofs.Schema.Rules
import WireSchema.Proofs.Schema.Written

/-!
# The rules for types

In the table of a built schema the members of every record have different names, every enumeration
has enumerators with different names and values, which are the declared ones, and every map has keys
with a total order. Keys are checked once, between two passes that both change the table: what
defining puts there has its final form by then, and assembling adds types without touching one that
is there.
-/
namespace WireSchema

open Schema

namespace TypeDef

/-- The types whose values can be keys of a map. -/
inductive IsKeyType : TypeDef → Prop
  | bool : IsKeyType .bool
  | integer {n : Numeric} (h : n.isFloat = false) : IsKeyType (.numeric n)
  | text (wide : Bool) : IsKeyType (.text wide)
  | blob : IsKeyType .blob
  | enumeration (e : EnumType) : IsKeyType (.enumeration e)

theorem isOrderable_iff {type : TypeDef} : type.isOrderable = true ↔ type.IsKeyType := by
  constructor
  · intro h
    cases type with
    | bool => exact .bool
    | numeric n => exact .integer (by simpa [isOrderable] using h)
    | text wide => exact .text wide
    | blob => exact .blob
    | enumeration e => exact .enumeration e
    | record | sequence | map | forward => cases h
  · intro h
    cases h with
    | integer h => simp [isOrderable, h]
    | bool | text | blob | enumeration => rfl

end TypeDef

namespace Schema

open Document (Declaration Reference)

/-- The value that is declared for an enumerator fits its word. -/
def InRange (decl : Document.Enumerator) : Prop :=
  -2 ^ 31 ≤ decl.value.toInt ∧ decl.value.toInt < 2 ^ 31

theorem ordinal?_of_inRange {decl : Document.Enumerator} (h : InRange decl) :
    ordinal? decl.value = some decl.value.toInt32 :=
  if_pos h

theorem ordinal?_of_not_inRange {decl : Document.Enumerator} (h : ¬ InRange decl) :
    ordinal? decl.value = none :=
  if_neg h

theorem toInt_declared {decl : Document.Enumerator} (h : InRange decl) :
    (Enumerator.declared decl).value.toInt = decl.value.toInt := by
  obtain ⟨hlow, hhigh⟩ := h
  unfold Enumerator.declared
  rw [Int64.toInt_toInt32]
  exact Int.bmod_eq_of_le (by omega) (by omega)

/-- Enumerators that can join others with the given names and values. -/
structure Joins (names : List String) (values : List Int32)
    (decls : List Document.Enumerator) : Prop where
  names_distinct : Distinct names (decls.map (·.name))
  inRange : ∀ decl ∈ decls, InRange decl
  values_nodup : (decls.map (·.value.toInt32)).Nodup
  values_new : ∀ decl ∈ decls, decl.value.toInt32 ∉ values

theorem joins_cons {names : List String} {values : List Int32} {decl : Document.Enumerator}
    {decls : List Document.Enumerator} :
    Joins names values (decl :: decls) ↔ decl.name ∉ names ∧ InRange decl ∧
      decl.value.toInt32 ∉ values ∧
      Joins (decl.name :: names) (decl.value.toInt32 :: values) decls := by
  constructor
  · rintro ⟨hnames, hrange, hnodup, hnew⟩
    rw [List.map_cons, distinct_cons] at hnames
    rw [List.forall_mem_cons] at hrange hnew
    rw [List.map_cons, List.nodup_cons] at hnodup
    refine ⟨hnames.1, hrange.1, hnew.1, hnames.2, hrange.2, hnodup.2, ?_⟩
    intro other hother hmem
    rcases List.mem_cons.mp hmem with hsame | hmem
    · exact hnodup.1 (List.mem_map.mpr ⟨other, hother, hsame⟩)
    · exact hnew.2 other hother hmem
  · rintro ⟨hname, hdecl, hvalue, hnames, hrange, hnodup, hnew⟩
    refine ⟨distinct_cons.mpr ⟨hname, hnames⟩, List.forall_mem_cons.mpr ⟨hdecl, hrange⟩, ?_, ?_⟩
    · rw [List.map_cons, List.nodup_cons]
      refine ⟨fun hmem => ?_, hnodup⟩
      obtain ⟨other, hother, hsame⟩ := List.mem_map.mp hmem
      exact hnew other hother (hsame ▸ List.mem_cons_self)
    · refine List.forall_mem_cons.mpr ⟨hvalue, fun other hother hmem => ?_⟩
      exact hnew other hother (List.mem_cons_of_mem _ hmem)

theorem not_exists_error_eq_ok {α β : Type} (e : α) :
    ¬ ∃ b : β, (Except.error e : Except α β) = .ok b := by
  rintro ⟨b, h⟩
  cases h

/-- Enumerators are accepted exactly if they can join the ones before them. -/
theorem checkEnumerators_ok_iff {owner : QualifiedName} {names : List String}
    {values : List Int32} {decls : List Document.Enumerator} :
    (∃ es, checkEnumerators owner names values decls = .ok es) ↔ Joins names values decls := by
  induction decls generalizing names values with
  | nil => exact ⟨fun _ => ⟨by simp [Distinct], by simp, by simp, by simp⟩, fun _ => ⟨[], rfl⟩⟩
  | cons decl decls ih =>
    rw [joins_cons, checkEnumerators]
    by_cases hname : decl.name ∈ names
    · rw [if_pos hname]
      exact iff_of_false (not_exists_error_eq_ok _) fun h => h.1 hname
    rw [if_neg hname]
    by_cases hrange : InRange decl
    · rw [ordinal?_of_inRange hrange]
      dsimp only
      by_cases hvalue : decl.value.toInt32 ∈ values
      · rw [if_pos hvalue]
        exact iff_of_false (not_exists_error_eq_ok _) fun h => h.2.2.1 hvalue
      rw [if_neg hvalue, ← ih]
      cases hrest : checkEnumerators owner (decl.name :: names) (decl.value.toInt32 :: values)
          decls with
      | ok es => exact iff_of_true ⟨_, rfl⟩ ⟨hname, hrange, hvalue, es, rfl⟩
      | error e =>
        exact iff_of_false (not_exists_error_eq_ok e) fun h => not_exists_error_eq_ok e h.2.2.2
    · rw [ordinal?_of_not_inRange hrange]
      exact iff_of_false (not_exists_error_eq_ok _) fun h => hrange h.2.1

theorem checkEnum_ok_iff {owner : QualifiedName} {decls : List Document.Enumerator} :
    (∃ e, checkEnum owner decls = .ok e) ↔ decls ≠ [] ∧ Joins [] [] decls := by
  rw [← @checkEnumerators_ok_iff owner]
  unfold checkEnum
  cases decls with
  | nil => exact iff_of_false (not_exists_error_eq_ok _) fun h => h.1 rfl
  | cons decl decls =>
    cases checkEnumerators owner [] [] (decl :: decls) with
    | ok es => exact iff_of_true ⟨_, rfl⟩ ⟨List.cons_ne_nil decl decls, es, rfl⟩
    | error e =>
      exact iff_of_false (not_exists_error_eq_ok e) fun h => not_exists_error_eq_ok e h.2

/-- An enumeration has enumerators, with different names and values, and they are the declared
ones. -/
structure EnumType.IsDeclared (e : EnumType) (decls : List Document.Enumerator) : Prop where
  nonempty : e.enumerators ≠ []
  names_nodup : (e.enumerators.map (·.name)).Nodup
  values_nodup : (e.enumerators.map (·.value)).Nodup
  kept : List.Forall₂ (fun decl enumerator => enumerator.name = decl.name ∧
    enumerator.value.toInt = decl.value.toInt) decls e.enumerators

theorem EnumType.isDeclared_of_checkEnum {name : QualifiedName} {decls : List Document.Enumerator}
    (h : ∃ e, checkEnum name decls = .ok e) :
    EnumType.IsDeclared ⟨name, decls.map Enumerator.declared⟩ decls := by
  obtain ⟨hnonempty, hjoins⟩ := checkEnum_ok_iff.mp h
  refine ⟨by simpa using hnonempty, ?_, ?_, ?_⟩
  · have hnames := distinct_nil.mp hjoins.names_distinct
    simpa [Enumerator.declared, Function.comp_def] using hnames
  · simpa [Enumerator.declared, Function.comp_def] using hjoins.values_nodup
  · rw [List.forall₂_map_right_iff, List.forall₂_same]
    exact fun decl hdecl => ⟨rfl, toInt_declared (hjoins.inRange decl hdecl)⟩

/-- The rules for the types of a schema. A key of a map is looked at where its reference leads, past
all aliases. -/
structure TypeRules (s : Schema) (doc : Document) (names : List (String × Declared)) : Prop where
  defined : ∀ x ∈ doc.declarations, x.IsDefinition → ∃ id type,
    names.lookup x.name.text = some (.type id) ∧ s.types[id.index]? = some type ∧
      type.name? = some x.name
  members : ∀ {i : Nat} {r : RecordType}, s.types[i]? = some (.record r) →
    (r.members.map (·.name)).Nodup
  enumerations : ∀ {i : Nat} {e : EnumType}, s.types[i]? = some (.enumeration e) →
    ∃ decls, ⟨e.name, .enumeration decls⟩ ∈ doc.declarations ∧ e.IsDeclared decls
  keys : ∀ {i : Nat} {m : MapType}, s.types[i]? = some (.map m) →
    ∃ written value den key, ⟨m.name, .map written value⟩ ∈ doc.declarations ∧
      Gives names ⟨m.name.scope, written⟩ den ∧ s.Holds m.key den ∧
      s.types[m.key.index]? = some key ∧ key.IsKeyType

section Table

variable {doc : Document} {d : Draft} {look : Reference → TypeId}

theorem name?_of_placed {x : Declaration} {type : TypeDef}
    (h : TypeDef.placed? look x = some type) : type.name? = some x.name := by
  obtain ⟨name, body⟩ := x
  cases body with
  | «alias» | forward => cases h
  | _ =>
    obtain rfl := Option.some.inj h
    rfl

theorem nodup_of_placed_record {x : Declaration} {r : RecordType} (hproper : IsProper x)
    (h : TypeDef.placed? look x = some (.record r)) : (r.members.map (·.name)).Nodup := by
  obtain ⟨name, body⟩ := x
  cases body with
  | record decls | exception decls =>
    obtain rfl := TypeDef.record.inj (Option.some.inj h)
    have hnodup : (decls.map (·.name)).Nodup := hproper
    simpa [Member.placed, Function.comp_def] using hnodup
  | _ => cases h

theorem isDeclared_of_placed_enumeration {x : Declaration} {e : EnumType} (hproper : IsProper x)
    (h : TypeDef.placed? look x = some (.enumeration e)) :
    ∃ decls, x = ⟨e.name, .enumeration decls⟩ ∧ e.IsDeclared decls := by
  obtain ⟨name, body⟩ := x
  cases body with
  | enumeration decls =>
    obtain rfl := TypeDef.enumeration.inj (Option.some.inj h)
    exact ⟨decls, rfl, EnumType.isDeclared_of_checkEnum hproper⟩
  | _ => cases h

variable (hd : d.Sound) (hshows : ∀ key, d.Shows look key (standing doc.entries key))
include hd hshows

/-- A type with a name and a definition is one that is declared. -/
theorem Draft.Sound.exists_declaration {i : Nat} {type : TypeDef} {name : QualifiedName}
    (htype : d.types[i]? = some type) (hname : type.name? = some name)
    (hdefined : ∀ shown, type ≠ .forward shown) :
    ∃ x ∈ doc.declarations, TypeDef.placed? look x = some type := by
  rcases hd.type_cases hshows htype hname with ⟨shown, -, hforward⟩ |
    ⟨shown, defined, body, hst, hplaced⟩
  · exact absurd hforward (hdefined shown)
  · refine ⟨⟨defined, body⟩, (defined_declaration hst).2.1.1, ?_⟩
    cases hfound : TypeDef.placed? look ⟨defined, body⟩ with
    | none =>
      rw [hfound] at hplaced
      exact absurd hplaced (hdefined shown)
    | some found =>
      rw [hfound] at hplaced
      exact congrArg some hplaced.symm

/-- A table that shows what a proper document declares obeys the rules. -/
theorem Draft.Sound.typeRules (hlook : d.Fits look)
    (hplaced : ∀ r ∈ doc.declarations.flatMap (·.references), ∃ id, d.Places r id)
    (hproper : doc.IsProper d.names) (modules : List Module) :
    TypeRules ⟨d.types, modules⟩ doc d.names where
  defined x hx hdefines := by
    obtain ⟨id, type, hid, hfound, htype⟩ := (hshows x.name.text).exists_type hx hdefines
    exact ⟨id, type, hid, htype, name?_of_placed hfound⟩
  members htype := by
    obtain ⟨x, hx, hfound⟩ := hd.exists_declaration hshows htype rfl fun _ => nofun
    exact nodup_of_placed_record (hproper.declarations x hx) hfound
  enumerations htype := by
    obtain ⟨x, hx, hfound⟩ := hd.exists_declaration hshows htype rfl fun _ => nofun
    obtain ⟨decls, rfl, hdeclared⟩ :=
      isDeclared_of_placed_enumeration (hproper.declarations x hx) hfound
    exact ⟨decls, hx, hdeclared⟩
  keys {i m} htype := by
    obtain ⟨written, value, hx, hkey, -⟩ := hd.exists_map hshows htype
    obtain ⟨id, den, hgives, hholds⟩ :=
      hplaced ⟨m.name.scope, written⟩ (List.mem_flatMap.mpr ⟨_, hx, List.mem_cons_self⟩)
    rw [← hlook _ id ⟨den, hgives, hholds⟩, ← hkey] at hholds
    have horders := (hd.orders_iff hshows hgives hholds).mp (hproper.keys _ _ _ hx den hgives)
    obtain ⟨key, hslot⟩ : ∃ key, d.types[m.key.index]? = some key :=
      ⟨_, Array.getElem?_eq_getElem (hd.parts htype m.key List.mem_cons_self)⟩
    rw [Array.getD_eq_getD_getElem?, hslot, Option.getD_some] at horders
    refine ⟨written, value, den, key, hx, hgives, ?_, hslot, TypeDef.isOrderable_iff.mp horders⟩
    cases den <;> exact hholds

end Table

theorem Defines.typeRules {doc : Document} {declared defined : Draft}
    (h : Defines doc declared defined) (hproper : doc.IsProper declared.names) :
    TypeRules ⟨defined.types, []⟩ doc declared.names := by
  obtain ⟨look, hlook⟩ := h.ready.sound.exists_fits
  rw [← h.names_eq] at hproper ⊢
  exact h.ready.sound.typeRules (h.shows look hlook) hlook h.placed hproper []

theorem Completes.typeRules {doc : Document} {declared last : Draft} {modules : List Module}
    (h : Completes doc declared last modules) :
    TypeRules ⟨last.types, modules⟩ doc declared.names := by
  obtain ⟨look, hlook⟩ := h.ready.sound.exists_fits
  have hproper := h.proper
  rw [← h.names_eq] at hproper ⊢
  exact h.ready.sound.typeRules (h.shows look hlook) hlook
    (fun r hr => h.placed r (List.mem_append_left _ hr)) hproper modules

theorem isProper_of_build {doc : Document} {s : Schema} (h : build doc = .ok s)
    {interface : Interface} (hinterface : interface ∈ s.interfaces) {op : Operation}
    (hop : op ∈ interface.operations) : op.IsProper := by
  obtain ⟨decl, -, hbuilt⟩ := exists_of_mem_right (interfaces_of_build h).1 hinterface
  obtain ⟨declared, -, hrealizes⟩ := exists_of_mem_right hbuilt.toRealizes.operations hop
  exact hrealizes.isProper

/-- The types of a built schema obey the rules. They do so before anything is assembled, and
assembling adds types without touching one that is there. The members of requests and responses have
different names, too. -/
theorem build_obeys_type_rules (doc : Document) (s : Schema) (h : build doc = .ok s) :
    ∃ declared defined last,
      declareModules .root doc.modules {} = .ok ((), declared) ∧
      defineAll declared = .ok ((), defined) ∧
      assembleModules .root doc.modules defined = .ok (s.modules, last) ∧ s.types = last.types ∧
      TypeRules ⟨defined.types, []⟩ doc declared.names ∧
      (∀ (i : Nat) (type : TypeDef), defined.types[i]? = some type → s.types[i]? = some type) ∧
      s.TypeRules doc declared.names ∧
      ∀ interface ∈ s.interfaces, ∀ op ∈ interface.operations,
        (op.request.members.map (·.name)).Nodup ∧
        ∀ response, op.response? = some response → (response.members.map (·.name)).Nodup := by
  obtain ⟨declared, defined, last, hdeclare, hdefine, hassemble, htypes⟩ := build_eq_ok h
  obtain ⟨declared', last', hcompletes, htypes'⟩ := completes_of_build h
  obtain rfl := unique_declared hdeclare hcompletes.declares
  have hdefines := (ends_defineAll_defines hdeclare hcompletes.reflects).of_ok hdefine
  refine ⟨declared, defined, last, hdeclare, hdefine, hassemble, htypes,
    hdefines.typeRules hcompletes.proper, ?_, ?_, ?_⟩
  · intro i type htype
    rw [htypes]
    exact (hdefines.keeps hassemble).type_eq htype
  · have hrules := hcompletes.typeRules
    rwa [← htypes'] at hrules
  · intro interface hinterface op hop
    have hproper := isProper_of_build h hinterface hop
    refine ⟨hproper.request_nodup, fun response hresponse => ?_⟩
    cases honeway : op.oneway with
    | true => cases (hproper.response_none honeway).symm.trans hresponse
    | false =>
      obtain ⟨r, hr, -, hnodup⟩ := hproper.response_some honeway
      rwa [Option.some.inj (hresponse.symm.trans hr)]

/-- A map whose keys come, by way of two aliases, from an enumeration that is defined after it, and
an operation with a type that occurs nowhere else. -/
def tariff : Document where
  modules := [{
    name := "shop"
    modules := []
    types := [⟨"Kind", .forward⟩, ⟨"Key", .alias "Sort"⟩, ⟨"Sort", .alias "Kind"⟩,
      ⟨"Prices", .map "Key" "hyper"⟩,
      ⟨"Kind", .enumeration [⟨"LOW", -2147483648⟩, ⟨"HIGH", 2147483647⟩]⟩]
    interfaces := [{
      name := "Offers"
      uid := 1
      operations := [{
        name := "compare"
        uid := 1
        params := [⟨"kind", "Key", true, false⟩, ⟨"ratio", "double", false, true⟩]
        returns := some "hyper"
        oneway := false }]
      exceptions := [⟨"Missing", [⟨"kind", "Kind"⟩]⟩]
      constants := [] }]
    constants := [] }]

theorem build_obeys_type_rules_tariff :
    ∃ s declared defined, build tariff = .ok s ∧ defineAll declared = .ok ((), defined) ∧
      defined.types.size = 4 ∧ s.types.size = 5 ∧
      s.types[0]? = some (.enumeration ⟨⟨["shop", "Kind"]⟩,
        [⟨"LOW", -2147483648⟩, ⟨"HIGH", 2147483647⟩]⟩) ∧
      s.types[1]? = some (.map ⟨⟨["shop", "Prices"]⟩, ⟨0⟩, ⟨3⟩⟩) ∧
      TypeRules ⟨defined.types, []⟩ tariff declared.names ∧ s.TypeRules tariff declared.names := by
  have hbuilt : (build tariff).toOption.map (fun s => (s.types.size, s.types[0]?, s.types[1]?)) =
      some (5, some (.enumeration ⟨⟨["shop", "Kind"]⟩,
        [⟨"LOW", -2147483648⟩, ⟨"HIGH", 2147483647⟩]⟩),
        some (.map ⟨⟨["shop", "Prices"]⟩, ⟨0⟩, ⟨3⟩⟩)) := by decide +kernel
  have hsize : ((declareModules .root tariff.modules {}).bind fun p => defineAll p.2).toOption.map
      (·.2.types.size) = some 4 := by decide +kernel
  obtain ⟨s, hs, hslots⟩ := exists_ok_of_toOption hbuilt
  rw [Prod.mk.injEq, Prod.mk.injEq] at hslots
  obtain ⟨htypes, hkind, hmap⟩ := hslots
  obtain ⟨declared, defined, last, hdeclare, hdefine, -, -, hbefore, -, hafter, -⟩ :=
    build_obeys_type_rules tariff s hs
  rw [hdeclare, Except.bind, hdefine] at hsize
  exact ⟨s, declared, defined, hs, hdefine, Option.some.inj hsize, htypes, hkind, hmap, hbefore,
    hafter⟩

end Schema
end WireSchema
