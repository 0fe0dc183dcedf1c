import WireSchema.Proofs.Schema.Resolution

/-!
# What references denote

The meaning of a reference, said without a memory of what was resolved before. A reference means the
type or alias that is declared under it in the innermost scope possible; an alias stands for what
its own target denotes where the alias is declared, unless following aliases comes back to one of
them.
-/
namespace WireSchema.Schema

/-- The type that a reference denotes. Declared types are known by their places in the table. -/
inductive Denotation where
  | primitive (type : TypeDef)
  | declared (id : TypeId)
deriving DecidableEq, Repr

section Declarations

variable (names : List (String × Declared))

/-- A name is declared as a type or an alias. Interfaces are not referred to. -/
def Refers (name : String) (what : Declared) : Prop :=
  names.lookup name = some what ∧ what ≠ .interface

/-- The declared name that a reference means in a scope, and what is declared under it. With two
colons in front it is looked for at the root only. -/
inductive Means (scope : QualifiedName) : String → String → Declared → Prop
  | absolute {name : String} {what : Declared} (hname : Refers names name what) :
    Means scope ("::" ++ name) name what
  | relative {reference : String} {front : List String} {what : Declared}
    (hrelative : ∀ name, reference ≠ "::" ++ name) (hfront : front <+: scope.segments)
    (hname : Refers names (QualifiedName.child ⟨front⟩ reference).text what)
    (hinner : ∀ inner, inner <+: scope.segments → front.length < inner.length →
      ∀ what, ¬ Refers names (QualifiedName.child ⟨inner⟩ reference).text what) :
    Means scope reference (QualifiedName.child ⟨front⟩ reference).text what

/-- What a reference denotes in a scope while the aliases `following` are being followed. -/
inductive Denotes : (following : List String) → QualifiedName → String →
    Except SchemaError Denotation → Prop
  | primitive {following : List String} {scope : QualifiedName} {reference : String}
    {type : TypeDef} (hprimitive : TypeDef.primitive? reference = some type) :
    Denotes following scope reference (.ok (.primitive type))
  | unknown {following : List String} {scope : QualifiedName} {reference : String}
    (hprimitive : TypeDef.primitive? reference = none)
    (hnone : ∀ name what, ¬ Means names scope reference name what) :
    Denotes following scope reference (.error (.unknownType scope.text reference))
  | type {following : List String} {scope : QualifiedName} {reference name : String} {id : TypeId}
    (hprimitive : TypeDef.primitive? reference = none)
    (hmeans : Means names scope reference name (.type id)) :
    Denotes following scope reference (.ok (.declared id))
  | cycle {following : List String} {scope home : QualifiedName} {reference name target : String}
    (hprimitive : TypeDef.primitive? reference = none)
    (hmeans : Means names scope reference name (.alias target home)) (hback : name ∈ following) :
    Denotes following scope reference (.error (.aliasCycle name))
  | follow {following : List String} {scope home : QualifiedName} {reference name target : String}
    {answer : Except SchemaError Denotation}
    (hprimitive : TypeDef.primitive? reference = none)
    (hmeans : Means names scope reference name (.alias target home)) (hnew : name ∉ following)
    (hnext : Denotes (name :: following) home target answer) :
    Denotes following scope reference answer

end Declarations

theorem absolute?_eq_some_iff {reference name : String} :
    absolute? reference = some name ↔ reference = "::" ++ name := by
  unfold absolute?
  constructor
  · intro h
    split at h
    · rename_i rest hchars
      obtain rfl := Option.some.inj h
      apply String.toList_inj.mp
      simp [hchars]
    · cases h
  · rintro rfl
    simp

theorem absolute?_eq_none_iff {reference : String} :
    absolute? reference = none ↔ ∀ name, reference ≠ "::" ++ name := by
  rw [Option.eq_none_iff_forall_ne_some]
  simp only [ne_eq, absolute?_eq_some_iff]

theorem nameWithin_eq (scope : QualifiedName) (reference : String) :
    nameWithin scope reference = (scope.child reference).text := by
  unfold nameWithin QualifiedName.child QualifiedName.text QualifiedName.joined
  obtain ⟨segments⟩ := scope
  cases segments with
  | nil => simp
  | cons segment segments =>
    rw [String.intercalate_append_of_ne_nil (by simp) (by simp)]
    simp

/-- Searching downwards from `n` finds what is found at the greatest number possible. -/
theorem findSome?_reverse_range {α : Type} {f : Nat → Option α} {n : Nat} {a : α} :
    (List.range (n + 1)).reverse.findSome? f = some a ↔
      ∃ k ≤ n, f k = some a ∧ ∀ j ≤ n, k < j → f j = none := by
  induction n with
  | zero => simp
  | succ n ih =>
    rw [List.range_succ, List.reverse_append, List.reverse_singleton, List.singleton_append,
      List.findSome?_cons]
    constructor
    · intro h
      cases hf : f (n + 1) with
      | some b =>
        rw [hf] at h
        refine ⟨n + 1, Nat.le_refl _, hf.trans h, ?_⟩
        intro j hj hlt
        omega
      | none =>
        rw [hf] at h
        obtain ⟨k, hk, hfk, hgreater⟩ := ih.mp h
        refine ⟨k, by omega, hfk, ?_⟩
        intro j hj hlt
        by_cases hlast : j = n + 1
        · rw [hlast, hf]
        · exact hgreater j (by omega) hlt
    · rintro ⟨k, hk, hfk, hgreater⟩
      by_cases hlast : k = n + 1
      · rw [← hlast, hfk]
      · rw [hgreater (n + 1) (Nat.le_refl _) (by omega)]
        apply ih.mpr
        refine ⟨k, by omega, hfk, ?_⟩
        intro j hj hlt
        exact hgreater j (by omega) hlt

/-- What is referred to by a name under which `what` is declared. -/
def Declared.referent? (name : String) : Declared → Option Referent
  | .type id => some (.type id)
  | .alias target home => some (.alias name target home)
  | .interface => none

variable {names : List (String × Declared)} {scope : QualifiedName} {reference : String}

theorem means_absolute_iff {name name' : String} {what : Declared} :
    Means names scope ("::" ++ name) name' what ↔ name = name' ∧ Refers names name what := by
  constructor
  · intro h
    generalize hreference : "::" ++ name = reference at h
    cases h with
    | @absolute name' _ hname =>
      have hsome := absolute?_eq_some_iff.mpr hreference.symm
      rw [absolute?_eq_some_iff.mpr rfl] at hsome
      obtain rfl := Option.some.inj hsome
      exact ⟨rfl, hname⟩
    | relative hrelative => exact absurd hreference.symm (hrelative name)
  · rintro ⟨rfl, hname⟩
    exact .absolute hname

theorem Means.lookup_eq {name : String} {what : Declared}
    (h : Means names scope reference name what) : names.lookup name = some what := by
  cases h with
  | absolute hname => exact hname.1
  | relative _ _ hname => exact hname.1

theorem Means.exists_referent {name : String} {what : Declared}
    (h : Means names scope reference name what) : ∃ r, what.referent? name = some r := by
  have hwhat : what ≠ .interface := by
    cases h with
    | absolute hname => exact hname.2
    | relative _ _ hname => exact hname.2
  cases what with
  | interface => exact absurd rfl hwhat
  | _ => exact ⟨_, rfl⟩

namespace Draft

variable {d : Draft}

theorem referent?_eq_some_iff {name : String} {r : Referent} :
    d.referent? name = some r ↔
      ∃ what, Refers d.names name what ∧ what.referent? name = some r := by
  unfold referent? Refers
  cases d.names.lookup name with
  | none => simp
  | some what => cases what <;> simp [Declared.referent?]

theorem referent?_eq_none_iff {name : String} :
    d.referent? name = none ↔ ∀ what, ¬ Refers d.names name what := by
  unfold referent? Refers
  cases d.names.lookup name with
  | none => simp
  | some what => cases what <;> simp

/-- A relative reference is looked for in the scope and outwards to the root. -/
theorem refersTo?_of_relative (h : absolute? reference = none) :
    d.refersTo? scope reference =
      (List.range (scope.segments.length + 1)).reverse.findSome? fun n =>
        d.referent? (QualifiedName.child ⟨scope.segments.take n⟩ reference).text := by
  unfold refersTo? candidates enclosingScopes
  rw [h]
  simp only [List.map_map, List.findSome?_map, Function.comp_def, nameWithin_eq]

theorem refersTo?_of_absolute {name : String} (h : absolute? reference = some name) :
    d.refersTo? scope reference = d.referent? name := by
  unfold refersTo? candidates
  rw [h]
  cases hname : d.referent? name <;> simp [hname]

theorem refersTo?_eq_some_iff {r : Referent} :
    d.refersTo? scope reference = some r ↔
      ∃ name what, Means d.names scope reference name what ∧ what.referent? name = some r := by
  cases habsolute : absolute? reference with
  | some name =>
    rw [refersTo?_of_absolute habsolute, referent?_eq_some_iff]
    obtain rfl := absolute?_eq_some_iff.mp habsolute
    constructor
    · rintro ⟨what, hname, hr⟩
      exact ⟨name, what, .absolute hname, hr⟩
    · rintro ⟨name', what, hmeans, hr⟩
      obtain ⟨rfl, hname⟩ := means_absolute_iff.mp hmeans
      exact ⟨what, hname, hr⟩
  | none =>
    have hrelative := absolute?_eq_none_iff.mp habsolute
    rw [refersTo?_of_relative habsolute, findSome?_reverse_range]
    constructor
    · rintro ⟨k, hk, hfound, hgreater⟩
      obtain ⟨what, hname, hr⟩ := referent?_eq_some_iff.mp hfound
      refine ⟨_, what, .relative hrelative (List.take_prefix k _) hname ?_, hr⟩
      intro inner hinner hlt
      apply referent?_eq_none_iff.mp
      rw [List.length_take_of_le hk] at hlt
      rw [List.prefix_iff_eq_take.mp hinner]
      exact hgreater _ hinner.length_le hlt
    · rintro ⟨name, what, hmeans, hr⟩
      cases hmeans with
      | absolute hname => exact absurd rfl (hrelative name)
      | @relative _ front _ _ hfront hname hinner =>
        refine ⟨front.length, hfront.length_le, ?_, ?_⟩
        · rw [← List.prefix_iff_eq_take.mp hfront]
          exact referent?_eq_some_iff.mpr ⟨what, hname, hr⟩
        · intro j hj hlt
          apply referent?_eq_none_iff.mpr
          apply hinner _ (List.take_prefix j _)
          rwa [List.length_take_of_le hj]

theorem refersTo?_eq_type_iff {id : TypeId} :
    d.refersTo? scope reference = some (.type id) ↔
      ∃ name, Means d.names scope reference name (.type id) := by
  rw [refersTo?_eq_some_iff]
  constructor
  · rintro ⟨name, what, hmeans, hr⟩
    cases what <;> simp_all [Declared.referent?]
    exact ⟨name, hmeans⟩
  · rintro ⟨name, hmeans⟩
    exact ⟨name, _, hmeans, rfl⟩

theorem refersTo?_eq_alias_iff {name target : String} {home : QualifiedName} :
    d.refersTo? scope reference = some (.alias name target home) ↔
      Means d.names scope reference name (.alias target home) := by
  rw [refersTo?_eq_some_iff]
  constructor
  · rintro ⟨name', what, hmeans, hr⟩
    cases what <;> simp_all [Declared.referent?]
  · intro hmeans
    exact ⟨name, _, hmeans, rfl⟩

theorem refersTo?_eq_none_iff :
    d.refersTo? scope reference = none ↔
      ∀ name what, ¬ Means d.names scope reference name what := by
  constructor
  · intro h name what hmeans
    obtain ⟨r, hr⟩ := hmeans.exists_referent
    rw [refersTo?_eq_some_iff.mpr ⟨name, what, hmeans, hr⟩] at h
    cases h
  · intro h
    apply Option.eq_none_iff_forall_ne_some.mpr
    intro r hr
    obtain ⟨name, what, hmeans, -⟩ := refersTo?_eq_some_iff.mp hr
    exact h name what hmeans

end Draft

theorem Means.unique {name name' : String} {what what' : Declared}
    (h : Means names scope reference name what) (h' : Means names scope reference name' what') :
    what.referent? name = what'.referent? name' := by
  obtain ⟨r, hr⟩ := h.exists_referent
  obtain ⟨r', hr'⟩ := h'.exists_referent
  have hfound := (Draft.refersTo?_eq_some_iff (d := { names })).mpr ⟨name, what, h, hr⟩
  have hfound' := (Draft.refersTo?_eq_some_iff (d := { names })).mpr ⟨name', what', h', hr'⟩
  rw [hr, hr', ← hfound, hfound']

theorem Denotes.unique {following : List String} {answer answer' : Except SchemaError Denotation}
    (h : Denotes names following scope reference answer)
    (h' : Denotes names following scope reference answer') : answer = answer' := by
  induction h with
  | primitive hprimitive => cases h' <;> simp_all
  | unknown hprimitive hnone =>
    cases h' with
    | primitive hprimitive' => simp_all
    | unknown => rfl
    | type _ hmeans => exact absurd hmeans (hnone _ _)
    | cycle _ hmeans => exact absurd hmeans (hnone _ _)
    | follow _ hmeans => exact absurd hmeans (hnone _ _)
  | type hprimitive hmeans =>
    cases h' with
    | primitive hprimitive' => simp_all
    | unknown _ hnone => exact absurd hmeans (hnone _ _)
    | type _ hmeans' =>
      have hsame := hmeans.unique hmeans'
      simp_all [Declared.referent?]
    | cycle _ hmeans' => cases hmeans.unique hmeans'
    | follow _ hmeans' => cases hmeans.unique hmeans'
  | cycle hprimitive hmeans hback =>
    cases h' with
    | primitive hprimitive' => simp_all
    | unknown _ hnone => exact absurd hmeans (hnone _ _)
    | type _ hmeans' => cases hmeans.unique hmeans'
    | cycle _ hmeans' =>
      have hsame := hmeans.unique hmeans'
      simp_all [Declared.referent?]
    | follow _ hmeans' hnew =>
      have hsame := hmeans.unique hmeans'
      simp_all [Declared.referent?]
  | follow hprimitive hmeans hnew _ ih =>
    cases h' with
    | primitive hprimitive' => simp_all
    | unknown _ hnone => exact absurd hmeans (hnone _ _)
    | type _ hmeans' => cases hmeans.unique hmeans'
    | cycle _ hmeans' hback =>
      have hsame := hmeans.unique hmeans'
      simp_all [Declared.referent?]
    | follow _ hmeans' _ hnext' =>
      have hsame := hmeans.unique hmeans'
      simp only [Declared.referent?, Option.some.injEq, Referent.alias.injEq] at hsame
      obtain ⟨rfl, rfl, rfl⟩ := hsame
      exact ih hnext'

/-- A resolution that remembers nothing goes as the meaning of the reference does. -/
theorem Draft.Resolves.exists_denotes {d : Draft} {following : List String}
    {result : Except SchemaError (TypeId × Draft)}
    (h : d.Resolves following scope reference result) (hnothing : d.aliases = []) :
    ∃ answer, Denotes d.names following scope reference answer := by
  induction h with
  | primitive hprimitive => exact ⟨_, .primitive hprimitive⟩
  | unknown hprimitive hreferent =>
    exact ⟨_, .unknown hprimitive (Draft.refersTo?_eq_none_iff.mp hreferent)⟩
  | type hprimitive hreferent =>
    obtain ⟨name, hmeans⟩ := Draft.refersTo?_eq_type_iff.mp hreferent
    exact ⟨_, .type hprimitive hmeans⟩
  | remembered _ _ hknown => simp [hnothing] at hknown
  | cycle hprimitive hreferent _ hback =>
    exact ⟨_, .cycle hprimitive (Draft.refersTo?_eq_alias_iff.mp hreferent) hback⟩
  | follow hprimitive hreferent _ hnew _ ih =>
    obtain ⟨answer, hnext⟩ := ih
    exact ⟨answer, .follow hprimitive (Draft.refersTo?_eq_alias_iff.mp hreferent) hnew hnext⟩

theorem exists_denotes (names : List (String × Declared)) (scope : QualifiedName)
    (reference : String) : ∃ answer, Denotes names [] scope reference answer :=
  (Draft.resolves_resolve { names } scope reference).exists_denotes rfl

end WireSchema.Schema
