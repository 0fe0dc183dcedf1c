import Mathlib.Data.List.Perm.Subperm
import WireSchema.Proofs.Schema.Building

/-!
# How a resolution goes

Resolving counts its steps down. The count never runs out: each step follows an alias that is not
being followed yet, and there are no more aliases than declared names. So a resolution has a course
in which the count does not occur, and later proofs go along that course.
-/
namespace WireSchema.Schema

theorem mem_of_lookup {κ α : Type} [BEq κ] [LawfulBEq κ] {entries : List (κ × α)} {key : κ} {a : α}
    (h : entries.lookup key = some a) : (key, a) ∈ entries := by
  obtain ⟨before, after, rfl, -⟩ := List.lookup_eq_some_iff.mp h
  simp

namespace Draft

variable (d : Draft)

/-- What a reference that is no name of a primitive type refers to. -/
def refersTo? (scope : QualifiedName) (reference : String) : Option Referent :=
  (candidates scope reference).findSome? d.referent?

def remember (name : String) (id : TypeId) : Draft := { d with aliases := (name, id) :: d.aliases }

/-- The course of resolving a reference while the aliases `following` are being followed. -/
inductive Resolves : (following : List String) → QualifiedName → String →
    Except SchemaError (TypeId × Draft) → Prop
  | primitive {following : List String} {scope : QualifiedName} {reference : String}
    {type : TypeDef} (hprimitive : TypeDef.primitive? reference = some type) :
    Resolves following scope reference (intern type d)
  | unknown {following : List String} {scope : QualifiedName} {reference : String}
    (hprimitive : TypeDef.primitive? reference = none)
    (hreferent : d.refersTo? scope reference = none) :
    Resolves following scope reference (.error (.unknownType scope.text reference))
  | type {following : List String} {scope : QualifiedName} {reference : String} {id : TypeId}
    (hprimitive : TypeDef.primitive? reference = none)
    (hreferent : d.refersTo? scope reference = some (.type id)) :
    Resolves following scope reference (.ok (id, d))
  | remembered {following : List String} {scope home : QualifiedName}
    {reference name target : String} {id : TypeId}
    (hprimitive : TypeDef.primitive? reference = none)
    (hreferent : d.refersTo? scope reference = some (.alias name target home))
    (hknown : d.aliases.lookup name = some id) : Resolves following scope reference (.ok (id, d))
  | cycle {following : List String} {scope home : QualifiedName} {reference name target : String}
    (hprimitive : TypeDef.primitive? reference = none)
    (hreferent : d.refersTo? scope reference = some (.alias name target home))
    (hunknown : d.aliases.lookup name = none) (hback : name ∈ following) :
    Resolves following scope reference (.error (.aliasCycle name))
  | follow {following : List String} {scope home : QualifiedName} {reference name target : String}
    {result : Except SchemaError (TypeId × Draft)}
    (hprimitive : TypeDef.primitive? reference = none)
    (hreferent : d.refersTo? scope reference = some (.alias name target home))
    (hunknown : d.aliases.lookup name = none) (hnew : name ∉ following)
    (hnext : Resolves (name :: following) home target result) :
    Resolves following scope reference (result.map fun p => (p.1, p.2.remember name p.1))

variable {d}

theorem lookup_of_refersTo?_alias {scope home : QualifiedName} {reference name target : String}
    (h : d.refersTo? scope reference = some (.alias name target home)) :
    d.names.lookup name = some (.alias target home) := by
  obtain ⟨key, -, hkey⟩ := List.exists_of_findSome?_eq_some h
  unfold referent? at hkey
  split at hkey <;> simp_all

theorem follow_eq (x : Build TypeId) (name : String) (d : Draft) :
    (do
      let id ← x
      modify fun d => { d with aliases := (name, id) :: d.aliases }
      return id : Build TypeId) d = (x d).map fun p => (p.1, p.2.remember name p.1) := by
  show (x d >>= _) = _
  cases x d <;> rfl

/-- With more steps than declared names that are not being followed, the count does not run out. -/
theorem resolves_resolveWithin {steps : Nat} {following : List String} (scope : QualifiedName)
    (reference : String) (hnodup : following.Nodup) (hdeclared : following ⊆ d.names.map (·.1))
    (hsteps : d.names.length < steps + following.length) :
    d.Resolves following scope reference (resolveWithin steps following scope reference d) := by
  induction steps generalizing following scope reference with
  | zero =>
    have hle := (List.subperm_of_subset hnodup hdeclared).length_le
    rw [List.length_map] at hle
    omega
  | succ steps ih =>
    rw [resolveWithin]
    cases hprimitive : TypeDef.primitive? reference with
    | some type => exact .primitive hprimitive
    | none =>
      dsimp only
      rw [Build.get_bind, ← refersTo?]
      match hreferent : d.refersTo? scope reference with
      | none => exact .unknown hprimitive hreferent
      | some (.type id) => exact .type hprimitive hreferent
      | some (.alias name target home) =>
        dsimp only
        cases hknown : d.aliases.lookup name with
        | some id => exact .remembered hprimitive hreferent hknown
        | none =>
          dsimp only
          by_cases hback : name ∈ following
          · rw [if_pos hback]
            exact .cycle hprimitive hreferent hknown hback
          · rw [if_neg hback, follow_eq]
            apply Resolves.follow hprimitive hreferent hknown hback
            apply ih home target (List.nodup_cons.mpr ⟨hback, hnodup⟩)
            · have hmem := mem_of_lookup (lookup_of_refersTo?_alias hreferent)
              exact List.cons_subset.mpr ⟨List.mem_map.mpr ⟨_, hmem, rfl⟩, hdeclared⟩
            · rw [List.length_cons]
              omega

variable (d) in
/-- Every resolution has a course, whatever is declared and whatever is remembered. -/
theorem resolves_resolve (scope : QualifiedName) (reference : String) :
    d.Resolves [] scope reference (resolve scope reference d) := by
  apply resolves_resolveWithin scope reference List.nodup_nil (List.nil_subset _)
  simp

theorem Resolves.unique {following : List String} {scope : QualifiedName} {reference : String}
    {result result' : Except SchemaError (TypeId × Draft)}
    (h : d.Resolves following scope reference result)
    (h' : d.Resolves following scope reference result') : result = result' := by
  induction h generalizing result' with
  | follow hprimitive hreferent hunknown hnew _ ih =>
    cases h' with
    | follow _ hreferent' _ _ hnext' =>
      rw [hreferent] at hreferent'
      obtain ⟨rfl, rfl, rfl⟩ := Referent.alias.inj (Option.some.inj hreferent')
      rw [ih hnext']
    | _ => grind
  | _ => cases h' <;> grind

variable (d) in
/-- More steps than there are declared names make no difference. -/
theorem resolveWithin_eq_resolve (scope : QualifiedName) (reference : String) {steps : Nat}
    (hsteps : d.names.length < steps) :
    resolveWithin steps [] scope reference d = resolve scope reference d := by
  have hcourse := resolves_resolveWithin scope reference List.nodup_nil (List.nil_subset _) hsteps
  exact hcourse.unique (d.resolves_resolve scope reference)

end Draft
end WireSchema.Schema
