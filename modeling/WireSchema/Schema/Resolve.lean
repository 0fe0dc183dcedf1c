import WireSchema.Schema.Draft

/-!
# Resolving references

A reference is the name of a primitive type, or it is looked for from the scope in which it is
written outwards to the root; with two colons in front, only at the root. The first type or alias of
that name counts, and an alias is followed from the scope of its own declaration.
-/
namespace WireSchema.Schema

def absolute? (reference : String) : Option String :=
  match reference.toList with
  | ':' :: ':' :: rest => some (String.ofList rest)
  | _ => none

/-- The scope itself and the scopes around it, innermost first, the root last. -/
def enclosingScopes (scope : QualifiedName) : List QualifiedName :=
  (List.range (scope.segments.length + 1)).reverse.map fun n => ⟨scope.segments.take n⟩

/-- The written name that a reference has if it is declared in `scope`. -/
def nameWithin (scope : QualifiedName) (reference : String) : String :=
  if scope.segments.isEmpty then reference else scope.text ++ "::" ++ reference

/-- The written names that a reference can mean, the preferred one first. -/
def candidates (scope : QualifiedName) (reference : String) : List String :=
  match absolute? reference with
  | some name => [name]
  | none => (enclosingScopes scope).map (nameWithin · reference)

/-- What a name can refer to. -/
inductive Referent where
  | type (id : TypeId)
  | alias (name target : String) (scope : QualifiedName)
deriving DecidableEq, Repr

namespace Draft

variable (d : Draft)

/-- The type or alias declared under a written name. Interfaces are no referents. -/
def referent? (name : String) : Option Referent :=
  match d.names.lookup name with
  | some (.type id) => some (.type id)
  | some (.alias target scope) => some (.alias name target scope)
  | some .interface => none
  | none => none

end Draft

/-- Resolves a reference. `following` holds the aliases that are being followed; coming back to one
of them is a cycle. Every step opens another alias, so the number of declared names bounds the
steps. -/
def resolveWithin : (steps : Nat) → (following : List String) → (scope : QualifiedName) →
    (reference : String) → Build TypeId
  | 0, _, _, reference => throw (.aliasCycle reference)
  | steps + 1, following, scope, reference => do
    match TypeDef.primitive? reference with
    | some type => Draft.intern type
    | none =>
      let d ← get
      match (candidates scope reference).findSome? d.referent? with
      | none => throw (.unknownType scope.text reference)
      | some (.type id) => return id
      | some (.alias name target home) =>
        match d.aliases.lookup name with
        | some id => return id
        | none =>
          if name ∈ following then throw (.aliasCycle name)
          let id ← resolveWithin steps (name :: following) home target
          modify fun d => { d with aliases := (name, id) :: d.aliases }
          return id

def resolve (scope : QualifiedName) (reference : String) : Build TypeId := do
  resolveWithin ((← get).names.length + 1) [] scope reference

end WireSchema.Schema
