import WireSchema.Schema.Basic
import WireSchema.Schema.Error

/-!
# Schemas under construction

A draft collects what is known so far: the table of types, in which declared types hold their place
before they are defined, the declared names, the definitions that wait, and what aliases were found
to denote. Names are keyed by their written form.
-/
namespace WireSchema.Schema

open Document (TypeBody)

inductive Declared where
  | type (id : TypeId)
  /-- Another name for `target`, which is looked up from `scope`. -/
  | alias (target : String) (scope : QualifiedName)
  | interface
deriving DecidableEq, Repr

/-- A declared type that waits for its definition. -/
structure Pending where
  id : TypeId
  name : QualifiedName
  body : TypeBody
deriving DecidableEq, Repr

structure Draft where
  types : Array TypeDef := #[]
  /-- Positions of the primitive types in use, by their spelling. -/
  primitives : List (String × TypeId) := []
  names : List (String × Declared) := []
  /-- Types for which only forward declarations were seen. -/
  forwardOnly : List TypeId := []
  /-- Waiting definitions, first one first. -/
  pending : List Pending := []
  /-- Aliases that have been resolved. -/
  aliases : List (String × TypeId) := []
  /-- Numbers of the interfaces, with their names. -/
  interfaceUids : List (UInt32 × String) := []

abbrev Build := StateT Draft (Except SchemaError)

namespace Draft

def push (type : TypeDef) : Build TypeId := fun d =>
  .ok (⟨d.types.size⟩, { d with types := d.types.push type })

def define (id : TypeId) (type : TypeDef) : Build Unit := fun d =>
  .ok ((), { d with types := d.types.setIfInBounds id.index type })

def await (p : Pending) : Build Unit :=
  modify fun d => { d with pending := d.pending ++ [p] }

def enter (name : QualifiedName) (what : Declared) : Build Unit := do
  if ((← get).names.lookup name.text).isSome then
    throw (.duplicateName name.scope.text name.name)
  modify fun d => { d with names := (name.text, what) :: d.names }

/-- The position of a primitive type, which is added when it is used for the first time. -/
def intern (type : TypeDef) : Build TypeId := do
  match (← get).primitives.lookup type.describe with
  | some id => return id
  | none =>
    let id ← push type
    modify fun d => { d with primitives := (type.describe, id) :: d.primitives }
    return id

end Draft
end WireSchema.Schema
