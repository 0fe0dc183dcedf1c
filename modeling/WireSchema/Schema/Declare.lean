import WireSchema.Schema.Draft

/-!
# Declaring names

The first pass over a document gives every type a name and a place in the table. A forward
declaration and the definition that follows it share one place; any other repetition of a name is an
error.
-/
namespace WireSchema.Schema

open Document (TypeBody TypeDecl)

/-- Declares a name for the first time. Aliases take no place in the table. -/
def declareFresh (scope : QualifiedName) (decl : TypeDecl) : Build Unit := do
  let name := scope.child decl.name
  match decl.body with
  | .alias target => Draft.enter name (.alias target scope)
  | .forward =>
    let id ← Draft.push (.forward name)
    Draft.enter name (.type id)
    modify fun d => { d with forwardOnly := id :: d.forwardOnly }
  | body =>
    let id ← Draft.push (.forward name)
    Draft.enter name (.type id)
    Draft.await ⟨id, name, body⟩

/-- Declares a type. Another forward declaration adds nothing, and the first definition after
forward declarations takes over their place. -/
def declareType (scope : QualifiedName) (decl : TypeDecl) : Build Unit := do
  let name := scope.child decl.name
  let d ← get
  match d.names.lookup name.text with
  | some (.type id) =>
    if decl.body = .forward then return
    if id ∈ d.forwardOnly then
      set { d with forwardOnly := d.forwardOnly.filter (· ≠ id) }
      Draft.await ⟨id, name, decl.body⟩
    else
      declareFresh scope decl
  | _ => declareFresh scope decl

def declareInterface (scope : QualifiedName) (decl : Document.Interface) : Build Unit := do
  let name := scope.child decl.name
  Draft.enter name .interface
  decl.exceptions.forM fun e => do
    let id ← Draft.push (.forward (name.child e.name))
    Draft.enter (name.child e.name) (.type id)
    Draft.await ⟨id, name.child e.name, .exception e.members⟩

mutual

/-- Types first, then interfaces, then the modules inside. -/
def declareModule (name : QualifiedName) : Document.Module → Build Unit
  | ⟨_, modules, types, interfaces, _⟩ => do
    types.forM (declareType name)
    interfaces.forM (declareInterface name)
    declareModules name modules

def declareModules (scope : QualifiedName) : List Document.Module → Build Unit
  | [] => return
  | m :: modules => do
    declareModule (scope.child m.name) m
    declareModules scope modules

end

end WireSchema.Schema
