import WireSchema.Binary.Layout
import WireSchema.Schema.Declare
import WireSchema.Schema.Define

/-!
# Building a schema

Three passes, each in the order of the document: declare every name, define every type, assemble the
modules. The first broken rule ends the construction. The third pass builds the tree of modules and
checks numbers, parameters and constants.
-/
namespace WireSchema.Schema

open Binary

def positiveUid (kind : Numbered) (name : QualifiedName) (uid : Int64) :
    Except SchemaError UInt32 :=
  if 0 < uid.toInt ∧ uid.toInt < 0x100000000 then .ok (UInt32.ofNat uid.toInt.toNat)
  else .error (.nonPositiveUid kind name.text uid.toInt)

/-- Why a literal is no constant of a type, if it is none. -/
def constantFault? (type : TypeDef) (value : Literal) : Option String :=
  match type, value with
  | .bool, .bool _ => none
  | .text _, .text _ => none
  | .numeric n, value =>
    match value.integer?, value with
    | some v, _ =>
      if n.isFloat || n.holds v then none else some s!"{v} is out of range for {n.keyword}"
    | none, .float x =>
      if !n.isFloat then some s!"literal does not match type {n.keyword}"
      else if !x.isFinite then some (plainLayout.text x ++ " is not a finite literal")
      else if n = .float32 && x.narrow.isInfinite then
        some (plainLayout.text x ++ " is out of range for f32")
      else none
    | none, _ => some s!"literal does not match type {n.keyword}"
  | type, _ => some ("literal does not match type " ++ type.describe)

def checkConstant (name : QualifiedName) (type : TypeDef) (value : Literal) :
    Except SchemaError Unit :=
  match constantFault? type value with
  | none => .ok ()
  | some reason => .error (.invalidConstant name.text reason)

/-- Constants with distinct names and fitting values. -/
def assembleConstants (scope : QualifiedName) :
    (seen : List String) → List Document.Constant → Build (List Constant)
  | _, [] => return []
  | seen, c :: constants => do
    if c.name ∈ seen then throw (.duplicateName scope.text c.name)
    let type ← resolve scope c.type
    checkConstant (scope.child c.name) ((← get).types.getD type.index (.forward .root)) c.value
    let rest ← assembleConstants scope (c.name :: seen) constants
    return ⟨scope.child c.name, type, c.value⟩ :: rest

/-- Parameters of an operation, each with a direction. Their names differ from each other, and an
outbound one also from the member for what the operation returns. -/
def assembleParams (interface operation : QualifiedName) (returns : Bool) :
    (seen : List String) → List Document.Param → Build (List Param)
  | _, [] => return []
  | seen, p :: params => do
    if !p.inbound && !p.outbound then throw (.malformedParameter operation.text p.name)
    if p.name ∈ seen || (returns && p.outbound && p.name = returnMember) then
      throw (.duplicateName operation.text p.name)
    let type ← resolve interface p.type
    let rest ← assembleParams interface operation returns (p.name :: seen) params
    return ⟨p.name, type, p.inbound, p.outbound⟩ :: rest

def assembleOperation (interface : QualifiedName) (decl : Document.Operation) :
    Build Operation := do
  let name := interface.child decl.name
  let uid ← positiveUid .operation name decl.uid
  let params ← assembleParams interface name decl.returns.isSome [] decl.params
  if decl.oneway && (decl.returns.isSome || params.any (·.outbound)) then
    throw (.onewayWithResults name.text)
  let returns ← decl.returns.mapM (resolve interface)
  return { name, uid, params, returns, oneway := decl.oneway }

def assembleOperations (interface : QualifiedName) : (names : List String) →
    (uids : List (UInt32 × String)) → List Document.Operation → Build (List Operation)
  | _, _, [] => return []
  | names, uids, decl :: decls => do
    if decl.name ∈ names then throw (.duplicateName interface.text decl.name)
    let op ← assembleOperation interface decl
    match uids.lookup op.uid with
    | some other => throw (.duplicateUid .operation op.name.text op.uid.toNat other)
    | none =>
      let uids := (op.uid, op.name.text) :: uids
      let rest ← assembleOperations interface (decl.name :: names) uids decls
      return op :: rest

def declaredTypes (d : Draft) (scope : QualifiedName) (names : List String) : List TypeId :=
  names.foldl (fun ids name =>
    match d.names.lookup (scope.child name).text with
    | some (.type id) => if id ∈ ids then ids else ids ++ [id]
    | _ => ids) []

def declaredExceptions (d : Draft) (scope : QualifiedName) (names : List String) : List TypeId :=
  names.filterMap fun name =>
    match d.names.lookup (scope.child name).text with
    | some (.type id) => some id
    | _ => none

/-- Numbers of interfaces differ in the whole document. -/
def assembleInterface (scope : QualifiedName) (decl : Document.Interface) : Build Interface := do
  let name := scope.child decl.name
  let uid ← positiveUid .interface name decl.uid
  match (← get).interfaceUids.lookup uid with
  | some other => throw (.duplicateUid .interface name.text uid.toNat other)
  | none =>
    modify fun d => { d with interfaceUids := (uid, name.text) :: d.interfaceUids }
    let operations ← assembleOperations name [] [] decl.operations
    let exceptions := declaredExceptions (← get) name (decl.exceptions.map (·.name))
    let constants ← assembleConstants name [] decl.constants
    return { name, uid, operations, exceptions, constants }

mutual

/-- Constants first, then interfaces, then the modules inside. -/
def assembleModule (name : QualifiedName) : Document.Module → Build Module
  | ⟨_, modules, types, interfaces, constants⟩ => do
    let types := declaredTypes (← get) name (types.map (·.name))
    let constants ← assembleConstants name [] constants
    let interfaces ← interfaces.mapM (assembleInterface name)
    let modules ← assembleModules name modules
    return { name, modules, types, interfaces, constants }

def assembleModules (scope : QualifiedName) : List Document.Module → Build (List Module)
  | [] => return []
  | m :: modules => do
    let first ← assembleModule (scope.child m.name) m
    let rest ← assembleModules scope modules
    return first :: rest

end

def construct (doc : Document) : Build (List Module) := do
  declareModules .root doc.modules
  defineAll
  checkMapKeys (← get).types
  assembleModules .root doc.modules

def build (doc : Document) : Except SchemaError Schema := do
  let (modules, d) ← (construct doc).run {}
  return { types := d.types, modules }

end WireSchema.Schema
