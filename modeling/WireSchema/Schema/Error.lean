/-!
# Rules that a document can break

Building a schema and emitting its source stop at the first rule that the document breaks. Names in
the errors are written forms of qualified names.
-/
namespace WireSchema

inductive Numbered where
  | interface
  | operation
deriving DecidableEq, Repr

def Numbered.text : Numbered → String
  | .interface => "interface"
  | .operation => "operation"

inductive SchemaError where
  | nonPositiveUid (kind : Numbered) (name : String) (uid : Int)
  | duplicateUid (kind : Numbered) (name : String) (uid : Nat) (other : String)
  | malformedParameter (operation param : String)
  | onewayWithResults (operation : String)
  | unknownType (scope name : String)
  | duplicateName (scope name : String)
  | aliasCycle (name : String)
  | unsupportedMap (name : String)
  | unorderedMapKey (name key : String)
  | emptyEnum (name : String)
  | duplicateEnumValue (name enumerator : String) (value : Int)
  | invalidConstant (name reason : String)
deriving DecidableEq, Repr

def SchemaError.message : SchemaError → String
  | .nonPositiveUid kind name uid =>
    s!"{kind.text} {name} requires a positive 32-bit UID (current uid = {uid})"
  | .duplicateUid kind name uid other =>
    s!"{kind.text} {name} reuses UID {uid} already assigned to {other}"
  | .malformedParameter operation param =>
    s!"{operation}: parameter {param} is neither inbound nor outbound"
  | .onewayWithResults operation =>
    s!"oneway operation {operation} cannot have outbound parameters or a return value"
  | .unknownType scope name => s!"{scope}: unknown type {name}"
  | .duplicateName scope name => s!"{scope}: duplicate declaration of {name}"
  | .aliasCycle name => s!"{name}: typedef cycle"
  | .unsupportedMap name => s!"{name}: map types are not supported as wire types by this target"
  | .unorderedMapKey name key => s!"{name}: map key type {key} has no total order"
  | .emptyEnum name => s!"{name}: enum declares no enumerators"
  | .duplicateEnumValue name enumerator value =>
    s!"{name}: enumerator {enumerator} has invalid or duplicate value {value}"
  | .invalidConstant name reason => s!"constant {name}: {reason}"

end WireSchema
