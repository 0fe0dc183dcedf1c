import WireSchema.Document.Basic
import WireSchema.Schema.Type

/-!
# Schemas

A schema is a table of resolved types and a tree of modules. The request and response records of an
operation are not in the table; they follow from its parameters.
-/
namespace WireSchema
namespace Schema

structure Constant where
  name : QualifiedName
  type : TypeId
  value : Literal
deriving DecidableEq, Repr, Inhabited

structure Param where
  name : String
  type : TypeId
  inbound : Bool
  outbound : Bool
deriving DecidableEq, Repr, Inhabited

structure Operation where
  name : QualifiedName
  uid : UInt32
  params : List Param
  returns : Option TypeId
  oneway : Bool
deriving DecidableEq, Repr, Inhabited

/-- The member of a response that carries what the operation returns. -/
def returnMember : String := "return_value"

namespace Operation

variable (op : Operation)

/-- The record of the inbound parameters, in their declared order. -/
def request : RecordType where
  name := op.name.sibling (op.name.name ++ "Request")
  kind := .request op.uid
  members := (op.params.filter (·.inbound)).map fun p => ⟨p.name, p.type⟩

/-- The outbound parameters in their declared order, then what is returned. -/
def responseMembers : List Member :=
  (op.params.filter (·.outbound)).map (fun p => ⟨p.name, p.type⟩) ++
    op.returns.toList.map fun type => ⟨returnMember, type⟩

/-- The record with which an operation is answered, unless it is oneway. -/
def response? : Option RecordType :=
  if op.oneway then none
  else some {
    name := op.name.sibling (op.name.name ++ "Response")
    kind := .response op.uid
    members := op.responseMembers }

end Operation

structure Interface where
  name : QualifiedName
  uid : UInt32
  operations : List Operation
  exceptions : List TypeId
  constants : List Constant
deriving DecidableEq, Repr, Inhabited

def Interface.operation? (i : Interface) (uid : UInt32) : Option Operation :=
  i.operations.find? (·.uid == uid)

structure Module where
  name : QualifiedName
  modules : List Module
  /-- The types declared directly in the module. -/
  types : List TypeId
  interfaces : List Interface
  constants : List Constant
deriving Repr, Inhabited

mutual

def Module.allInterfaces : Module → List Interface
  | ⟨_, modules, _, interfaces, _⟩ => interfaces ++ interfacesOf modules

def interfacesOf : List Module → List Interface
  | [] => []
  | m :: modules => m.allInterfaces ++ interfacesOf modules

end

end Schema

structure Schema where
  types : Array TypeDef
  modules : List Schema.Module
deriving Repr, Inhabited

namespace Schema

variable (s : Schema)

/-- The type at a position. A position outside the table is a type that nobody defined. -/
def type (id : TypeId) : TypeDef := s.types.getD id.index (.forward .root)

def interfaces : List Interface := interfacesOf s.modules

/-- The first type with the given written name. -/
def findType? (name : String) : Option TypeId :=
  (s.types.findIdx? fun t => t.name?.any (·.text == name)).map TypeId.mk

def findInterface? (name : String) : Option Interface :=
  s.interfaces.find? (·.name.text == name)

end Schema
end WireSchema
