import WireSchema.Binary.Float

/-!
# Interface documents

A document is a tree of modules. A module declares types, interfaces and constants; an interface
declares operations, exceptions and constants. Types are referred to by name, and nothing is
resolved yet.
-/
namespace WireSchema

open Binary

inductive Literal where
  | bool (b : Bool)
  | integer (v : Int64)
  /-- An integer too large for a signed word. -/
  | natural (v : UInt64)
  | float (x : Binary64)
  | text (s : String)
deriving DecidableEq, Repr, Inhabited

/-- The integer that a literal writes, if it writes one. -/
def Literal.integer? : Literal → Option Int
  | .integer v => some v.toInt
  | .natural v => some v.toNat
  | _ => none

namespace Document

structure Member where
  name : String
  type : String
deriving DecidableEq, Repr, Inhabited

structure Enumerator where
  name : String
  value : Int64
deriving DecidableEq, Repr, Inhabited

structure Constant where
  name : String
  type : String
  value : Literal
deriving DecidableEq, Repr, Inhabited

inductive TypeBody where
  | record (members : List Member)
  | exception (members : List Member)
  | sequence (element : String)
  | map (key value : String)
  | enumeration (enumerators : List Enumerator)
  /-- Another name of the target. -/
  | alias (target : String)
  /-- The definition stands elsewhere, in this document or outside it. -/
  | forward
deriving DecidableEq, Repr, Inhabited

structure TypeDecl where
  name : String
  body : TypeBody
deriving DecidableEq, Repr, Inhabited

structure Exception where
  name : String
  members : List Member
deriving DecidableEq, Repr, Inhabited

structure Param where
  name : String
  type : String
  inbound : Bool
  outbound : Bool
deriving DecidableEq, Repr, Inhabited

structure Operation where
  name : String
  uid : Int64
  params : List Param
  returns : Option String
  oneway : Bool
deriving DecidableEq, Repr, Inhabited

structure Interface where
  name : String
  uid : Int64
  operations : List Operation
  exceptions : List Exception
  constants : List Constant
deriving DecidableEq, Repr, Inhabited

structure Module where
  name : String
  modules : List Module
  types : List TypeDecl
  interfaces : List Interface
  constants : List Constant
deriving Repr, Inhabited

end Document

structure Document where
  modules : List Document.Module
deriving Repr, Inhabited

end WireSchema
