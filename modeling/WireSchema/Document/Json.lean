import WireSchema.Document.Basic
import WireSchema.Json.Reader
import WireSchema.Json.Record

/-!
# Documents in JSON

Every declaration is a record. Lists and flags may be left out when they are empty or false. A type
declaration is an object whose `kind` says which further fields count; it may hold other fields too.
-/
namespace WireSchema

open Json

namespace Json

/-- The value under a key that occurs at most once. -/
def unique? (key : String) (fields : List (String × Json)) : Option (Option Json) :=
  match fields.filter (·.1 == key) with
  | [] => some none
  | [(_, j)] => some (some j)
  | _ => none

/-- The value under a key that occurs exactly once. -/
def exactlyOne? (key : String) (fields : List (String × Json)) : Option Json :=
  (unique? key fields).bind id

end Json

def Literal.ofJson? : Json → Option Literal
  | .bool b => some (.bool b)
  | .int v =>
    if -0x8000000000000000 ≤ v ∧ v < 0x8000000000000000 then some (.integer (Int64.ofInt v))
    else if 0 ≤ v ∧ v < 0x10000000000000000 then some (.natural (UInt64.ofNat v.toNat))
    else none
  | .float x _ => some (.float x)
  | .str s => some (.text s)
  | _ => none

/-- A double that is not finite has no number to stand for it and is written as `null`. -/
def Literal.toJson : Literal → Json
  | .bool b => .bool b
  | .integer v => .int v.toInt
  | .natural v => .int v.toNat
  | .float x => (ofDouble? x).getD .null
  | .text s => .str s

namespace Document

def Member.ofJson? (j : Json) : Option Member := do
  let r ← j.record? ["name", "type"]
  return { name := ← r.required "name" text?, type := ← r.required "type" text? }

def Member.toJson (m : Member) : Json :=
  .obj [("name", .str m.name), ("type", .str m.type)]

def Enumerator.ofJson? (j : Json) : Option Enumerator := do
  let r ← j.record? ["name", "value"]
  return { name := ← r.required "name" text?, value := ← r.required "value" int64? }

def Enumerator.toJson (e : Enumerator) : Json :=
  .obj [("name", .str e.name), ("value", .int e.value.toInt)]

def Constant.ofJson? (j : Json) : Option Constant := do
  let r ← j.record? ["name", "type", "value"]
  return {
    name := ← r.required "name" text?
    type := ← r.required "type" text?
    value := ← r.required "value" Literal.ofJson? }

def Constant.toJson (c : Constant) : Json :=
  .obj [("name", .str c.name), ("type", .str c.type), ("value", c.value.toJson)]

namespace TypeBody

/-- The kinds of type declarations, in the order in which they are numbered. -/
def kinds : List String := ["struct", "exception", "sequence", "map", "enum", "alias", "forward"]

/-- A kind is given by its name or its number. -/
def kind? : Json → Option String
  | .str s => if s ∈ kinds then some s else none
  | .int (.ofNat i) => kinds[i]?
  | _ => none

def members? (fields : List (String × Json)) : Option (List Member) := do
  match ← unique? "members" fields with
  | none => return []
  | some j => list? Member.ofJson? j

/-- The body of a declaration of the given kind. -/
def ofFields? (kind : String) (fields : List (String × Json)) : Option TypeBody :=
  match kind with
  | "struct" => (members? fields).map .record
  | "exception" => (members? fields).map .exception
  | "sequence" => do return .sequence (← (← exactlyOne? "element" fields).text?)
  | "map" => do
    return .map (← (← exactlyOne? "key" fields).text?) (← (← exactlyOne? "value" fields).text?)
  | "enum" => do
    return .enumeration (← list? Enumerator.ofJson? (← exactlyOne? "enumerators" fields))
  | "alias" => do return .alias (← (← exactlyOne? "target" fields).text?)
  | "forward" => some .forward
  | _ => none

def toFields : TypeBody → List (String × Json)
  | .record members => [("kind", .str "struct"), ("members", .arr (members.map Member.toJson))]
  | .exception members =>
    [("kind", .str "exception"), ("members", .arr (members.map Member.toJson))]
  | .sequence element => [("kind", .str "sequence"), ("element", .str element)]
  | .map key value => [("kind", .str "map"), ("key", .str key), ("value", .str value)]
  | .enumeration enumerators =>
    [("kind", .str "enum"), ("enumerators", .arr (enumerators.map Enumerator.toJson))]
  | .alias target => [("kind", .str "alias"), ("target", .str target)]
  | .forward => [("kind", .str "forward")]

end TypeBody

def TypeDecl.ofJson? : Json → Option TypeDecl
  | .obj fields => do
    let name ← (← exactlyOne? "name" fields).text?
    let kind ← TypeBody.kind? (← exactlyOne? "kind" fields)
    return { name, body := ← TypeBody.ofFields? kind fields }
  | _ => none

def TypeDecl.toJson (t : TypeDecl) : Json :=
  .obj (("name", .str t.name) :: t.body.toFields)

def Exception.ofJson? (j : Json) : Option Exception := do
  let r ← j.record? ["name", "members"]
  return {
    name := ← r.required "name" text?
    members := ← r.optional "members" [] (list? Member.ofJson?) }

def Exception.toJson (e : Exception) : Json :=
  .obj [("name", .str e.name), ("members", .arr (e.members.map Member.toJson))]

def Param.ofJson? (j : Json) : Option Param := do
  let r ← j.record? ["name", "type", "in", "out"]
  return {
    name := ← r.required "name" text?
    type := ← r.required "type" text?
    inbound := ← r.optional "in" false bool?
    outbound := ← r.optional "out" false bool? }

def Param.toJson (p : Param) : Json :=
  .obj [("name", .str p.name), ("type", .str p.type), ("in", .bool p.inbound),
    ("out", .bool p.outbound)]

def Operation.ofJson? (j : Json) : Option Operation := do
  let r ← j.record? ["name", "uid", "params", "returns", "oneway"]
  return {
    name := ← r.required "name" text?
    uid := ← r.required "uid" int64?
    params := ← r.optional "params" [] (list? Param.ofJson?)
    returns := ← r.optional "returns" none (nullable? text?)
    oneway := ← r.optional "oneway" false bool? }

def Operation.toJson (o : Operation) : Json :=
  .obj [("name", .str o.name), ("uid", .int o.uid.toInt),
    ("params", .arr (o.params.map Param.toJson)),
    ("returns", (o.returns.map Json.str).getD .null), ("oneway", .bool o.oneway)]

def Interface.ofJson? (j : Json) : Option Interface := do
  let r ← j.record? ["name", "uid", "operations", "exceptions", "constants"]
  return {
    name := ← r.required "name" text?
    uid := ← r.required "uid" int64?
    operations := ← r.optional "operations" [] (list? Operation.ofJson?)
    exceptions := ← r.optional "exceptions" [] (list? Exception.ofJson?)
    constants := ← r.optional "constants" [] (list? Constant.ofJson?) }

def Interface.toJson (i : Interface) : Json :=
  .obj [("name", .str i.name), ("uid", .int i.uid.toInt),
    ("operations", .arr (i.operations.map Operation.toJson)),
    ("exceptions", .arr (i.exceptions.map Exception.toJson)),
    ("constants", .arr (i.constants.map Constant.toJson))]

mutual

def Module.toJson : Module → Json
  | ⟨name, modules, types, interfaces, constants⟩ =>
    .obj [("name", .str name), ("modules", .arr (modulesToJson modules)),
      ("types", .arr (types.map TypeDecl.toJson)),
      ("interfaces", .arr (interfaces.map Interface.toJson)),
      ("constants", .arr (constants.map Constant.toJson))]

def modulesToJson : List Module → List Json
  | [] => []
  | m :: modules => m.toJson :: modulesToJson modules

end

mutual

def Module.ofJson? (j : Json) : Option Module :=
  match _hr : j.record? ["name", "modules", "types", "interfaces", "constants"] with
  | none => none
  | some r =>
    match _hm : r.childItems "modules" with
    | none => none
    | some items => do
      return {
        name := ← r.required "name" text?
        modules := ← modulesOfJson? items
        types := ← r.optional "types" [] (list? TypeDecl.ofJson?)
        interfaces := ← r.optional "interfaces" [] (list? Interface.ofJson?)
        constants := ← r.optional "constants" [] (list? Constant.ofJson?) }
termination_by sizeOf j
decreasing_by exact Record.sizeOf_childItems_lt _hr _hm

def modulesOfJson? : List Json → Option (List Module)
  | [] => some []
  | j :: items => do return (← Module.ofJson? j) :: (← modulesOfJson? items)
termination_by items => sizeOf items

end

end Document

namespace Document

def toJson (d : Document) : Json := .obj [("modules", .arr (modulesToJson d.modules))]

def ofJson? (j : Json) : Option Document := do
  let r ← j.record? ["modules"]
  return { modules := ← modulesOfJson? (← r.childItems "modules") }

def parse? (text : String) : Option Document := do
  ofJson? (← Json.read? nestingLimit text)

end Document
end WireSchema
