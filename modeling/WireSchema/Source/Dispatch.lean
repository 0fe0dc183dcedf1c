import WireSchema.Identifier.Path
import WireSchema.Source.File

/-!
# Emitted dispatch

The requests, responses and exceptions of an interface are each gathered in one enumeration, which
makes the right variant from a key. Requests and responses are told apart by the number of their
operation, exceptions by the name under which they travel.
-/
namespace WireSchema.Source

open Identifier Schema

inductive DispatchKey where
  | number (n : UInt32)
  | wireName (name : String)
deriving DecidableEq, Repr

def DispatchKey.pattern : DispatchKey → String
  | .number n => toString n
  | .wireName name => Text.quoted name

structure Variant where
  ident : String
  /-- The path of the type inside. -/
  path : String
  key : DispatchKey
deriving DecidableEq, Repr

/-- How the kinds of enumerations differ. -/
structure DispatchKind where
  /-- The name of the key, as a parameter and as a function. -/
  key : String
  keyType : String
  /-- The type of the key that is asked of a value. -/
  keyResult : String
  /-- The trait and constant under which a type gives its key. -/
  keyConstant : String
  /-- The error for a key that has no variant. -/
  error : String
  /-- The field of that error which holds the key. -/
  errorKey : String

namespace DispatchKind

def request : DispatchKind where
  key := "operation_number"
  keyType := "u32"
  keyResult := "u32"
  keyConstant := "Request>::OPERATION_NUMBER"
  error := "UnknownOperation"
  errorKey := "operation_number"

def response : DispatchKind where
  key := "operation_number"
  keyType := "u32"
  keyResult := "u32"
  keyConstant := "Response>::OPERATION_NUMBER"
  error := "UnknownResponse"
  errorKey := "operation_number"

def exception : DispatchKind where
  key := "type_name"
  keyType := "&str"
  keyResult := "&'static str"
  keyConstant := "RemoteException>::TYPE_NAME"
  error := "UnknownException"
  errorKey := "type_name: type_name.to_owned()"

end DispatchKind

structure DispatchEnum where
  kind : DispatchKind
  interface : QualifiedName
  ident : String
  variants : List Variant

namespace DispatchEnum

variable (d : DispatchEnum) (t : Target)

def declaration : List Step := [
  .line "#[derive(Debug, Clone, PartialEq)]",
  .block s!"pub enum {d.ident}" (d.variants.map fun v => .line s!"{v.ident}({v.path}),"),
  .blank]

def unknown : String :=
  let fields := braced
    s!"interface: {Text.quoted d.interface.text}.to_owned(), {d.kind.errorKey}"
  "Err(" ++ t.runtime s!"Error::{d.kind.error} {fields})"

/-- The arms that make a variant from a key, given how its content is made. -/
def keyArms (content : Variant → String) : List Step :=
  d.variants.map (fun v =>
      .line s!"{v.key.pattern} => Ok({d.ident}::{v.ident}({content v})),") ++
    [.line s!"_ => {d.unknown t},"]

def create : Step :=
  .block (s!"pub fn create({d.kind.key}: {d.kind.keyType}) -> " ++ t.result "Self") [
    .block s!"match {d.kind.key}" (d.keyArms t fun v => s!"{v.path}::default()")]

def decode : Step :=
  .block (s!"pub fn decode({d.kind.key}: {d.kind.keyType}, de: &mut Deserializer<'_>) -> " ++
      t.result "Self") [
    .block s!"match {d.kind.key}" (d.keyArms t fun v => s!"<{v.path} as Xdr>::deserialize(de)?")]

/-- A case distinction on a value, the content of each variant bound to `binding`. -/
def cases (binding : String) (arm : Variant → String) : Step :=
  if d.variants.isEmpty then .line "match *self \x7b\x7d"
  else .block "match self"
    (d.variants.map fun v => .line s!"{d.ident}::{v.ident}({binding}) => {arm v},")

def keyAccessor : Step :=
  .block s!"pub fn {d.kind.key}(&self) -> {d.kind.keyResult}" [
    d.cases "_" fun v => s!"<{v.path} as {t.runtime d.kind.keyConstant}"]

def codec : List Step := [
  .block ("pub fn serialize<W: std::io::Write>(&self, ser: &mut Serializer<W>) -> " ++
      t.result "()") [
    d.cases "value" fun _ => "Xdr::serialize(value, ser)"],
  .blank,
  .block "pub fn size(&self) -> usize" [d.cases "value" fun _ => "Xdr::size(value)"]]

/-- The functions that all enumerations have, with `extra` in front of the codec. -/
def functions (extra : List Step) : List Step :=
  [d.create t, .blank, d.decode t, .blank, d.keyAccessor t, .blank] ++ extra ++ d.codec t

end DispatchEnum

namespace Target

variable (t : Target)

/-- The enumeration of the requests of an interface, one variant for each operation. -/
def requests (i : Interface) : DispatchEnum where
  kind := .request
  interface := i.name
  ident := camel i.name.name ++ "Request"
  variants := i.operations.map fun op =>
    ⟨camel op.name.name, t.path op.request.name, .number op.uid⟩

/-- The enumeration of the responses of an interface. Oneway operations have none. -/
def responses (i : Interface) : DispatchEnum where
  kind := .response
  interface := i.name
  ident := camel i.name.name ++ "Response"
  variants := i.operations.filterMap fun op =>
    op.response?.map fun r => ⟨camel op.name.name, t.path r.name, .number op.uid⟩

def exceptionRecords (i : Interface) : List RecordType :=
  i.exceptions.filterMap fun id =>
    match t.schema.type id with
    | .record r => some r
    | _ => none

def exceptions (i : Interface) : DispatchEnum where
  kind := .exception
  interface := i.name
  ident := camel i.name.name ++ "Exception"
  variants := (t.exceptionRecords i).map fun r =>
    ⟨camel r.name.name, t.path r.name, .wireName (t.config.wireName r.name)⟩

end Target
end WireSchema.Source
