import WireSchema.Identifier.Namespace
import WireSchema.Source.Body

/-!
# Emitted records

Plain records, exceptions, requests and responses are structures with a constructor and a codec. All
but plain records also carry what identifies them on the wire.
-/
namespace WireSchema.Source

open Identifier Schema

namespace Target

variable (t : Target)

/-- The fields of the members. A spelling is claimed before the type of its member is looked at. -/
def fieldsFrom (taken : Namespace) : List Member → Except SchemaError (List Field)
  | [] => .ok []
  | m :: members => do
    let taken ← taken.claim (snake m.name) m.name
    let strategy ← t.strategy m.type
    return ⟨snake m.name, strategy⟩ :: (← fieldsFrom taken members)

def fields (r : RecordType) : Except SchemaError (List Field) :=
  t.fieldsFrom (.fresh r.name) r.members

end Target

def Field.declaration (f : Field) : String := s!"{f.ident}: {f.strategy.typeText}"

def operationText (record : QualifiedName) (ending : String) : String :=
  (record.sibling (record.name.dropSuffix ending).toString).text

/-- What is said about a record in front of its declaration. -/
def recordComment (r : RecordType) : List Step :=
  match r.kind with
  | .plain => []
  | .exception => []
  | .request _ =>
    [.line ("/// Inbound parameters of `" ++ operationText r.name "Request" ++ "`.")]
  | .response _ =>
    [.line ("/// Outbound parameters of `" ++ operationText r.name "Response" ++ "`.")]

/-- The value whose fields are the variables of the same names. -/
def recordLiteral (fields : List Field) : String :=
  if fields.isEmpty then "Self \x7b\x7d"
  else "Self " ++ braced (", ".intercalate (fields.map (·.ident)))

def operationNumber (number : UInt32) : List Step :=
  [.line s!"const OPERATION_NUMBER: u32 = {number};"]

namespace Target

variable (t : Target)

def defaultResponse (response : RecordType) : List Step :=
  let path := t.path response.name
  [.blank,
    .line "/// An empty response for this request.",
    .block s!"pub fn create_default_response(&self) -> {path}" [.line s!"{path}::default()"]]

/-- What identifies a record on the wire. -/
def identity (r : RecordType) : List Step :=
  let ident := camel r.name.name
  let remote := t.runtime "RemoteException"
  match r.kind with
  | .plain => []
  | .exception => [
      .blank,
      .block s!"impl std::fmt::Display for {ident}" [
        .block "fn fmt(&self, f: &mut std::fmt::Formatter<'_>) -> std::fmt::Result" [
          .line ("write!(f, \"\x7b\x7d: \x7b:?\x7d\", " ++
            s!"<Self as {remote}>::TYPE_NAME, self)")]],
      .blank,
      .line (s!"impl std::error::Error for {ident} " ++ "\x7b\x7d"),
      .blank,
      .block s!"impl {remote} for {ident}" [
        .line s!"const TYPE_NAME: &'static str = {Text.quoted (t.config.wireName r.name)};"]]
  | .request number =>
    [.blank, .block ("impl " ++ t.runtime "Request" ++ s!" for {ident}") (operationNumber number)]
  | .response number =>
    [.blank, .block ("impl " ++ t.runtime "Response" ++ s!" for {ident}") (operationNumber number)]

/-- The file of a record. A request that is answered comes with its response. -/
def recordSteps (r : RecordType) (response? : Option RecordType) :
    Except SchemaError (List Step) := do
  let fields ← t.fields r
  let ident := camel r.name.name
  let params := ", ".intercalate (fields.map (·.declaration))
  return t.codecHeader r.name ++ recordComment r ++ [
    .line "#[derive(Debug, Clone, PartialEq, Default)]",
    .block s!"pub struct {ident}" (fields.map fun f => .line s!"pub {f.declaration},"),
    .blank,
    .block s!"impl {ident}"
      (.block s!"pub fn new({params}) -> Self" [.line (recordLiteral fields)] ::
        response?.elim [] t.defaultResponse),
    .blank,
    (CodecBody.record fields).step t ident] ++ t.identity r

end Target
end WireSchema.Source
