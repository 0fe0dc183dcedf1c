import WireSchema.Source.Dispatch

/-!
# Emitted interfaces

The file of an interface declares the files beside it, gives the interface's numbers, and holds the
three enumerations through which its messages are dispatched.
-/
namespace WireSchema.Source

open Identifier Schema

/-- A file beside the file of an interface, by the spellings of its module and of its type. -/
structure Child where
  module : String
  type : String
deriving DecidableEq, Repr

def Child.lines (c : Child) : List Step := [moduleLine c.module, useLine c.module c.type]

def hexText (n : UInt32) : String := "0x" ++ String.ofList (Nat.toDigits 16 n.toNat)

namespace Target

variable (t : Target)

/-- The variants of the operations that are not answered. -/
def onewayIdents (i : Interface) : List String :=
  (i.operations.filter (·.response?.isNone)).map fun op => camel op.name.name

/-- The arm that pairs the request of a variant with its empty response. -/
def responseArm (i : Interface) (v : Variant) : Step :=
  let request := (t.requests i).ident
  let response := (t.responses i).ident
  if v.ident ∈ onewayIdents i then .line s!"{request}::{v.ident}(_) => None,"
  else .line (s!"{request}::{v.ident}(request) => " ++
    s!"Some({response}::{v.ident}(request.create_default_response())),")

/-- The function that pairs a request with its empty response. -/
def pairing (i : Interface) : List Step := [
  .line "/// The empty response paired with this request, `None` for oneway operations.",
  .block s!"pub fn create_default_response(&self) -> Option<{(t.responses i).ident}>" [
    if (t.requests i).variants.isEmpty then .line "match *self \x7b\x7d"
    else .block "match self" ((t.requests i).variants.map (t.responseArm i))],
  .blank]

def requestSteps (i : Interface) : List Step :=
  let d := t.requests i
  d.declaration ++ [
    .block s!"impl {d.ident}"
      (.line "/// An empty request for `operation_number`." :: d.functions t (t.pairing i)),
    .blank]

def responseSteps (i : Interface) : List Step :=
  let d := t.responses i
  d.declaration ++ [.block s!"impl {d.ident}" (d.functions t []), .blank]

def exceptionSteps (i : Interface) : List Step :=
  let d := t.exceptions i
  d.declaration ++ [
    .block s!"impl {d.ident}" (d.functions t []),
    .blank,
    .block s!"impl std::fmt::Display for {d.ident}" [
      .block "fn fmt(&self, f: &mut std::fmt::Formatter<'_>) -> std::fmt::Result" [
        d.cases "exception" fun _ => "std::fmt::Display::fmt(exception, f)"]],
    .blank,
    .line (s!"impl std::error::Error for {d.ident} " ++ "\x7b\x7d")]

/-- The numbers by which an interface is reached. -/
def numberSteps (i : Interface) : List Step := [
  .line s!"pub const INTERFACE_VERSION: u32 = {i.uid};",
  .line s!"pub const PROGRAM_NUMBER: u32 = {hexText (t.config.programNumber i.uid)};",
  .blank,
  .block "pub fn version() -> u32" [.line "INTERFACE_VERSION"],
  .blank,
  .block "pub fn program_number() -> u32" [.line "PROGRAM_NUMBER"],
  .blank]

def interfaceSteps (i : Interface) (children : List Child) : List Step :=
  t.codecHeader i.name ++
    (if i.constants.isEmpty then [] else constantsModule) ++
    children.flatMap Child.lines ++ [.blank] ++
    t.numberSteps i ++ t.requestSteps i ++ t.responseSteps i ++ t.exceptionSteps i

end Target
end WireSchema.Source
