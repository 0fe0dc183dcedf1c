import WireSchema.Identifier.Namespace
import WireSchema.Source.Body

/-!
# Emitted enumerations and constants

Every enumerator keeps its number. The first one is the default, and a number that no enumerator has
is refused. The constants of a module or interface share one file. Only truth values, numbers and
texts can be constants.
-/
namespace WireSchema.Source

open Identifier Schema

/-- The declarations of the enumerators, the first one marked as default. -/
def enumeratorLines (e : EnumType) : List Step :=
  (if e.enumerators.isEmpty then [] else [.line "#[default]"]) ++
    e.enumerators.map fun v => .line s!"{camel v.name} = {v.value.toInt},"

namespace Target

variable (t : Target)

def invalidOrdinal (name : QualifiedName) : String :=
  t.runtime "Error::InvalidEnumValue " ++
    braced s!"type_name: {Text.quoted name.text}.to_owned(), value"

def ordinalArms (e : EnumType) : List Step :=
  e.enumerators.map (fun v =>
      .line s!"{v.value.toInt} => Ok({camel e.name.name}::{camel v.name}),") ++
    [.line s!"_ => Err({t.invalidOrdinal e.name}),"]

def enumerationSteps (e : EnumType) : Except SchemaError (List Step) := do
  let _ ← (Namespace.fresh e.name).claimAll (e.enumerators.map fun v => (camel v.name, v.name))
  let ident := camel e.name.name
  return t.codecHeader e.name ++ [
    .line "#[derive(Debug, Clone, Copy, PartialEq, Eq, PartialOrd, Ord, Hash, Default)]",
    .line "#[repr(i32)]",
    .block s!"pub enum {ident}" (enumeratorLines e),
    .blank,
    .block s!"impl From<{ident}> for i32" [
      .block s!"fn from(value: {ident}) -> i32" [.line "value as i32"]],
    .blank,
    .block s!"impl TryFrom<i32> for {ident}" [
      t.errorType,
      .blank,
      .block ("fn try_from(value: i32) -> " ++ t.result "Self") [
        .block "match value" (t.ordinalArms e)]],
    .blank,
    (CodecBody.enumeration (t.path e.name)).step t ident]

def constantStep (c : Constant) : Except SchemaError Step := do
  let strategy ← t.strategy c.type
  let some type := strategy.constantType?
    | .error (.invalidConstant c.name.text "type cannot be a constant")
  let some value := strategy.constantText? c.value
    | .error (.invalidConstant c.name.text "literal does not match type")
  return .line s!"pub const {shouty c.name.name}: {type} = {value};"

/-- The declarations of the constants. A spelling is claimed before its constant is looked at. -/
def constantLines (taken : Namespace) : List Constant → Except SchemaError (List Step)
  | [] => .ok []
  | c :: constants => do
    let taken ← taken.claim (shouty c.name.name) c.name.name
    let step ← t.constantStep c
    return step :: (← constantLines taken constants)

def constantsSteps (scope : QualifiedName) (constants : List Constant) :
    Except SchemaError (List Step) := do
  return header scope ++ (← t.constantLines (.fresh scope) constants)

end Target
end WireSchema.Source
