import WireSchema.Identifier.Path
import WireSchema.Source.Body

/-!
# Emitted sequences and maps

A container wraps a list or an ordered map and holds at most as many entries as the settings allow.
Every way to make one checks that bound.
-/
namespace WireSchema.Source.Target

open Identifier Schema

variable (t : Target)

def countExceeded (name : QualifiedName) (got : String) : String :=
  t.runtime "Error::CountExceeded " ++
    braced (s!"type_name: {Text.quoted name.text}.to_owned(), max: Self::MAX_ELEMS, " ++
      s!"got: {got} as u64")

def duplicateKey (name : QualifiedName) : String :=
  t.runtime "Error::DuplicateMapKey " ++ braced s!"type_name: {Text.quoted name.text}.to_owned()"

def refuseCount (name : QualifiedName) (got : String) : List Step :=
  [.line s!"return Err({t.countExceeded name got});"]

/-- The bound of a container and the function that makes an empty one. -/
def containerStart : List Step := [
  .line s!"pub const MAX_ELEMS: u32 = {t.config.maxElements};",
  .blank,
  .block "pub fn new() -> Self" [.line "Self::default()"],
  .blank]

def containerEnd (inner : String) : List Step :=
  [.blank, .block s!"pub fn into_inner(self) -> {inner}" [.line "self.0"]]

/-- Makes a container from what is bound to `binder`, if it fits. -/
def checkedFrom (name : QualifiedName) (inner binder : String) : Step :=
  .block s!"impl TryFrom<{inner}> for {camel name.name}" [
    t.errorType,
    .blank,
    .block (s!"fn try_from({binder}: {inner}) -> " ++ t.result "Self") [
      .block s!"if {binder}.len() > Self::MAX_ELEMS as usize"
        (t.refuseCount name s!"{binder}.len()"),
      .line s!"Ok(Self({binder}))"]]

def derefTo (name : QualifiedName) (target : String) : Step :=
  .block s!"impl std::ops::Deref for {camel name.name}" [
    .line s!"type Target = {target};",
    .blank,
    .block s!"fn deref(&self) -> &{target}" [.line "&self.0"]]

def sequenceSteps (q : SequenceType) : Except SchemaError (List Step) := do
  let element ← t.strategy q.element
  let ident := camel q.name.name
  let item := element.typeText
  let inner := s!"Vec<{item}>"
  return t.codecHeader q.name ++ [
    .line s!"/// A sequence of `{item}` holding at most [`{ident}::MAX_ELEMS`] elements.",
    .line "#[derive(Debug, Clone, PartialEq, Default)]",
    .line s!"pub struct {ident}({inner});",
    .blank,
    .block s!"impl {ident}" (t.containerStart ++ [
      .line "/// Append `value`, failing if the sequence is full.",
      .block (s!"pub fn push(&mut self, value: {item}) -> " ++ t.result "()") [
        .block "if self.0.len() >= Self::MAX_ELEMS as usize"
          (t.refuseCount q.name "(self.0.len() + 1)"),
        .line "self.0.push(value);",
        .line "Ok(())"]] ++ containerEnd inner),
    .blank,
    t.checkedFrom q.name inner "values",
    .blank,
    derefTo q.name s!"[{item}]",
    .blank,
    (CodecBody.sequence q.name.text element).step t ident]

def mapSteps (m : MapType) : Except SchemaError (List Step) := do
  let key ← t.strategy m.key
  let value ← t.strategy m.value
  let ident := camel m.name.name
  let keyType := key.typeText
  let valueType := value.typeText
  let inner := s!"std::collections::BTreeMap<{keyType}, {valueType}>"
  return t.codecHeader m.name ++ [
    .line (s!"/// A map from `{keyType}` to `{valueType}` " ++
      s!"holding at most [`{ident}::MAX_ELEMS`] pairs."),
    .line "///",
    .line "/// Pairs are encoded in ascending key order.",
    .line "#[derive(Debug, Clone, PartialEq, Default)]",
    .line s!"pub struct {ident}({inner});",
    .blank,
    .block s!"impl {ident}" (t.containerStart ++ [
      .line "/// Insert a pair, failing if the map is full and `key` is new.",
      .block (s!"pub fn insert(&mut self, key: {keyType}, value: {valueType}) -> " ++
          t.result s!"Option<{valueType}>") [
        .block "if !self.0.contains_key(&key) && self.0.len() >= Self::MAX_ELEMS as usize"
          (t.refuseCount m.name "(self.0.len() + 1)"),
        .line "Ok(self.0.insert(key, value))"]] ++ containerEnd inner),
    .blank,
    t.checkedFrom m.name inner "entries",
    .blank,
    derefTo m.name inner,
    .blank,
    (CodecBody.map m.name.text (t.duplicateKey m.name) key value).step t ident]

end WireSchema.Source.Target
