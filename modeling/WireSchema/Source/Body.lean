import WireSchema.Source.File

/-!
# Bodies of emitted codecs

The three functions of an emitted codec, statement by statement, before they become text: one writes
a value, one reads a value, one computes a size. Lists and maps are kept in the first field of their
type.
-/
namespace WireSchema.Source

structure Field where
  ident : String
  strategy : Strategy
deriving DecidableEq, Repr

def Field.place (f : Field) : String := "self." ++ f.ident

inductive WriteStatement where
  | value (strategy : Strategy) (place : String)
  /-- Writes how many entries there are. -/
  | count
  /-- Runs the body for each entry, bound to the pattern. -/
  | each (pattern : String) (body : List WriteStatement)

mutual

def WriteStatement.step : WriteStatement → Step
  | .value strategy place => .line (strategy.writeStatement place)
  | .count => .line "ser.write_count(self.0.len())?;"
  | .each pattern body => .block s!"for {pattern} in &self.0" (writeSteps body)

def writeSteps : List WriteStatement → List Step
  | [] => []
  | w :: body => w.step :: writeSteps body

end

inductive ReadStatement where
  /-- Binds the number of entries that follow, at most the cap of the type. -/
  | count (typeName : String)
  | newList
  | newMap
  | bind (ident : String) (strategy : Strategy)
  /-- Adds the bound value to the list. -/
  | push
  /-- Adds the bound pair to the map, and fails with the error if its key was there. -/
  | insert (error : String)
  /-- Runs the body as often as the bound number says. -/
  | repeated (body : List ReadStatement)
  /-- Gives a record whose fields are read in their order. -/
  | giveFields (fields : List Field)
  | giveList
  | giveMap
  /-- Reads an ordinal and gives the enumerator that has it. -/
  | giveOrdinal

mutual

def ReadStatement.steps : ReadStatement → List Step
  | .count typeName =>
    [.line s!"let count = de.read_count({Text.quoted typeName}, Self::MAX_ELEMS)?;"]
  | .newList => [.line "let mut values = Vec::with_capacity(count.min(de.remaining().len()));"]
  | .newMap => [.line "let mut entries = std::collections::BTreeMap::new();"]
  | .bind ident strategy => [.line (strategy.bindStatement ident)]
  | .push => [.line "values.push(value);"]
  | .insert error =>
    [.block "if entries.insert(key, value).is_some()" [.line s!"return Err({error});"]]
  | .repeated body => [.block "for _ in 0..count" (readSteps body)]
  | .giveFields [] => [.line "Ok(Self \x7b\x7d)"]
  | .giveFields fields =>
    [.line "Ok(Self \x7b", .indent] ++
      fields.map (fun f => .line s!"{f.ident}: {f.strategy.readExpression},") ++
      [.dedent, .line "\x7d)"]
  | .giveList => [.line "Ok(Self(values))"]
  | .giveMap => [.line "Ok(Self(entries))"]
  | .giveOrdinal => [.line "Self::try_from(de.read_enum()?)"]

def readSteps : List ReadStatement → List Step
  | [] => []
  | r :: body => r.steps ++ readSteps body

end

inductive SizeTerm where
  | fixed (n : Nat)
  | varying (strategy : Strategy) (place : String)
deriving DecidableEq, Repr

namespace SizeTerm

def ofStrategy (strategy : Strategy) (place : String) : SizeTerm :=
  match strategy.fixedSize? with
  | some n => .fixed n
  | none => .varying strategy place

def fixed? : SizeTerm → Option Nat
  | .fixed n => some n
  | .varying _ _ => none

def varying? : SizeTerm → Option String
  | .fixed _ => none
  | .varying strategy place => some (strategy.sizeExpression place)

/-- What the fixed summands add up to. -/
def fixedTotal (terms : List SizeTerm) : Nat := (terms.filterMap fixed?).foldr (· + ·) 0

/-- The sum of the terms, with the fixed ones folded into one number in front. A zero is left out
unless nothing else is there. -/
def sumText (terms : List SizeTerm) : String :=
  let varying := terms.filterMap varying?
  let total := fixedTotal terms
  " + ".intercalate
    (if 0 < total ∨ varying.isEmpty then toString total :: varying else varying)

end SizeTerm

inductive SizeExpression where
  | sum (terms : List SizeTerm)
  /-- Four bytes for the count, and the sum of the terms for each entry, bound to the pattern. -/
  | entries (pattern : String) (terms : List SizeTerm)
deriving DecidableEq, Repr

def SizeExpression.text : SizeExpression → String
  | .sum terms => SizeTerm.sumText terms
  | .entries pattern terms =>
    if terms.all (·.fixed?.isSome) then s!"4 + self.0.len() * {SizeTerm.fixedTotal terms}"
    else s!"4 + self.0.iter().map(|{pattern}| {SizeTerm.sumText terms}).sum::<usize>()"

structure CodecBody where
  write : List WriteStatement
  read : List ReadStatement
  size : SizeExpression

namespace CodecBody

/-- Members are written, read and counted in their declared order. -/
def record (fields : List Field) : CodecBody where
  write := fields.map fun f => .value f.strategy f.place
  read := [.giveFields fields]
  size := .sum (fields.map fun f => .ofStrategy f.strategy f.place)

def sequence (typeName : String) (element : Strategy) : CodecBody where
  write := [.count, .each "value" [.value element "*value"]]
  read := [.count typeName, .newList, .repeated [.bind "value" element, .push], .giveList]
  size := .entries "value" [.ofStrategy element "*value"]

def map (typeName duplicate : String) (key value : Strategy) : CodecBody where
  write := [.count, .each "(key, value)" [.value key "*key", .value value "*value"]]
  read := [.count typeName, .newMap,
    .repeated [.bind "key" key, .bind "value" value, .insert duplicate], .giveMap]
  size := .entries "(key, value)" [.ofStrategy key "*key", .ofStrategy value "*value"]

def enumeration (path : String) : CodecBody where
  write := [.value (.enumeration path) "*self"]
  read := [.giveOrdinal]
  size := .sum [.fixed 4]

/-- The implementation of the codec for the type `ident`. A codec that writes nothing marks its
parameters as unused. -/
def step (b : CodecBody) (t : Target) (ident : String) : Step :=
  let unused := if b.write.isEmpty then "_" else ""
  .block s!"impl Xdr for {ident}" [
    .block (s!"fn serialize<W: std::io::Write>(&self, {unused}ser: &mut Serializer<W>) -> " ++
        t.result "()")
      (writeSteps b.write ++ [.line "Ok(())"]),
    .blank,
    .block (s!"fn deserialize({unused}de: &mut Deserializer<'_>) -> " ++ t.result "Self")
      (readSteps b.read),
    .blank,
    .block "fn size(&self) -> usize" [.line b.size.text]]

end CodecBody
end WireSchema.Source
