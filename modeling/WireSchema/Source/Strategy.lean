import WireSchema.Binary.Layout
import WireSchema.Config
import WireSchema.Identifier.Path
import WireSchema.Schema.Basic
import WireSchema.Schema.Error
import WireSchema.Text.Quoted

/-!
# Coding strategies

How emitted code writes, reads and measures a value of one type. Primitive types and enumerations
have strategies of their own; every other type is left to the code that is emitted for it. Emitted
code finds the writer under `ser` and the reader under `de`.
-/
namespace WireSchema.Source

open Binary

inductive Strategy where
  | bool
  | numeric (n : Numeric)
  | text
  | blob
  | enumeration (path : String)
  | compound (path : String)
deriving DecidableEq, Repr

namespace Strategy

/-- The statement that writes the value at `place`. -/
def writeStatement (place : String) : Strategy → String
  | .bool => s!"ser.write_bool({place})?;"
  | .numeric n => s!"ser.write_{n.keyword}({place})?;"
  | .text => s!"ser.write_string(&{place})?;"
  | .blob => s!"ser.write_opaque(&{place})?;"
  | .enumeration _ => s!"ser.write_enum(i32::from({place}))?;"
  | .compound _ => s!"Xdr::serialize(&{place}, ser)?;"

def readExpression : Strategy → String
  | .bool => "de.read_bool()?"
  | .numeric n => s!"de.read_{n.keyword}()?"
  | .text => "de.read_string()?"
  | .blob => "de.read_opaque()?"
  | .enumeration path => s!"{path}::try_from(de.read_enum()?)?"
  | .compound path => s!"<{path} as Xdr>::deserialize(de)?"

variable (s : Strategy)

def bindStatement (ident : String) : String := s!"let {ident} = {s.readExpression};"

/-- The size that all values share, if they share one. -/
def fixedSize? : Option Nat :=
  match s with
  | .bool => some 4
  | .enumeration _ => some 4
  | .numeric n => some n.width
  | .text => none
  | .blob => none
  | .compound _ => none

def sizeExpression (place : String) : String :=
  match s with
  | .bool => "4"
  | .enumeration _ => "4"
  | .numeric n => toString n.width
  | .text => s!"string_size(&{place})"
  | .blob => s!"opaque_size(&{place})"
  | .compound _ => s!"Xdr::size(&{place})"

/-- The Rust type that holds a value. -/
def typeText : String :=
  match s with
  | .bool => "bool"
  | .numeric n => n.keyword
  | .text => "String"
  | .blob => "Vec<u8>"
  | .enumeration path => path
  | .compound path => path

/-- The Rust type of a constant, where constants are allowed. -/
def constantType? : Option String :=
  match s with
  | .bool => some "bool"
  | .numeric n => some n.keyword
  | .text => some "&str"
  | _ => none

/-- The literal of a constant. Integers of floating-point type are written as doubles. -/
def constantText? (value : Literal) : Option String :=
  match s, value with
  | .bool, .bool b => some (if b then "true" else "false")
  | .numeric n, .integer v =>
    some (if n.isFloat then literalLayout.text (.ofInt v.toInt) else toString v.toInt)
  | .numeric n, .natural v =>
    some (if n.isFloat then literalLayout.text (.ofInt v.toNat) else toString v.toNat)
  | .numeric n, .float x => if n.isFloat then some (literalLayout.text x) else none
  | .text, .text t => some (Text.quoted t)
  | _, _ => none

end Strategy

/-- A schema and the settings under which its source is emitted. -/
structure Target where
  schema : Schema
  config : Config

namespace Target

variable (t : Target)

/-- The path under which emitted code reaches a type. -/
def path (name : QualifiedName) : String := Identifier.typePath t.config.rootPath name

/-- The strategy of a type. Maps have one only if the settings admit them. -/
def strategy (id : TypeId) : Except SchemaError Strategy :=
  match t.schema.type id with
  | .bool => .ok .bool
  | .numeric n => .ok (.numeric n)
  | .text _ => .ok .text
  | .blob => .ok .blob
  | .enumeration e => .ok (.enumeration (t.path e.name))
  | .record r => .ok (.compound (t.path r.name))
  | .sequence q => .ok (.compound (t.path q.name))
  | .map m =>
    match t.config.mapPolicy with
    | .codec => .ok (.compound (t.path m.name))
    | .reject => .error (.unsupportedMap m.name.text)
  | .forward name => .ok (.compound (t.path name))

end Target
end WireSchema.Source
