import WireSchema.Json.Reader
import WireSchema.Json.Record
import WireSchema.Name

/-!
# Generator settings

Settings are handed to every step that depends on them, so that several targets can be generated
side by side. Each one has a default and may be left out.
-/
namespace WireSchema

open Json

inductive MapPolicy where
  /-- Maps are coded as a count and interleaved pairs. -/
  | codec
  /-- A map is an error. -/
  | reject
deriving DecidableEq, Repr, Inhabited

namespace MapPolicy

def text : MapPolicy → String
  | .codec => "codec"
  | .reject => "reject"

def ofText? : String → Option MapPolicy
  | "codec" => some .codec
  | "reject" => some .reject
  | _ => none

/-- A policy is its name, or an object with the name as its only key and nothing under it. -/
def ofJson? : Json → Option MapPolicy
  | .str s => ofText? s
  | .obj [(s, .null)] => ofText? s
  | _ => none

end MapPolicy

structure Config where
  /-- Greatest number of elements of a sequence and of pairs of a map. -/
  maxElements : UInt32 := 65536
  /-- An interface's program number is this plus its own number. -/
  baseProgram : UInt32 := 0x20000000
  /-- Path under which the emitted tree is mounted. -/
  rootPath : String := "crate"
  /-- Crate with the wire functions that emitted code calls. -/
  runtimeCrate : String := "xdr_idl"
  mapPolicy : MapPolicy := .codec
  /-- Separator in the names under which exceptions travel. -/
  nameSeparator : String := "::"
deriving DecidableEq, Repr

namespace Config

instance : Inhabited Config := ⟨{}⟩

def fieldNames : List String :=
  ["max_array_elems", "base_program", "root_path", "runtime_crate", "map_policy", "name_separator"]

def ofJson? (j : Json) : Option Config := do
  let r ← j.record? fieldNames
  let default : Config := {}
  return {
    maxElements := ← r.optional "max_array_elems" default.maxElements uint32?
    baseProgram := ← r.optional "base_program" default.baseProgram uint32?
    rootPath := ← r.optional "root_path" default.rootPath text?
    runtimeCrate := ← r.optional "runtime_crate" default.runtimeCrate text?
    mapPolicy := ← r.optional "map_policy" default.mapPolicy MapPolicy.ofJson?
    nameSeparator := ← r.optional "name_separator" default.nameSeparator text? }

def parse? (text : String) : Option Config := do
  ofJson? (← Json.read? nestingLimit text)

variable (c : Config)

/-- Program numbers are words: the sum wraps around. -/
def programNumber (uid : UInt32) : UInt32 := c.baseProgram + uid

/-- The name under which an exception travels. -/
def wireName (q : QualifiedName) : String := q.joined c.nameSeparator

end Config
end WireSchema
