import WireSchema.Source.Page
import WireSchema.Source.Strategy

/-!
# Emitted files

A file has a place in the emitted tree, the declaration it stands for, and its text as a tree of
steps. Every file starts with a header that names the declaration.
-/
namespace WireSchema.Source

inductive FileKind where
  | record
  | exception
  | request
  | response
  | sequence
  | map
  | enumeration
  | constants
  | interface
  | module
deriving DecidableEq, Repr

structure SourceFile where
  /-- Directories from the root of the emitted tree, then the name of the file. -/
  path : List String
  kind : FileKind
  name : QualifiedName
  steps : List Step

namespace SourceFile

variable (f : SourceFile)

def text : String := render f.steps

def pathText : String := "/".intercalate f.path

end SourceFile

def braced (inner : String) : String := "\x7b " ++ inner ++ " \x7d"

def header (name : QualifiedName) : List Step :=
  let source := if name.segments.isEmpty then "" else s!" from `{name.text}`"
  [.line s!"// Generated by xdr-idlc{source}. Do not edit.",
    .line "#![allow(unused_imports, unused_variables, clippy::all)]",
    .blank]

namespace Target

variable (t : Target)

/-- The path of an item of the crate with the wire functions. -/
def runtime (item : String) : String := t.config.runtimeCrate ++ "::" ++ item

def result (type : String) : String := t.runtime s!"Result<{type}>"

def errorType : Step := .line ("type Error = " ++ t.runtime "Error;")

/-- The header of a file with codecs, which brings the wire functions into scope. -/
def codecHeader (name : QualifiedName) : List Step :=
  let items := "\x7bDeserializer, Serializer, Xdr, opaque_size, string_size\x7d"
  header name ++ [.line s!"use {t.runtime items};", .blank]

end Target

/-- The lines that declare a module of constants and bring them all into scope. -/
def constantsModule : List Step :=
  [.line "pub mod constants;", .line "pub use constants::*;", .blank]

def moduleLine (module : String) : Step := .line s!"pub mod {module};"

def useLine (module type : String) : Step := .line s!"pub use {module}::{type};"

end WireSchema.Source
