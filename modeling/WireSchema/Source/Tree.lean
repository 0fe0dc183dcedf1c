import WireSchema.Schema.Build
import WireSchema.Source.Enumeration
import WireSchema.Source.Container
import WireSchema.Source.Interface
import WireSchema.Source.Record

/-!
# The emitted tree

The tree of files follows the tree of modules. A module is a directory with a file for each of its
types, a directory for each of its interfaces, and a file that declares them all. Two declarations
of one directory whose spellings agree are an error, and an error anywhere leaves no files at all.
-/
namespace WireSchema.Source

open Identifier Schema

/-- The name of the file that declares the contents of a directory. -/
def indexFile : String := "mod.rs"

/-- Stems that a directory uses for itself. -/
def reservedStems (constants : List Constant) : List String :=
  if constants.isEmpty then ["mod"] else ["mod", "constants"]

/-- The files of one directory that stand for types, and the spellings they have taken. -/
structure Folder where
  name : QualifiedName
  stems : Namespace
  types : Namespace
  files : List SourceFile

namespace Folder

variable (f : Folder)

def add (kind : FileKind) (name : QualifiedName) (steps : List Step) :
    Except SchemaError Folder := do
  let stems ← f.stems.claim (stem name.name) name.name
  let types ← f.types.claim (camel name.name) name.name
  let file := ⟨directory f.name ++ [stem name.name ++ ".rs"], kind, name, steps⟩
  return { f with stems, types, files := f.files ++ [file] }

def addRecord (t : Target) (kind : FileKind) (r : RecordType) (response? : Option RecordType) :
    Except SchemaError Folder := do
  f.add kind r.name (← t.recordSteps r response?)

/-- Adds the file of a type of the schema. Primitive types and types that are only declared have
none. -/
def addType (t : Target) (id : TypeId) : Except SchemaError Folder :=
  match t.schema.type id with
  | .record r => f.addRecord t (if r.kind = .exception then .exception else .record) r none
  | .sequence q => do f.add .sequence q.name (← t.sequenceSteps q)
  | .map m => do
    let _ ← t.strategy id
    f.add .map m.name (← t.mapSteps m)
  | .enumeration e => do f.add .enumeration e.name (← t.enumerationSteps e)
  | _ => .ok f

/-- Adds the requests and responses of operations, whose own spellings are claimed as well. -/
def addOperations (t : Target) (f : Folder) (taken : Namespace) :
    List Operation → Except SchemaError Folder
  | [] => .ok f
  | op :: operations => do
    let taken ← taken.claim (camel op.name.name) op.name.name
    let f ← f.addRecord t .request op.request op.response?
    let f ← match op.response? with
      | some r => f.addRecord t .response r none
      | none => .ok f
    addOperations t f taken operations

def children : List Child := f.files.map fun file => ⟨snake file.name.name, camel file.name.name⟩

end Folder

namespace Target

variable (t : Target)

def constantFiles (scope : QualifiedName) (constants : List Constant) :
    Except SchemaError (List SourceFile) :=
  if constants.isEmpty then .ok []
  else do
    let steps ← t.constantsSteps scope constants
    return [⟨directory scope ++ ["constants.rs"], .constants, scope, steps⟩]

/-- The files of an interface: its messages and exceptions, its constants, and the interface itself.
-/
def interfaceFiles (i : Interface) : Except SchemaError (List SourceFile) := do
  let enumerations := [(t.requests i).ident, (t.responses i).ident, (t.exceptions i).ident]
  let folder : Folder :=
    ⟨i.name, .reserving i.name (reservedStems i.constants), .reserving i.name enumerations, []⟩
  let folder ← folder.addOperations t (.fresh i.name) i.operations
  let folder ← (t.exceptionRecords i).foldlM (fun f r => f.addRecord t .exception r none) folder
  let constants ← t.constantFiles i.name i.constants
  let index := ⟨directory i.name ++ [indexFile], .interface, i.name,
    t.interfaceSteps i folder.children⟩
  return folder.files ++ constants ++ [index]

/-- The files of interfaces, each of which claims its directory. -/
def interfacesFiles (taken : Namespace) : List Interface → Except SchemaError (List SourceFile)
  | [] => .ok []
  | i :: interfaces => do
    let taken ← taken.claim (stem i.name.name) i.name.name
    let files ← t.interfaceFiles i
    return files ++ (← interfacesFiles taken interfaces)

/-- The text of a module's file, which declares all that is in its directory. -/
def moduleSteps (m : Module) (types : List Child) : List Step :=
  header m.name ++
    (if m.constants.isEmpty then [] else constantsModule) ++
    m.modules.map (fun child => moduleLine (snake child.name.name)) ++ [.blank] ++
    types.flatMap Child.lines ++ [.blank] ++
    m.interfaces.map fun i => moduleLine (snake i.name.name)

mutual

/-- The files of a module: its constants, the modules in it, its types, its interfaces, and the
module itself. -/
def moduleFiles : Module → Except SchemaError (List SourceFile)
  | ⟨name, modules, types, interfaces, constants⟩ => do
    let constantFiles ← t.constantFiles name constants
    let (stems, inner) ← modulesFiles (.reserving name (reservedStems constants)) modules
    let folder : Folder := ⟨name, stems, .fresh name, []⟩
    let folder ← types.foldlM (fun f id => f.addType t id) folder
    let interfaceFiles ← t.interfacesFiles folder.stems interfaces
    let index := ⟨directory name ++ [indexFile], .module, name,
      moduleSteps ⟨name, modules, types, interfaces, constants⟩ folder.children⟩
    return constantFiles ++ inner ++ folder.files ++ interfaceFiles ++ [index]

/-- The files of modules, each of which claims its directory. -/
def modulesFiles (taken : Namespace) :
    List Module → Except SchemaError (Namespace × List SourceFile)
  | [] => .ok (taken, [])
  | m :: modules => do
    let taken ← taken.claim (stem m.name.name) m.name.name
    let files ← moduleFiles m
    let (taken, rest) ← modulesFiles taken modules
    return (taken, files ++ rest)

end

def rootSteps (modules : List Module) : List Step :=
  header .root ++ modules.map fun m => moduleLine (snake m.name.name)

/-- All files of the tree, that of the root last. -/
def files : Except SchemaError (List SourceFile) := do
  let (_, files) ← t.modulesFiles (.reserving .root ["mod"]) t.schema.modules
  return files ++ [⟨[indexFile], .module, .root, rootSteps t.schema.modules⟩]

end Target

def compile (config : Config) (d : Document) : Except SchemaError (List SourceFile) := do
  Target.files ⟨← Schema.build d, config⟩

end WireSchema.Source
