import WireSchema.Command.Options
import WireSchema.Document.Json
import WireSchema.Files.Store
import WireSchema.Source.Tree

/-!
# Running a command

A run reads the settings and the document, emits the source, and only then writes. Whatever goes
wrong before that leaves the files as they were.
-/
namespace WireSchema.Command

open Files Source

inductive Failure where
  | configUnreadable (location : String) (e : FileError)
  | configInvalid (location : String)
  | documentUnreadable (location : String) (e : FileError)
  | documentInvalid (location : String)
  | rejected (e : SchemaError)
  | unwritable (directory : String) (e : FileError)
deriving DecidableEq, Repr

def Failure.message : Failure → String
  | .configUnreadable location e => s!"cannot read config {location}: {e.message}"
  | .configInvalid location => s!"invalid config {location}"
  | .documentUnreadable location e => s!"cannot read {location}: {e.message}"
  | .documentInvalid location => s!"invalid IDL document {location}"
  | .rejected e => s!"generation failed: {e.message}"
  | .unwritable directory e => s!"cannot write to {directory}: {e.message}"

variable {m : Type → Type} [Monad m]

/-- Writes files below a directory one after the other, up to the first that cannot be written, and
gives their number. -/
def writeFiles (store : FileStore m) (directory : String) (files : List SourceFile) :
    ExceptT FileError m Nat := do
  files.forM fun f => store.writeBelow (.ofText directory) f.path f.text
  return files.length

namespace Options

variable (store : FileStore m) (o : Options)

/-- The settings of a run: those of the file that is named, adjusted by the options. -/
def loadConfig : ExceptT Failure m Config := do
  match o.config? with
  | none => return o.adjust {}
  | some location =>
    let text ← (store.read (.ofText location)).adapt (.configUnreadable location)
    match Config.parse? text with
    | some c => return o.adjust c
    | none => throw (.configInvalid location)

def loadDocument : ExceptT Failure m Document := do
  let text ← (store.read (.ofText o.input)).adapt (.documentUnreadable o.input)
  match Document.parse? text with
  | some d => return d
  | none => throw (.documentInvalid o.input)

/-- The source that a run emits. -/
def emit : ExceptT Failure m (List SourceFile) := do
  let config ← o.loadConfig store
  let d ← o.loadDocument store
  match compile config d with
  | .ok files => return files
  | .error e => throw (.rejected e)

def run : ExceptT Failure m Unit := do
  let files ← o.emit store
  match o.action with
  | .check => return
  | .write directory =>
    let _ ← (writeFiles store directory files).adapt (.unwritable directory)

end Options

inductive Ending where
  | help
  | version
  | refused
  | done
  | failed (e : Failure)
deriving DecidableEq, Repr

/-- The number that a command leaves behind: zero, one if its run failed, and two if the command
line is refused. -/
def Ending.code : Ending → UInt32
  | .help | .version | .done => 0
  | .failed _ => 1
  | .refused => 2

def Ending.ofRun : Except Failure Unit → Ending
  | .ok () => .done
  | .error e => .failed e

/-- Does what a command line asks for. Only a run looks at the files. -/
def perform (store : FileStore m) (arguments : List String) : m Ending :=
  match Request.ofArguments arguments with
  | .help => return .help
  | .version => return .version
  | .refused => return .refused
  | .run o => return .ofRun (← (o.run store).run)

end WireSchema.Command
