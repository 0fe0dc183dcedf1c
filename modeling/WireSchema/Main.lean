import WireSchema.Command.Run

/-!
# The command

Runs a command line on the files of the disk.
-/
namespace WireSchema.Command

open Files

/-- A failure of the disk. Some numbers come with the opposite sign. -/
def diskError : IO.Error → FileError
  | .noFileOrDirectory .. => .notFound
  | .alreadyExists .. => .alreadyExists
  | .inappropriateType _ code _ => if code = 21 ∨ code = -21 then .isDirectory else .notDirectory
  | .invalidArgument _ code details =>
    if code = 36 ∨ code = -36 then .nameTooLong else .system s!"{details} (os error {code})"
  | .permissionDenied _ code details => .system s!"{details} (os error {code})"
  | e => .system (toString e)

/-- Runs an operation on the disk and keeps its failure. -/
def onDisk {α : Type} (operation : IO α) : ExceptT FileError IO α :=
  ExceptT.mk do
    try return .ok (← operation)
    catch e => return .error (diskError e)

def disk : FileStore IO where
  read l := do
    let bytes ← onDisk (IO.FS.readBinFile l.text)
    let some text := String.fromUTF8? bytes | throw (.system "stream did not contain valid UTF-8")
    return text
  isDirectory l := do
    try (← IO.FS.realPath l.text).isDir
    catch _ => return false
  makeDirectory l := onDisk (IO.FS.createDir l.text)
  writeFile l text := onDisk (IO.FS.writeFile l.text text)

def usage : String :=
  "Usage: xdr-idlc [OPTIONS] --input <INPUT> --output <OUTPUT>"

def help : String := "\n".intercalate [
  "Generate XDR codecs and ONC RPC dispatch tables from an IDL document",
  "",
  usage,
  "",
  "Options:",
  "  -i, --input <INPUT>                      Parsed IDL document (JSON)",
  "  -o, --output <OUTPUT>                    Directory the generated tree is written to",
  "  -c, --config <CONFIG>                    " ++
    "Generator configuration (JSON); flags below override it",
  "      --root-path <ROOT_PATH>              Rust path the generated tree is mounted under",
  "      --runtime-crate <RUNTIME_CRATE>      Runtime crate name generated code refers to",
  "      --max-array-elems <MAX_ARRAY_ELEMS>",
  "      --base-program <BASE_PROGRAM>",
  "      --reject-maps                        Treat map types as a generation error",
  "      --check                              Validate the document without writing anything",
  "  -h, --help                               Print help",
  "  -V, --version                            Print version"]

/-- What is said to whoever gave the command. -/
def Ending.report : Ending → IO Unit
  | .help => IO.println Command.help
  | .version => IO.println "xdr-idlc 0.1.0"
  | .refused => IO.eprintln usage
  | .done => return
  | .failed e => IO.eprintln s!"error: {e.message}"

end WireSchema.Command

open WireSchema.Command in
def main (arguments : List String) : IO UInt32 := do
  let ending ← perform disk arguments
  ending.report
  return ending.code
