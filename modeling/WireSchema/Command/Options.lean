import WireSchema.Command.Numeral
import WireSchema.Config
import WireSchema.Text.Split

/-!
# Command lines

Arguments are read from left to right. The first one that cannot be read refuses the command line,
and a question for help or for the version is answered at once. An option takes its value from
behind an equals sign, from the rest of a short argument, or from the next argument.
-/
namespace WireSchema.Command

inductive Action where
  /-- Nothing is written. -/
  | check
  | write (directory : String)
deriving DecidableEq, Repr

structure Options where
  input : String
  action : Action
  config? : Option String
  rootPath? : Option String
  runtimeCrate? : Option String
  maxElements? : Option UInt32
  baseProgram? : Option UInt32
  rejectMaps : Bool
deriving DecidableEq, Repr

/-- The settings that the options leave of the given ones. -/
def Options.adjust (o : Options) (c : Config) : Config :=
  { c with
    rootPath := o.rootPath?.getD c.rootPath
    runtimeCrate := o.runtimeCrate?.getD c.runtimeCrate
    maxElements := o.maxElements?.getD c.maxElements
    baseProgram := o.baseProgram?.getD c.baseProgram
    mapPolicy := if o.rejectMaps then .reject else c.mapPolicy }

/-- What a command line asks for. -/
inductive Request where
  | run (o : Options)
  | help
  | version
  | refused
deriving DecidableEq, Repr

inductive Parameter where
  | input
  | output
  | config
  | rootPath
  | runtimeCrate
  | maxElements
  | baseProgram
deriving DecidableEq, Repr

inductive Switch where
  | rejectMaps
  | check
  | help
  | version
deriving DecidableEq, Repr

inductive OptionName where
  | parameter (p : Parameter)
  | switch (s : Switch)
deriving DecidableEq, Repr

def longNames : List (String × OptionName) := [
  ("input", .parameter .input), ("output", .parameter .output), ("config", .parameter .config),
  ("root-path", .parameter .rootPath), ("runtime-crate", .parameter .runtimeCrate),
  ("max-array-elems", .parameter .maxElements), ("base-program", .parameter .baseProgram),
  ("reject-maps", .switch .rejectMaps), ("check", .switch .check),
  ("help", .switch .help), ("version", .switch .version)]

def shortNames : List (Char × OptionName) := [
  ('i', .parameter .input), ('o', .parameter .output), ('c', .parameter .config),
  ('h', .switch .help), ('V', .switch .version)]

/-- An argument: an option with the value that is attached to it, or the end of the options. -/
inductive Argument where
  | option (name : OptionName) (value? : Option String)
  | endOfOptions
deriving DecidableEq, Repr

/-- Reads an argument. A short switch answers at once, so that what follows it does not matter. -/
def Argument.ofText? (text : String) : Option Argument :=
  match text.toList with
  | ['-', '-'] => some .endOfOptions
  | '-' :: '-' :: cs => do
    let name ← longNames.lookup (String.ofList (cs.takeWhile (· ≠ '=')))
    return .option name ((cs.dropWhile (· ≠ '=')).tail?.map String.ofList)
  | '-' :: c :: cs => do
    let name ← shortNames.lookup c
    return .option name
      (match name, cs with
      | .switch _, _ => none
      | .parameter _, [] => none
      | .parameter _, '=' :: value => some (String.ofList value)
      | .parameter _, value => some (String.ofList value))
  | _ => none

/-- Whether an argument can be the value of the option before it. -/
def standsAsValue (text : String) : Bool := text.toList.head? ≠ some '-' || text = "-"

/-- The options read so far. -/
structure Draft where
  input? : Option String := none
  output? : Option String := none
  config? : Option String := none
  rootPath? : Option String := none
  runtimeCrate? : Option String := none
  maxElements? : Option UInt32 := none
  baseProgram? : Option UInt32 := none
  rejectMaps : Bool := false
  check : Bool := false
deriving DecidableEq, Repr

def once? {α : Type} (given : Option α) (value : Option α) : Option (Option α) :=
  if given.isSome then none else value.map some

def location? (text : String) : Option String := if text.isEmpty then none else some text

namespace Draft

variable (d : Draft)

/-- Adds the value of an option. No option is given twice. -/
def set? (value : String) : Parameter → Option Draft
  | .input => return { d with input? := ← once? d.input? (location? value) }
  | .output => return { d with output? := ← once? d.output? (location? value) }
  | .config => return { d with config? := ← once? d.config? (location? value) }
  | .rootPath => return { d with rootPath? := ← once? d.rootPath? (some value) }
  | .runtimeCrate => return { d with runtimeCrate? := ← once? d.runtimeCrate? (some value) }
  | .maxElements => return { d with maxElements? := ← once? d.maxElements? (decimal? value) }
  | .baseProgram => return { d with baseProgram? := ← once? d.baseProgram? (program? value) }

/-- What is asked for once all arguments are read. There is an input, and an output unless the input
is only checked. -/
def finish : Request :=
  let action? := if d.check then some .check else d.output?.map .write
  match d.input?, action? with
  | some input, some action => .run {
      input, action
      config? := d.config?
      rootPath? := d.rootPath?
      runtimeCrate? := d.runtimeCrate?
      maxElements? := d.maxElements?
      baseProgram? := d.baseProgram?
      rejectMaps := d.rejectMaps }
  | _, _ => .refused

end Draft

/-- Reads the arguments after those of the draft. -/
def readArguments (d : Draft) : List String → Request
  | [] => d.finish
  | text :: rest =>
    match Argument.ofText? text with
    | none => .refused
    | some .endOfOptions => if rest.isEmpty then d.finish else .refused
    | some (.option (.switch _) (some _)) => .refused
    | some (.option (.switch .help) none) => .help
    | some (.option (.switch .version) none) => .version
    | some (.option (.switch .check) none) =>
      if d.check then .refused else readArguments { d with check := true } rest
    | some (.option (.switch .rejectMaps) none) =>
      if d.rejectMaps then .refused else readArguments { d with rejectMaps := true } rest
    | some (.option (.parameter p) (some value)) =>
      match d.set? value p with
      | some d => readArguments d rest
      | none => .refused
    | some (.option (.parameter p) none) =>
      match rest with
      | [] => .refused
      | value :: rest =>
        if standsAsValue value then
          match d.set? value p with
          | some d => readArguments d rest
          | none => .refused
        else .refused

def Request.ofArguments (arguments : List String) : Request := readArguments {} arguments

end WireSchema.Command
