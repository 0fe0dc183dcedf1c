import WireSchema.Files.Location

/-!
# Trees of files

A tree maps places, which are lists of names from the root, to texts and directories. Operations
fail for the reasons for which a file system fails, and whatever they changed before they failed
stays changed.
-/
namespace WireSchema.Files

inductive FileError where
  | notFound
  | alreadyExists
  | notDirectory
  | isDirectory
  | nameTooLong
  /-- A failure of the system that has no place in a tree of files. -/
  | system (reason : String)
deriving DecidableEq, Repr

/-- The wording of the system, with its number of the failure. -/
def FileError.message : FileError → String
  | .notFound => "No such file or directory (os error 2)"
  | .alreadyExists => "File exists (os error 17)"
  | .notDirectory => "Not a directory (os error 20)"
  | .isDirectory => "Is a directory (os error 21)"
  | .nameTooLong => "File name too long (os error 36)"
  | .system reason => reason

inductive Entry where
  | directory
  | file (text : String)
deriving DecidableEq, Repr

structure FileTree where
  entries : List (List String × Entry)
  /-- Where locations that are not absolute start. -/
  workingDirectory : List String
deriving DecidableEq, Repr

/-- Greatest number of bytes of a name. -/
def maxName : Nat := 255

/-- Greatest number of bytes of a location as it is written. -/
def maxLocation : Nat := 4095

namespace FileTree

variable (t : FileTree)

/-- What is at a place. The root is always a directory. -/
def find? (place : List String) : Option Entry :=
  if place = [] then some .directory else t.entries.lookup place

def put (place : List String) (e : Entry) : FileTree :=
  { t with entries := (place, e) :: t.entries.filter (·.1 ≠ place) }

theorem find?_put_self {place : List String} (e : Entry) (h : place ≠ []) :
    (t.put place e).find? place = some e := by
  simp [find?, put, h]

theorem find?_put_of_ne {place other : List String} (e : Entry) (h : other ≠ place) :
    (t.put place e).find? other = t.find? other := by
  have kept : ∀ entries : List (List String × Entry),
      (entries.filter (·.1 ≠ place)).lookup other = entries.lookup other := by
    intro entries
    induction entries with
    | nil => rfl
    | cons p entries ih => by_cases hp : p.1 = place <;> grind
  by_cases root : other = []
  · simp [find?, root]
  · have miss : (other == place) = false := by simpa using h
    simp only [find?, put, if_neg root, List.lookup_cons, miss, kept]

/-- Follows names from an entry at a place. -/
def walk (place : List String) : List String → Except FileError (List String)
  | [] => .ok place
  | name :: names =>
    if t.find? place ≠ some .directory then .error .notDirectory
    else if name = above then walk place.dropLast names
    else if maxName < name.utf8ByteSize then .error .nameTooLong
    else if (t.find? (place ++ [name])).isNone then .error .notFound
    else walk (place ++ [name]) names

/-- Where a location starts. -/
def start (l : Location) : List String := if l.absolute then [] else t.workingDirectory

def resolve (l : Location) : Except FileError (List String) :=
  if maxLocation < l.text.utf8ByteSize then .error .nameTooLong
  else t.walk (t.start l) l.steps

/-- The place that a location names in a directory that exists, whether or not something is there.
-/
def target (l : Location) : Except FileError (List String) :=
  if maxLocation < l.text.utf8ByteSize then .error .nameTooLong
  else
    match l.steps.getLast? with
    | none => .error .alreadyExists
    | some name => do
      if name = above then
        let _ ← t.walk (t.start l) l.steps
        .error .alreadyExists
      else
        let place ← t.walk (t.start l) l.steps.dropLast
        if t.find? place ≠ some .directory then .error .notDirectory
        else if maxName < name.utf8ByteSize then .error .nameTooLong
        else .ok (place ++ [name])

def isDirectory (l : Location) : Bool :=
  match t.resolve l with
  | .ok place => t.find? place = some .directory
  | .error _ => false

/-- The text of the file at a location. -/
def read (l : Location) : Except FileError String := do
  match t.find? (← t.resolve l) with
  | some (.file text) => if l.asDirectory then .error .notDirectory else .ok text
  | some .directory => .error .isDirectory
  | none => .error .notFound

/-- The files below a directory, by the names that lead to them from there. -/
def filesBelow (place : List String) : List (List String × String) :=
  t.entries.filterMap fun (p, e) =>
    match e with
    | .file text =>
      if place.isPrefixOf p ∧ p ≠ place then some (p.drop place.length, text) else none
    | .directory => none

end FileTree

/-- An operation that may change the tree and may fail. -/
abbrev FileAction (ε : Type) := ExceptT ε (StateM FileTree)

namespace FileAction

def read (l : Location) : FileAction FileError String := do
  ofExcept ((← get).read l)

def makeDirectory (l : Location) : FileAction FileError Unit := do
  let t ← get
  let place ← ofExcept (t.target l)
  if (t.find? place).isSome then throw .alreadyExists
  set (t.put place .directory)

/-- Creates the file at a location, or replaces its text. -/
def writeFile (l : Location) (text : String) : FileAction FileError Unit := do
  let t ← get
  let place ← ofExcept (t.target l)
  if t.find? place = some .directory then throw .isDirectory
  set (t.put place (.file text))

end FileAction
end WireSchema.Files
