import WireSchema.Files.Tree

/-!
# Where files are kept

A store offers what is needed to read files and to write them below a directory. A tree of files is
a store, and so is the disk: what is done to one is done to the other.
-/
namespace WireSchema.Files

structure FileStore (m : Type → Type) where
  /-- The text of the file at a location. -/
  read : Location → ExceptT FileError m String
  isDirectory : Location → m Bool
  /-- Creates a directory in a directory that exists. -/
  makeDirectory : Location → ExceptT FileError m Unit
  /-- Creates the file at a location, or replaces its text. -/
  writeFile : Location → String → ExceptT FileError m Unit

namespace FileStore

variable {m : Type → Type} [Monad m] (store : FileStore m)

/-- Accepts a failure to create a directory that is there. -/
def acceptDirectory (l : Location) (e : FileError) : ExceptT FileError m Unit := do
  if !(← store.isDirectory l) then throw e

/-- Creates the directory that is written with the pieces, last one first, and before it the
directories on the way if they are missing. -/
def makeDirectories : List String → ExceptT FileError m Unit
  | [] => pure ()
  | piece :: outer => do
    if isStep piece then
      let l : Location := ⟨(piece :: outer).reverse⟩
      tryCatch (store.makeDirectory l) fun e => do
        if e = .notFound then
          makeDirectories outer
          tryCatch (store.makeDirectory l) (store.acceptDirectory l)
        else store.acceptDirectory l e
    else makeDirectories outer

/-- Writes a file below a directory and creates the directories on the way. -/
def writeBelow (directory : Location) (path : List String) (text : String) :
    ExceptT FileError m Unit := do
  let l := directory.join path
  store.makeDirectories l.pieces.reverse.tail
  store.writeFile l text

end FileStore

def FileTree.store : FileStore (StateM FileTree) where
  read := FileAction.read
  isDirectory l := do return (← get).isDirectory l
  makeDirectory := FileAction.makeDirectory
  writeFile := FileAction.writeFile

end WireSchema.Files
