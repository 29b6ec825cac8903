import ContentSchema.Files.Tree
/-!
# File systems

What compiling does to files, as operations of a monad. A program written against `FileSystem` runs on
the files of the machine as well as on a `FileTree`, which is the instance to reason about: there each
operation is the function of the same name, and one that fails leaves the tree as it was.

`createDirectories` is a program of this kind: it makes the directories that are missing on the way to a
path, the outermost first.
-/

namespace ContentSchema

/-- What became of a file that was to be made. -/
inductive Creation where
  /-- No file was made. -/
  | refused (error : FileError)
  /-- The file was made, but not all of its content could be written. -/
  | cut (error : FileError)
  | done
deriving DecidableEq, Repr

/-- What became of a file, if it was made with all of its content or not at all. -/
def Creation.ofExcept : Except FileError Unit → Creation
  | .ok () => .done
  | .error error => .refused error

/-- The file operations of a monad. -/
class FileSystem (m : Type → Type) where
  isFile : String → m Bool
  isDirectory : String → m Bool
  canonicalPath : String → m (Except FileError String)
  probe : String → m (Except FileError Unit)
  readBytes : String → m (Except FileError ByteArray)
  makeDirectory : String → m (Except FileError Unit)
  createFile : String → ByteArray → m Creation
  removeFile : String → m (Except FileError Unit)

/-- A change of a tree that may fail, as an operation on a tree. -/
def FileTree.change (action : FileTree → Except FileError FileTree) :
    StateM FileTree (Except FileError Unit) :=
  fun tree ↦
    match action tree with
    | .ok changed => (.ok (), changed)
    | .error error => (.error error, tree)

instance : FileSystem (StateM FileTree) where
  isFile path := fun tree ↦ (tree.isFile path, tree)
  isDirectory path := fun tree ↦ (tree.isDirectory path, tree)
  canonicalPath path := fun tree ↦ (tree.canonicalPath path, tree)
  probe path := fun tree ↦ (tree.probe path, tree)
  readBytes path := fun tree ↦ (tree.readBytes path, tree)
  makeDirectory path := FileTree.change (·.makeDirectory path)
  createFile path content := Creation.ofExcept <$> FileTree.change (·.createFile path content)
  removeFile path := FileTree.change (·.removeFile path)

namespace FileSystem

variable {m : Type → Type} [Monad m] [FileSystem m]

/-- The text of a file. -/
def readText (path : String) : m (Except FileError String) := do
  match ← readBytes path with
  | .error error => return .error error
  | .ok bytes =>
    match String.fromUTF8? bytes with
    | some text => return .ok text
    | none => return .error .notText

/-- Makes a directory unless it is there. -/
def ensureDirectory (path : String) : m (Except FileError Unit) := do
  match ← makeDirectory path with
  | .error .alreadyExists =>
    if ← isDirectory path then return .ok () else return .error .alreadyExists
  | outcome => return outcome

/-- The paths of a list that have to be made, from the innermost outwards: those before the first one
that is there or can be made, if every one before it failed for want of what it is in. -/
def missingDirectories : List String → m (Except FileError (List String))
  | [] => return .ok []
  | path :: outer => do
    match ← ensureDirectory path with
    | .ok () => return .ok []
    | .error .notFound => return (← missingDirectories outer).map (path :: ·)
    | .error error => return .error error

/-- Makes each directory of a list. -/
def makeAll : List String → m (Except FileError Unit)
  | [] => return .ok ()
  | path :: inner => do
    match ← ensureDirectory path with
    | .ok () => makeAll inner
    | .error error => return .error error

/-- Makes a directory and all that are missing on the way to it. -/
def createDirectories (path : String) : m (Except FileError Unit) := do
  match ← missingDirectories (FilePath.ancestors path) with
  | .error error => return .error error
  | .ok missing => makeAll missing.reverse

end FileSystem

end ContentSchema
