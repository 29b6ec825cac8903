import ContentSchema.Files.Error
import ContentSchema.Files.Path
import ContentSchema.Keyed
/-!
# File trees

A file tree is a dictionary from canonical paths to what stands there: a file, a directory or a
symbolic link. A path is looked up part by part. A dot stays, two dots go up, a link is replaced by
its target, and each part, an empty one at the end included, needs a directory to stand in. Links are
followed at most `maxLinks` times in one look-up, so that links in a circle end in an error.

`locate` gives the canonical place of a path, as a list of names from the root; the last name of it
may be free, which is where a new file or directory can be made. All operations are `locate` followed
by one look or one change at that place.
-/

namespace ContentSchema

/-- Contents are compared byte by byte; named here so that no other instance takes its place. -/
instance decidableEqByteArray : DecidableEq ByteArray := ByteArray.instDecidableEq

/-- What stands at a place of a file tree. -/
inductive FileNode where
  | file (content : ByteArray) (readable : Bool)
  | directory
  | link (target : String)
deriving DecidableEq

/-- The files of a machine. -/
structure FileTree where
  /-- What stands at each canonical path; the root is a directory and is not listed. -/
  nodes : Keyed FileNode := []
  /-- The place that relative paths start from. -/
  workingDirectory : List String := []
deriving DecidableEq

namespace FileTree

/-- How many links one look-up follows. -/
def maxLinks : Nat := 40

/-- What stands at a place. -/
def nodeAt? (tree : FileTree) (place : List String) : Option FileNode :=
  if place.isEmpty then some .directory else tree.nodes.find? (FilePath.ofComponents place)

/-- Puts something at a place. -/
def put (tree : FileTree) (place : List String) (node : FileNode) : FileTree :=
  { tree with nodes := tree.nodes.insert (FilePath.ofComponents place) node }

/-- Leaves nothing at a place. -/
def clear (tree : FileTree) (place : List String) : FileTree :=
  { tree with nodes := tree.nodes.erase (FilePath.ofComponents place) }

/-- The place reached from `here` along `parts`. A link at the end is followed if `follow` says so. -/
def walk (tree : FileTree) (follow : Bool) (links : Nat) (here : List String) (parts : List String) :
    Except FileError (List String) :=
  match parts with
  | [] => .ok here
  | part :: rest =>
    if tree.nodeAt? here ≠ some .directory then .error .notDirectory
    else if part = "" || part = "." then walk tree follow links here rest
    else if part = ".." then walk tree follow links here.dropLast rest
    else if 255 < part.utf8ByteSize then .error .nameTooLong
    else
      match tree.nodeAt? (here ++ [part]) with
      | none => if rest.isEmpty then .ok (here ++ [part]) else .error .notFound
      | some (.link target) =>
        if rest.isEmpty && !follow then .ok (here ++ [part])
        else
          match links with
          | 0 => .error .tooManyLinks
          | links + 1 =>
            walk tree follow links (if FilePath.isAbsolute target then [] else here)
              (target.splitOn "/" ++ rest)
      | some _ => walk tree follow links (here ++ [part]) rest
termination_by (links, parts.length)

/-- The canonical place of a path, whose last name may be free. -/
def locate (tree : FileTree) (path : String) (follow : Bool) : Except FileError (List String) :=
  if path.contains (Char.ofNat 0) then .error .zeroInPath
  else if path = "" then .error .notFound
  else if 4095 < path.utf8ByteSize then .error .nameTooLong
  else
    tree.walk follow maxLinks (if FilePath.isAbsolute path then [] else tree.workingDirectory)
      (path.splitOn "/")

/-- The place of a path and what stands there, links followed. -/
def find (tree : FileTree) (path : String) : Except FileError (List String × FileNode) := do
  let place ← tree.locate path true
  match tree.nodeAt? place with
  | some node => return (place, node)
  | none => throw .notFound

/-- Whether a path leads to a file. -/
def isFile (tree : FileTree) (path : String) : Bool :=
  match tree.find path with
  | .ok (_, .file ..) => true
  | _ => false

/-- Whether a path leads to a directory. -/
def isDirectory (tree : FileTree) (path : String) : Bool :=
  match tree.find path with
  | .ok (_, .directory) => true
  | _ => false

/-- The canonical path of what a path leads to. -/
def canonicalPath (tree : FileTree) (path : String) : Except FileError String :=
  (tree.find path).map fun found ↦ FilePath.ofComponents found.1

/-- Whether a file or directory can be opened for reading. -/
def probe (tree : FileTree) (path : String) : Except FileError Unit := do
  match ← tree.find path with
  | (_, .file _ false) => throw .permissionDenied
  | _ => return ()

/-- The bytes of a file. -/
def readBytes (tree : FileTree) (path : String) : Except FileError ByteArray := do
  match ← tree.find path with
  | (_, .file content true) => return content
  | (_, .file _ false) => throw .permissionDenied
  | _ => throw .isDirectory

/-- Makes something at a free place. -/
def make (tree : FileTree) (path : String) (node : FileNode) : Except FileError FileTree := do
  let place ← tree.locate path false
  match tree.nodeAt? place with
  | some _ => throw .alreadyExists
  | none => return tree.put place node

/-- A path without the slashes at its end, unless it is made of slashes only. -/
def withoutFinalSlashes (path : String) : String :=
  let kept := (path.toList.reverse.dropWhile (· = '/')).reverse
  if kept.isEmpty then path else String.ofList kept

/-- Makes a directory; the one it is in must be there. -/
def makeDirectory (tree : FileTree) (path : String) : Except FileError FileTree :=
  tree.make (withoutFinalSlashes path) .directory

/-- Makes a file where nothing stands. -/
def createFile (tree : FileTree) (path : String) (content : ByteArray) : Except FileError FileTree :=
  tree.make path (.file content true)

/-- Writes a file, whether it is there or not. -/
def writeFile (tree : FileTree) (path : String) (content : ByteArray) : Except FileError FileTree := do
  let place ← tree.locate path true
  match tree.nodeAt? place with
  | some .directory => throw .isDirectory
  | _ => return tree.put place (.file content true)

/-- Removes a file or a link. -/
def removeFile (tree : FileTree) (path : String) : Except FileError FileTree := do
  let place ← tree.locate path false
  match tree.nodeAt? place with
  | some .directory => throw .isDirectory
  | some _ => return tree.clear place
  | none => throw .notFound

end FileTree

end ContentSchema
