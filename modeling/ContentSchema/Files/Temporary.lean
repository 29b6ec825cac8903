import ContentSchema.Files.System
/-!
# Temporary files

A program that needs a file for a time leaves it to a library to find a free name for it and to remove
it again. `TemporaryFiles` are the operations of such a library. A file is removed when it is closed,
and also when it is given up, on the way out of a step that failed; that one goes without an answer.

Which names a library chooses is its own affair. On any file system there is the library that numbers
its files, which is what programs run with.
-/

namespace ContentSchema

/-- The operations of a library of temporary files; an error comes as its text. -/
class TemporaryFiles (m : Type → Type) where
  /-- Makes an empty file in a directory, under a new name with a given start and end, and gives its
  path. -/
  create (directory lead trail : String) : m (Except String String)
  /-- Writes to the file at a path. -/
  write (path : String) (content : ByteArray) : m (Except String Unit)
  /-- Sees to it that what was written is in the file. -/
  flush (path : String) : m (Except String Unit)
  /-- Closes and removes the file at a path. -/
  close (path : String) : m (Except String Unit)
  /-- Gives up the file at a path, which removes it. -/
  giveUp (path : String) : m Unit

/-- The text of a file error with the path that it is about. -/
def FileError.messageAt (error : FileError) (path : String) : String :=
  error.message ++ " at path \"" ++ path ++ "\""

namespace TemporaryFiles

variable {m : Type → Type} [Monad m]

/-- Writes all of the content of a file. -/
def fill [TemporaryFiles m] (path : String) (content : ByteArray) : m (Except String Unit) := do
  match ← write path content with
  | .error message => return .error message
  | .ok () => flush path

/-- How many numbers are tried for a file. -/
def maxNumbers : Nat := 65536

variable [FileSystem m]

/-- Makes an empty file under the first free number from `next` on; at most `attempts` are tried. -/
def createNumbered (directory lead trail : String) (next : Nat) : Nat → m (Except String String)
  | 0 => return .error ((FileError.other "too many temporary files exist").messageAt directory)
  | attempts + 1 => do
    let path := FilePath.join directory (lead ++ toString next ++ trail)
    match ← FileSystem.createFile path .empty with
    | .done => return .ok path
    | .refused .alreadyExists => createNumbered directory lead trail (next + 1) attempts
    | .refused error | .cut error => return .error (error.messageAt path)

/-- Removes a file; an error is told with the path. -/
def remove (path : String) : m (Except String Unit) := do
  match ← FileSystem.removeFile path with
  | .ok () => return .ok ()
  | .error error => return .error (error.messageAt path)

/-- Makes a file that is there anew, with its content. -/
def rewrite (path : String) (content : ByteArray) : m (Except String Unit) := do
  match ← remove path with
  | .error message => return .error message
  | .ok () =>
    match ← FileSystem.createFile path content with
    | .done => return .ok ()
    | .refused error | .cut error => return .error (error.messageAt path)

/-- The library that numbers its files. A file system makes a file with all of its content at once, so
to write to a file is to make it anew. -/
instance (priority := low) numbered : TemporaryFiles m where
  create directory lead trail := createNumbered directory lead trail 0 maxNumbers
  write := rewrite
  flush _ := return .ok ()
  close := remove
  giveUp path := do let _ ← FileSystem.removeFile path

end TemporaryFiles

end ContentSchema
