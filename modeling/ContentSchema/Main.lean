import ContentSchema.CommandLine.Run
/-!
# The program

Runs the command line on the files of the machine. Reading and writing files is all that it does on
its own: another program, such as the runtime of the helper scripts, it does not start, and a command
that needs one fails with a message that says so.
-/

open ContentSchema

/-- The cause that an error of the system stands for. -/
def fileErrorOf : IO.Error → FileError
  | .permissionDenied .. => .permissionDenied
  | .alreadyExists .. => .alreadyExists
  | .inappropriateType _ code _ => if code = 21 then .isDirectory else .notDirectory
  | .noFileOrDirectory .. => .notFound
  | error => .other (toString error)

/-- Runs an operation on files and gives its error as a value. -/
def onFiles {α : Type} (action : IO α) : IO (Except FileError α) := do
  try return .ok (← action) catch error => return .error (fileErrorOf error)

instance : FileSystem IO where
  isFile path := do
    match ← onFiles (IO.FS.readBinFile path) with
    | .ok _ => return true
    | .error error => return error = .permissionDenied
  isDirectory path := do
    match ← onFiles (IO.FS.readBinFile path) with
    | .error .isDirectory => return true
    | _ => return false
  canonicalPath path := onFiles (toString <$> IO.FS.realPath path)
  probe path := onFiles (discard (IO.FS.Handle.mk path .read))
  readBytes path := onFiles (IO.FS.readBinFile path)
  makeDirectory path := onFiles (IO.FS.createDir path)
  createFile path content := do
    match ← onFiles (IO.FS.Handle.mk path .writeNew) with
    | .error error => return .refused error
    | .ok handle =>
      match ← onFiles do handle.write content; handle.flush with
      | .error error => return .cut error
      | .ok () => return .done
  removeFile path := onFiles (IO.FS.removeFile path)

instance : ScriptHost IO where
  runScript run := return .error (.runtime (.other ("cannot start " ++ run.runtime ++ " from here")))

/-- Prints the answer to the command line. -/
def main (words : List String) : IO UInt32 := do
  let result ← (CommandLine.read words).answer (pure "")
  IO.print result.stdout
  IO.eprint result.stderr
  return result.exitCode.toUInt32
