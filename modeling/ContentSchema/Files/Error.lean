/-!
# File errors

Why the file system refuses an operation, with the texts of the operating system.
-/

namespace ContentSchema

/-- Why a file operation failed. -/
inductive FileError where
  /-- Nothing stands at the path. -/
  | notFound
  | permissionDenied
  /-- Something stands where a new file or directory was to be made. -/
  | alreadyExists
  /-- Something other than a directory stands inside the path. -/
  | notDirectory
  /-- A directory stands where a file is needed. -/
  | isDirectory
  | nameTooLong
  | tooManyLinks
  /-- A path may not hold the character zero. -/
  | zeroInPath
  /-- The bytes of a file are no text. -/
  | notText
  /-- Another reason, in the words of the system. -/
  | other (message : String)
deriving DecidableEq, Repr

/-- The text of a file error. -/
def FileError.message : FileError → String
  | .notFound => "No such file or directory (os error 2)"
  | .permissionDenied => "Permission denied (os error 13)"
  | .alreadyExists => "File exists (os error 17)"
  | .notDirectory => "Not a directory (os error 20)"
  | .isDirectory => "Is a directory (os error 21)"
  | .nameTooLong => "File name too long (os error 36)"
  | .tooManyLinks => "Too many levels of symbolic links (os error 40)"
  | .zeroInPath => "file name contained an unexpected NUL byte"
  | .notText => "stream did not contain valid UTF-8"
  | .other message => message

end ContentSchema
