/-!
# File paths

Paths are texts whose parts are separated by slashes, and everything here works on the text alone.
Joining puts an absolute part in the place of what stands before it, and no second slash after one.
What a path is in drops its last part, together with the empty parts and dots before it.
-/

namespace ContentSchema.FilePath

/-- Whether a path starts at the root of the file system. -/
def isAbsolute (path : String) : Bool := path.toList.head? == some '/'

/-- A path below another one. -/
def join (base part : String) : String :=
  if isAbsolute part then part
  else if base.isEmpty || base.toList.getLast? == some '/' then base ++ part
  else base ++ "/" ++ part

/-- The absolute path of a list of parts. -/
def ofComponents (parts : List String) : String := "/" ++ String.intercalate "/" parts

/-- Drops what says nothing from the end of a path, given by its parts with the last one first: empty
parts and dots. A dot alone is a path of its own. -/
def dropVoid : List String → List String
  | [] => []
  | part :: outer =>
    if part = "" || (part = "." && !outer.isEmpty) then dropVoid outer else part :: outer

/-- The path of a list of parts with the last one first; what is left of an absolute path without
parts is the root. -/
def ofReversed (absolute : Bool) (parts : List String) : String :=
  if parts.isEmpty then (if absolute then "/" else "") else String.intercalate "/" parts.reverse

/-- The parts of a path with the last one first, without what says nothing at the end. -/
def reversedParts (path : String) : List String := dropVoid (path.splitOn "/").reverse

/-- The path of what a path is in; the root and the empty path are in nothing. -/
def parent? (path : String) : Option String :=
  match reversedParts path with
  | [] => none
  | _ :: outer => some (ofReversed (isAbsolute path) (dropVoid outer))

/-- The paths of all that a list of parts, the last one first, is in, itself included, up to and not
including the root. -/
def outwards : List String → List String
  | [] => []
  | part :: outer =>
    if part = "" || (part = "." && !outer.isEmpty) then outwards outer
    else String.intercalate "/" (part :: outer).reverse :: outwards outer

/-- A path and all that it is in, up to and not including the root. -/
def ancestors (path : String) : List String :=
  match reversedParts path with
  | [] => []
  | _ :: outer => path :: outwards outer

end ContentSchema.FilePath
