import ContentSchema.CompileError
import ContentSchema.Files.System
import ContentSchema.Settings
/-!
# The schema module of a project

Of the candidates in the settings the first that is a file is the schema module; it is known by its
canonical path. A candidate that leads to a directory, or nowhere, is passed over.
-/

namespace ContentSchema

variable {m : Type → Type} [Monad m] [FileSystem m]

/-- The first path of a list that leads to a file. -/
def firstFile? : List String → m (Option String)
  | [] => return none
  | path :: others => do if ← FileSystem.isFile path then return some path else firstFile? others

/-- The canonical path of the schema module of a project. -/
def Settings.resolveSource (settings : Settings) : m (Except BundleError String) := do
  match ← firstFile? settings.candidatePaths with
  | none => return .error (.missingEntry settings.candidatePaths)
  | some path =>
    match ← FileSystem.canonicalPath path with
    | .ok source => return .ok source
    | .error _ => return .ok path

end ContentSchema
