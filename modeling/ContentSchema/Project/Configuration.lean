import ContentSchema.CompileError
import ContentSchema.Files.System
import ContentSchema.Settings
/-!
# The settings of a project

A project is configured by the settings file at its root, if there is one, or by a file that is named
instead. The root itself never comes from a file.
-/

namespace ContentSchema.Settings

variable {m : Type → Type} [Monad m] [FileSystem m]

/-- The settings of a file, for the project at `root`. -/
def load (path root : String) : m (Except SettingsError Settings) := do
  match ← FileSystem.readText path with
  | .error error => return .error (.unreadable path error.message)
  | .ok text =>
    match ofYaml? text with
    | some settings => return .ok { settings with root }
    | none => return .error (.malformed path "these are no settings")

/-- The settings of the project at `root`. -/
def discover (root : String) : m (Except SettingsError Settings) := do
  let path := FilePath.join root fileName
  if ← FileSystem.isFile path then load path root else return .ok { root }

end ContentSchema.Settings
