import ContentSchema.Files.Temporary
import ContentSchema.Script.ModuleExports
/-!
# Staging

A bundle is imported from a file of its own in the staging directory, where the imports that it still
has lead to the packages of the project. It is a temporary file: the library that makes it finds a name
that is free, and removes the file again whatever comes of the import.
-/

namespace ContentSchema

/-- The start of the name of a staged module. -/
def stagedLead : String := ".collection-schema-"

/-- The end of the name of a staged module. -/
def stagedTrail : String := ".mjs"

variable {m : Type → Type} [Monad m] [FileSystem m] [TemporaryFiles m]

/-- Writes a bundle to a new file in the staging directory and gives its path. -/
def stageBundle (directory code : String) : m (Except LoadError String) := do
  match ← FileSystem.createDirectories directory with
  | .error error => return .error (.staging directory error.message)
  | .ok () =>
    match ← TemporaryFiles.create directory stagedLead stagedTrail with
    | .error message => return .error (.staging directory message)
    | .ok path =>
      match ← TemporaryFiles.fill path code.toUTF8 with
      | .error message =>
        TemporaryFiles.giveUp path
        return .error (.staging directory message)
      | .ok () => return .ok path

/-- The declarations of a bundle: it is staged, imported and removed. A staged file that cannot be
removed is no reason to withhold the declarations. -/
def loadBundle (directory : String) (importModule : String → m (Except LoadError ModuleExports))
    (code : String) : m (Except CompileError (List Declaration)) := do
  match ← stageBundle directory code with
  | .error error => return .error (.load error)
  | .ok path =>
    match ← importModule path with
    | .error error =>
      TemporaryFiles.giveUp path
      return .error (.load error)
    | .ok exports =>
      let _ ← TemporaryFiles.close path
      return exports.declarations

end ContentSchema
