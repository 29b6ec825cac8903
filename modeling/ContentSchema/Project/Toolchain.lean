import ContentSchema.Files.System
import ContentSchema.Script.BundleReply
import ContentSchema.Script.ContentStub
import ContentSchema.Script.ModuleExports
import ContentSchema.Script.Run
import ContentSchema.Settings
/-!
# Toolchains

Compiling needs a bundler and a runtime. A `Toolchain` is any pair of them; `Settings.toolchain` is
the one that runs the helper scripts in the runtime that the settings name.
-/

namespace ContentSchema

/-- What turns a schema module into a bundle, and a bundle into exports. -/
structure Toolchain (m : Type → Type) where
  /-- The bundle of the module at a path. -/
  bundle : String → m (Except BundleError String)
  /-- The exports of the bundle that is staged at a path. -/
  importModule : String → m (Except LoadError ModuleExports)

namespace Settings

/-- The request that has a module bundled. -/
def bundleRequest (settings : Settings) (entry : String) : Json :=
  .obj [("entry", .str entry),
    ("resolveDir", .str ((FilePath.parent? entry).getD settings.root)),
    ("virtualModule", .str settings.virtualModule),
    ("shimSource", .str (stubSource settings.validationLibrary)),
    ("externals", .arr (settings.externalSpecifiers.map .str))]

/-- The request that has a staged bundle imported. -/
def importRequest (path : String) : Json :=
  .obj [("module", .str path), ("maxDepth", .num (.int maxShapeDepth))]

variable {m : Type → Type} [Monad m] [FileSystem m] [ScriptHost m]

/-- Bundles a module with the helper script; it must be there to be read. -/
def bundle (settings : Settings) (entry : String) : m (Except BundleError String) := do
  match ← FileSystem.probe entry with
  | .error error => return .error (.unreadable entry error.message)
  | .ok () =>
    let run : ScriptRun := ⟨settings.nodeBinary, .bundle, settings.bundleRequest entry, settings.root,
      settings.bundleTimeout⟩
    match ← run.reply with
    | .ok reply => return bundledCode reply
    | .error message => return .error (.tool message)

/-- Imports a staged bundle with the helper script. -/
def importModule (settings : Settings) (path : String) : m (Except LoadError ModuleExports) := do
  let run : ScriptRun := ⟨settings.nodeBinary, .introspection, importRequest path, settings.root,
    settings.loadTimeout⟩
  match ← run.reply with
  | .ok reply => return importedExports reply
  | .error message => return .error (.tool message)

/-- The toolchain of the helper scripts. -/
def toolchain (settings : Settings) : Toolchain m := ⟨settings.bundle, settings.importModule⟩

end Settings

end ContentSchema
