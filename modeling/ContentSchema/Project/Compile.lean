import ContentSchema.Collection.Compile
import ContentSchema.Collection.Set
import ContentSchema.Project.Source
import ContentSchema.Project.Staging
import ContentSchema.Project.Toolchain
/-!
# Compiling a project

The schema module of a project is found, bundled and loaded; its declarations are then compiled one
by one, and the collections make up the set. The first of these steps that fails decides the error.
-/

namespace ContentSchema

/-- The set that a list of declarations compiles to. -/
def SchemaSet.ofDeclarations (generatedAt source : String) (declarations : List Declaration) :
    SchemaSet :=
  .ofCollections generatedAt (some source) (declarations.map (Declaration.compile .draft))

variable {m : Type → Type} [Monad m] [FileSystem m] [TemporaryFiles m]

/-- Compiles a project; `now` tells the time that the set bears. -/
def Settings.compile (settings : Settings) (tools : Toolchain m) (now : m String) :
    m (Except CompileError SchemaSet) := do
  match ← settings.resolveSource with
  | .error error => return .error (.bundle error)
  | .ok source =>
    match ← tools.bundle source with
    | .error error => return .error (.bundle error)
    | .ok code =>
      match ← loadBundle settings.stagingPath tools.importModule code with
      | .error error => return .error error
      | .ok declarations => return .ok (.ofDeclarations (← now) source declarations)

end ContentSchema
