import ContentSchema.CommandLine.Arguments
import ContentSchema.Project.Compile
import ContentSchema.Project.Configuration
import ContentSchema.Text.Blank
/-!
# Running commands

A command prints its result, and the warnings of all collections beside it, or it prints one error
and fails. A command line that is wrong fails in its own way.
-/

namespace ContentSchema

/-- What a command leaves behind. -/
structure CommandResult where
  exitCode : Nat
  stdout : String
  stderr : String
deriving DecidableEq, Repr

/-- The result of a command that failed. -/
def CommandResult.failure (message : String) : CommandResult := ⟨1, "", "error: " ++ message ++ "\n"⟩

/-- What is said when a set has no collection of a name. -/
def SchemaSet.unknownCollection (set : SchemaSet) (name : String) : String :=
  if set.names.isEmpty then
    "Unknown collection '" ++ name ++ "': the schema module declares no collections"
  else
    "Unknown collection '" ++ name ++ "'. Available: " ++ String.intercalate ", " set.names

/-- What `compile` prints of a set. -/
def SchemaSet.printed (set : SchemaSet) (format : ReportFormat) (collection : Option String)
    (enrich : Bool) : Except String String :=
  match collection with
  | none => .ok ((if enrich then set.enriched else set).report format)
  | some name =>
    match set.find? name with
    | none => .error (set.unknownCollection name)
    | some collection => .ok ((if enrich then collection.enriched else collection).report format)

/-- The warnings of all collections of a set, one a line. -/
def SchemaSet.warningLines (set : SchemaSet) : String :=
  String.join (set.collections.flatMap fun entry ↦ entry.2.warnings.map fun warning ↦
    "warning: " ++ entry.2.name ++ ": " ++ warning.display ++ "\n")

variable {m : Type → Type} [Monad m] [FileSystem m]

/-- The settings of the project that options choose. -/
def ProjectOptions.settings (options : ProjectOptions) : m (Except String Settings) := do
  match ← FileSystem.canonicalPath options.project with
  | .error error =>
    return .error ("Failed to open project directory '" ++ options.project ++ "': " ++ error.message)
  | .ok root =>
    let loaded ← match options.config with
      | some path => Settings.load path root
      | none => Settings.discover root
    match loaded with
    | .error error => return .error error.message
    | .ok settings =>
      return .ok { settings with nodeBinary := options.node.getD settings.nodeBinary }

namespace Command

variable [ScriptHost m]

/-- Runs a command; `now` tells the time. -/
def run (now : m String) : Command → m CommandResult
  | .resolve options => do
    match ← options.settings with
    | .error message => return .failure message
    | .ok settings =>
      match ← settings.resolveSource with
      | .error error => return .failure error.message
      | .ok source => return ⟨0, source ++ "\n", ""⟩
  | .compile options format collection enrich => do
    match ← options.settings with
    | .error message => return .failure message
    | .ok settings =>
      match ← settings.compile settings.toolchain now with
      | .error error => return .failure error.message
      | .ok set =>
        match set.printed format collection enrich with
        | .error message => return .failure message
        | .ok text => return ⟨0, trimEnd text ++ "\n", set.warningLines⟩

end Command

/-- Answers a command line. -/
def Invocation.answer [ScriptHost m] (now : m String) : Invocation → m CommandResult
  | .run command => command.run now
  | .inform text => return ⟨0, text, ""⟩
  | .misuse message => return ⟨2, "", "error: " ++ message ++ "\n"⟩

end ContentSchema
