/-!
# Compile errors

Why a schema module has no compiled set: it could not be bundled, it does not export collections, or
it could not be loaded. Each cause is a constructor; `message` is its text.
-/

namespace ContentSchema

/-- Why a schema module could not be bundled. -/
inductive BundleError where
  /-- None of the candidates is a file. -/
  | missingEntry (checked : List String)
  /-- The entry is a file that cannot be read. -/
  | unreadable (path message : String)
  /-- The module, or one that it imports, does not parse. -/
  | badSyntax (message : String) (location : Option String)
  /-- An import leads nowhere. -/
  | unresolvedImport (specifier : String) (importer : Option String)
  /-- The bundler itself failed. -/
  | tool (message : String)
deriving DecidableEq, Repr

/-- Why a bundled module could not be loaded. -/
inductive LoadError where
  /-- The bundle could not be written to the staging directory. -/
  | staging (directory message : String)
  /-- The module threw while it was imported. -/
  | runtime (message : String) (stack : Option String)
  /-- The runtime itself failed. -/
  | tool (message : String)
deriving DecidableEq, Repr

/-- Why a schema module has no compiled set. -/
inductive CompileError where
  | bundle (error : BundleError)
  /-- The module loads, but its exports are not collections. -/
  | exports (message : String)
  | load (error : LoadError)
  /-- The compilation died without a result. -/
  | aborted
deriving DecidableEq, Repr

/-- Why a configuration could not be read. -/
inductive SettingsError where
  | unreadable (path message : String)
  | malformed (path detail : String)
deriving DecidableEq, Repr

/-- The text of a bundle error. -/
def BundleError.message : BundleError → String
  | .missingEntry checked =>
    "no schema definition file found; checked:\n" ++
      String.intercalate "\n" (checked.map ("  " ++ ·))
  | .unreadable path message => "cannot read " ++ path ++ ": " ++ message
  | .badSyntax message none => "syntax error: " ++ message
  | .badSyntax message (some location) => "syntax error at " ++ location ++ ": " ++ message
  | .unresolvedImport specifier none => "could not resolve import \"" ++ specifier ++ "\""
  | .unresolvedImport specifier (some importer) =>
    "could not resolve import \"" ++ specifier ++ "\" from " ++ importer
  | .tool message => "bundler failed: " ++ message

/-- The text of a load error. -/
def LoadError.message : LoadError → String
  | .staging directory message =>
    "failed to stage bundled module in " ++ directory ++ ": " ++ message
  | .runtime message _ => "schema module threw during import: " ++ message
  | .tool message => "module runtime failed: " ++ message

/-- The text of a compile error. -/
def CompileError.message : CompileError → String
  | .bundle error => error.message
  | .exports message => "invalid schema module: " ++ message
  | .load error => error.message
  | .aborted => "schema compilation aborted before completing"

/-- The text of a configuration error. -/
def SettingsError.message : SettingsError → String
  | .unreadable path message => "I/O error reading " ++ path ++ ": " ++ message
  | .malformed path detail => "YAML error in " ++ path ++ ": " ++ detail

/-- The error of a module that exports no collections. -/
def CompileError.missingCollections : CompileError :=
  .exports "the schema module must export a `collections` object"

end ContentSchema
