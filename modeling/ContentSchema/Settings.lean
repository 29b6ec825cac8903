import ContentSchema.Files.Path
import ContentSchema.Text.Blank
import ContentSchema.Yaml.Node
import ContentSchema.Yaml.Scalar
/-!
# Settings

The settings of a project: where its schema module may be, what the bundler keeps out of the bundle,
which runtime runs the scripts and for how long, and how files are watched. Every one has a default,
and a settings file changes those that it names.

A settings file is a YAML mapping. Settings it does not know are passed over, but a known one may
not stand twice. A plain scalar is taken as its text where a text is wanted, so a text may look like
a number; an empty one stands for an empty list or mapping.
-/

namespace ContentSchema

/-- How files are watched, in milliseconds. -/
structure WatchTiming where
  /-- The time between two looks. -/
  pollInterval : Nat := 250
  /-- How long a change must stay before it is reported. -/
  debounce : Nat := 300
deriving DecidableEq, Repr, Inhabited

/-- The settings of a project. -/
structure Settings where
  /-- The root of the project; a settings file does not set it. -/
  root : String := "."
  /-- Where the schema module may be, in order. -/
  candidates : List String := [
    "src/content.config.ts", "src/content.config.mts", "src/content.config.js",
    "src/content.config.mjs", "src/content/config.ts", "src/content/config.mts",
    "src/content/config.js", "src/content/config.mjs"]
  /-- The import that the stub stands in for. -/
  virtualModule : String := "astro:content"
  /-- The validation library, which stays out of the bundle. -/
  validationLibrary : String := "zod"
  /-- What else stays out. -/
  externals : List String := []
  /-- The runtime that runs the scripts. -/
  nodeBinary : String := "node"
  /-- Where bundles are staged, if not at the root. -/
  stagingDir : Option String := none
  /-- How long bundling may take, in milliseconds. -/
  bundleTimeout : Nat := 30000
  /-- How long importing may take, in milliseconds. -/
  loadTimeout : Nat := 30000
  watch : WatchTiming := {}
deriving DecidableEq, Repr, Inhabited

namespace Settings

/-- The name of a settings file at the root of a project. -/
def fileName : String := ".collection-schema.yml"

/-- The paths of all candidates, in order. -/
def candidatePaths (settings : Settings) : List String :=
  settings.candidates.map (FilePath.join settings.root)

/-- The directory in which bundles are staged. -/
def stagingPath (settings : Settings) : String :=
  match settings.stagingDir with
  | some dir => FilePath.join settings.root dir
  | none => settings.root

/-- What stays out of the bundle: the validation library with all below it, and each further one
once. -/
def externalSpecifiers (settings : Settings) : List String :=
  settings.externals.foldl
    (fun specifiers extra ↦ if extra ∈ specifiers then specifiers else specifiers ++ [extra])
    [settings.validationLibrary, settings.validationLibrary ++ "/*"]

end Settings

namespace Yaml.Document

/-- The text of a scalar. -/
def text? (document : Document) (node : Node) : Option String :=
  match document.resolve? node with
  | some (.scalar text _ _) => some text
  | _ => none

/-- Whether a node is an empty plain scalar. -/
def isVoid : Node → Bool
  | .scalar "" .plain _ => true
  | _ => false

/-- A list of texts. -/
def texts? (document : Document) (node : Node) : Option (List String) :=
  match document.resolve? node with
  | some (.sequence items) => items.mapM document.text?
  | some node => if isVoid node then some [] else none
  | none => none

/-- A natural number of 64 bits; a literal block counts if it is tagged as an integer. -/
def natural? (document : Document) (node : Node) : Option Nat :=
  match document.resolve? node with
  | some (.scalar text presentation tag) =>
    if presentation = .plain ∨ (presentation = .literal ∧ tag = some "tag:yaml.org,2002:int") then
      Yaml.nat? (Nat.pow 2 64) text.toList
    else none
  | _ => none

/-- A text that may be null: a plain scalar that is empty or spells null, unless a tag says that it
is something else. -/
def optionalText? (document : Document) (node : Node) : Option (Option String) :=
  match document.resolve? node with
  | some (.scalar text .plain none) => some (if text = "" || isNullWord text then none else some text)
  | some (.scalar text .plain (some tag)) =>
    if tag = "tag:yaml.org,2002:null" then if isNullWord text then some none else none
    else some (some text)
  | some (.scalar text _ _) => some (some text)
  | _ => none

/-- The entries of a mapping under the given names, each at most once; all keys must be scalars. -/
def fields? (document : Document) (names : List String) (node : Node) :
    Option (List (String × Node)) :=
  match document.resolve? node with
  | some (.mapping entries) => do
    let fields ← entries.mapM fun entry ↦ (document.text? entry.1).map fun key ↦ (key, entry.2)
    let known := fields.filter fun field ↦ names.contains field.1
    if (known.map (·.1)).Nodup then some known else none
  | some node => if isVoid node then some [] else none
  | none => none

end Yaml.Document

/-- A field, read if it is there. -/
private def fieldOr {α : Type} (fields : List (String × Yaml.Node)) (name : String) (absent : α)
    (read : Yaml.Node → Option α) : Option α :=
  match fields.lookup name with
  | none => some absent
  | some node => read node

/-- Reads how files are watched. -/
def WatchTiming.ofYaml? (document : Yaml.Document) (node : Yaml.Node) : Option WatchTiming := do
  let fields ← document.fields? ["poll_interval_ms", "debounce_ms"] node
  let absent : WatchTiming := {}
  return {
    pollInterval := ← fieldOr fields "poll_interval_ms" absent.pollInterval document.natural?
    debounce := ← fieldOr fields "debounce_ms" absent.debounce document.natural? }

namespace Settings

/-- The names in a settings file. -/
def fieldNames : List String :=
  ["candidates", "virtual_module", "validation_library", "externals", "node_binary", "staging_dir",
    "bundle_timeout_ms", "load_timeout_ms", "watch"]

/-- Reads settings from a document. -/
def ofDocument? (document : Yaml.Document) : Option Settings := do
  let fields ← document.fields? fieldNames document.root
  let absent : Settings := {}
  return {
    candidates := ← fieldOr fields "candidates" absent.candidates document.texts?
    virtualModule := ← fieldOr fields "virtual_module" absent.virtualModule document.text?
    validationLibrary := ← fieldOr fields "validation_library" absent.validationLibrary document.text?
    externals := ← fieldOr fields "externals" absent.externals document.texts?
    nodeBinary := ← fieldOr fields "node_binary" absent.nodeBinary document.text?
    stagingDir := ← fieldOr fields "staging_dir" absent.stagingDir document.optionalText?
    bundleTimeout := ← fieldOr fields "bundle_timeout_ms" absent.bundleTimeout document.natural?
    loadTimeout := ← fieldOr fields "load_timeout_ms" absent.loadTimeout document.natural?
    watch := ← fieldOr fields "watch" absent.watch (WatchTiming.ofYaml? document) }

/-- Reads the text of a settings file; blank text, and a stream without a document, set nothing. -/
def ofYaml? (text : String) : Option Settings :=
  if isBlankText text then some {}
  else
    match Yaml.parse? text with
    | none => none
    | some none => some {}
    | some (some document) => ofDocument? document

end Settings

end ContentSchema
