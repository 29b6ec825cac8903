import ContentSchema.Collection.Wire
import ContentSchema.Yaml.Writer
/-!
# Reports

A set or a collection is reported as JSON, as YAML or as a Markdown page. The page of a collection
has a table of its fields, the block unions with their options, and the warnings; the page of a set
has a table of its collections and then their pages one level deeper.
-/

namespace ContentSchema

/-- A format of reports. -/
inductive ReportFormat where
  | json
  | yaml
  | markdown
deriving DecidableEq, Repr

/-- The format of a written name. -/
def ReportFormat.ofName? (name : String) : Option ReportFormat :=
  if name = "json" then some .json
  else if name = "yaml" then some .yaml
  else if name = "markdown" then some .markdown
  else none

namespace Json

/-- The properties that a schema document lists. -/
def properties (schema : Json) : List (String × Json) :=
  match schema.get? "properties" with
  | some (.obj members) => members
  | _ => []

/-- The names of the properties that a schema document requires. -/
def requiredFields (schema : Json) : List String :=
  match schema.get? "required" with
  | some (.arr names) => names.filterMap asString?
  | _ => []

/-- The type of a schema document in a table cell. -/
def typeLabel (schema : Json) : String :=
  match schema.get? "type" with
  | some (.str type) =>
    match (schema.get? "format").bind asString? with
    | some format => type ++ " (" ++ format ++ ")"
    | none => type
  | some (.arr types) => String.intercalate " \\| " (types.filterMap asString?)
  | _ =>
    if (schema.get? "anyOf").isSome then "union"
    else if (schema.get? "enum").isSome then "enum"
    else "any"

end Json

namespace Markdown

/-- The row of a field. -/
def fieldRow (required : List String) (field : String × Json) : String :=
  "| `" ++ field.1 ++ "` | " ++ field.2.typeLabel ++ " | " ++
    (if required.contains field.1 then "yes" else "no") ++ " |\n"

/-- The table of the fields of a schema, if it has any. -/
def fieldTable (schema : Json) : String :=
  if schema.properties.isEmpty then ""
  else
    "| Field | Type | Required |\n|-------|------|----------|\n" ++
      String.join (schema.properties.map (fieldRow schema.requiredFields)) ++ "\n"

/-- The block of a union. -/
def unionBlock (union : VariantUnion) : String :=
  "**Blocks at `" ++ union.path.display ++ "`** (discriminator `" ++ union.discriminator ++ "`):\n\n" ++
    String.join (union.options.map fun variant ↦
      "- " ++ variant.label ++ " (`" ++ variant.key ++ "`)\n") ++ "\n"

/-- The list of warnings, if there are any. -/
def warningList (warnings : List Warning) : String :=
  if warnings.isEmpty then ""
  else
    "**Warnings:**\n\n" ++
      String.join (warnings.map fun warning ↦ "- " ++ warning.display ++ "\n") ++ "\n"

/-- The page of a collection under a heading mark. -/
def collectionPage (mark : String) (collection : Collection) : String :=
  mark ++ " " ++ collection.name ++ " (" ++ collection.type.name ++ ")\n\n" ++
    fieldTable collection.schema ++ String.join (collection.unions.map unionBlock) ++
    warningList collection.warnings

/-- The row of a collection. -/
def collectionRow (entry : String × Collection) : String :=
  "| `" ++ entry.1 ++ "` | " ++ entry.2.type.name ++ " | " ++
    toString entry.2.schema.properties.length ++ " | " ++ toString entry.2.unions.length ++ " |\n"

/-- The page of a set. -/
def setPage (set : SchemaSet) : String :=
  "# Collections\n\n" ++
    (match set.source with
      | some source => "**Source:** `" ++ source ++ "`\n\n"
      | none => "") ++
    "**Generated:** " ++ set.generatedAt ++ "\n\n" ++
    if set.collections.isEmpty then "_No collections declared._\n"
    else
      "| Collection | Type | Fields | Block unions |\n|------------|------|--------|--------------|\n" ++
        String.join (set.collections.map collectionRow) ++ "\n" ++
        String.join (set.collections.map fun entry ↦ collectionPage "##" entry.2)

end Markdown

/-- The report of a collection. -/
def Collection.report (collection : Collection) : ReportFormat → String
  | .json => collection.toJson.pretty
  | .yaml => Yaml.render collection.toJson
  | .markdown => Markdown.collectionPage "#" collection

/-- The report of a set. -/
def SchemaSet.report (set : SchemaSet) : ReportFormat → String
  | .json => set.toJson.pretty
  | .yaml => Yaml.render set.toJson
  | .markdown => Markdown.setPage set

end ContentSchema
