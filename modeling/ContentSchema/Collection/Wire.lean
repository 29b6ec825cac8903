import ContentSchema.Collection.Set
import ContentSchema.Json.Layout
import ContentSchema.Json.Reader
/-!
# The JSON form of collections and sets

Members of a collection are in camel case and those of a set in snake case. Warnings are left out
when there are none, and so is the source of a set without one. Each type has a writer `toJson` and a
reader `ofJson?` on trees as written; `read?` reads a text and passes over what the type does not
have.
-/

namespace ContentSchema

namespace CollectionType

/-- The JSON form of a type. -/
def toJson (type : CollectionType) : Json := .str type.name

/-- Reads a type: its name, or an object whose one member has that name and is null. -/
def ofJson? : Json → Option CollectionType
  | .str name => ofName? name
  | .obj [(name, .null)] => ofName? name
  | _ => none

end CollectionType

namespace Variant

/-- The JSON form of a variant. -/
def toJson (variant : Variant) : Json :=
  .obj [("value", variant.value), ("label", .str variant.label), ("schema", variant.schema)]

/-- Reads a variant. -/
def ofJson? (tree : Json) : Option Variant := do
  let fields ← Record.of? ["value", "label", "schema"] tree
  return {
    value := ← fields.required "value" Json.asAny?
    label := ← fields.required "label" Json.asString?
    schema := ← fields.required "schema" Json.asAny? }

end Variant

namespace VariantUnion

/-- The JSON form of a union. -/
def toJson (union : VariantUnion) : Json :=
  .obj [("path", union.path.toJson), ("discriminator", .str union.discriminator),
    ("options", .arr (union.options.map Variant.toJson))]

/-- Reads a union. -/
def ofJson? (tree : Json) : Option VariantUnion := do
  let fields ← Record.of? ["path", "discriminator", "options"] tree
  return {
    path := ← fields.required "path" Path.ofJson?
    discriminator := ← fields.required "discriminator" Json.asString?
    options := ← fields.required "options" (Json.asList? Variant.ofJson?) }

end VariantUnion

namespace Warning

/-- The JSON form of a warning. -/
def toJson (warning : Warning) : Json :=
  .obj [("path", warning.path.toJson), ("message", .str warning.message)]

/-- Reads a warning. -/
def ofJson? (tree : Json) : Option Warning := do
  let fields ← Record.of? ["path", "message"] tree
  return {
    path := ← fields.required "path" Path.ofJson?
    message := ← fields.required "message" Json.asString? }

end Warning

namespace Collection

/-- The JSON form of a collection. -/
def toJson (collection : Collection) : Json :=
  .obj ([("name", .str collection.name), ("type", collection.type.toJson),
    ("schema", collection.schema),
    ("discriminatedUnions", .arr (collection.unions.map VariantUnion.toJson))] ++
    if collection.warnings.isEmpty then []
    else [("warnings", .arr (collection.warnings.map Warning.toJson))])

/-- Reads a collection. -/
def ofJson? (tree : Json) : Option Collection := do
  let fields ← Record.of? ["name", "type", "schema", "discriminatedUnions", "warnings"] tree
  return {
    name := ← fields.required "name" Json.asString?
    type := ← fields.required "type" CollectionType.ofJson?
    schema := ← fields.required "schema" Json.asAny?
    unions := ← fields.required "discriminatedUnions" (Json.asList? VariantUnion.ofJson?)
    warnings := ← fields.defaulted "warnings" [] (Json.asList? Warning.ofJson?) }

end Collection

namespace SchemaSet

/-- The JSON form of a set. -/
def toJson (set : SchemaSet) : Json :=
  .obj ([("schema_version", .str set.schemaVersion)] ++
    (match set.source with
      | none => []
      | some source => [("source", .str source)]) ++
    [("generated_at", .str set.generatedAt),
      ("collections", .obj (Keyed.mapValues Collection.toJson set.collections))])

/-- Reads a set. -/
def ofJson? (tree : Json) : Option SchemaSet := do
  let fields ← Record.of? ["schema_version", "source", "generated_at", "collections"] tree
  return {
    schemaVersion := ← fields.required "schema_version" Json.asString?
    source := ← fields.optional "source" Json.asString?
    generatedAt := ← fields.required "generated_at" Json.asString?
    collections := ← fields.required "collections" (Json.asKeyed? Collection.ofJson?) }

end SchemaSet

/-! ### Texts -/

/-- What is read of a union. -/
def VariantUnion.layout : Layout :=
  .record [("path", .all), ("discriminator", .all),
    ("options", .list (.record [("value", .all), ("label", .all), ("schema", .all)]))]

/-- What is read of a collection. -/
def Collection.layout : Layout :=
  .record [("name", .all), ("type", .all), ("schema", .all),
    ("discriminatedUnions", .list VariantUnion.layout),
    ("warnings", .list (.record [("path", .all), ("message", .all)]))]

/-- What is read of a set. -/
def SchemaSet.layout : Layout :=
  .record [("schema_version", .all), ("source", .all), ("generated_at", .all),
    ("collections", .keyed Collection.layout)]

/-- The unions that a text lists. -/
def VariantUnion.readList? (text : String) : Option (List VariantUnion) :=
  (Layout.list VariantUnion.layout).read? (Json.asList? VariantUnion.ofJson?) text

/-- The collection that a text holds. -/
def Collection.read? (text : String) : Option Collection :=
  Collection.layout.read? Collection.ofJson? text

/-- The set that a text holds. -/
def SchemaSet.read? (text : String) : Option SchemaSet := SchemaSet.layout.read? SchemaSet.ofJson? text

end ContentSchema
