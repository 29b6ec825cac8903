import ContentSchema.Collection.Basic
import ContentSchema.CompileError
import ContentSchema.Json.Layout
import ContentSchema.Shape.Wire
/-!
# Exports of a schema module

The runtime imports a bundled module and reports its `collections` export, or the error that the
module threw. From the report come the declarations, in order; a module without collections, or with
two of one name, has none.
-/

namespace ContentSchema

/-- The nesting of shapes past which the runtime reports them as opaque. -/
def maxShapeDepth : Nat := 40

/-- A collection as the runtime reports it. -/
structure ExportedCollection where
  name : String
  type : Option String
  shape : Option Shape

/-- The exports of a module. -/
structure ModuleExports where
  /-- The collections, if the module exports them. -/
  collections : Option (List ExportedCollection)
  /-- Why there are none, if the runtime can tell. -/
  issue : Option String

/-- A reply of the runtime. -/
structure ImportReply where
  ok : Bool
  exports : Option ModuleExports
  error : Option (String × Option String)

namespace ExportedCollection

/-- Reads a collection. -/
def ofJson? (tree : Json) : Option ExportedCollection := do
  let fields ← Record.of? ["name", "type", "schema"] tree
  return {
    name := ← fields.required "name" Json.asString?
    type := ← fields.optional "type" Json.asString?
    shape := ← fields.optional "schema" Shape.ofJson? }

/-- The declaration of a collection; a type that is not known counts as `content`. -/
def declaration (exported : ExportedCollection) : Declaration :=
  ⟨exported.name, (exported.type.bind CollectionType.ofName?).getD .content, exported.shape⟩

end ExportedCollection

namespace ModuleExports

/-- The exports of a module about which nothing is known. -/
def none : ModuleExports := ⟨.none, .none⟩

/-- Reads the exports. -/
def ofJson? (tree : Json) : Option ModuleExports := do
  let fields ← Record.of? ["collections", "shapeIssue"] tree
  return {
    collections := ← fields.optional "collections" (Json.asList? ExportedCollection.ofJson?)
    issue := ← fields.optional "shapeIssue" Json.asString? }

/-- The first name that stands twice in a list, given the names before it. -/
def repeatedName? (seen : List String) : List ExportedCollection → Option String
  | [] => .none
  | exported :: rest =>
    if exported.name ∈ seen then some exported.name else repeatedName? (exported.name :: seen) rest

/-- The declarations of a module, in order. -/
def declarations (exports : ModuleExports) : Except CompileError (List Declaration) :=
  match exports.collections with
  | .none =>
    match exports.issue with
    | .none => .error .missingCollections
    | some issue =>
      .error (.exports (issue ++ "; the schema module must export a `collections` object"))
  | some collections =>
    match repeatedName? [] collections with
    | some name => .error (.exports ("collection `" ++ name ++ "` is declared more than once"))
    | .none => .ok (collections.map ExportedCollection.declaration)

end ModuleExports

namespace ImportReply

/-- Reads the error of a reply. -/
def errorOfJson? (tree : Json) : Option (String × Option String) := do
  let fields ← Record.of? ["message", "stack"] tree
  return (← fields.required "message" Json.asString?, ← fields.optional "stack" Json.asString?)

/-- Reads a reply. -/
def ofJson? (tree : Json) : Option ImportReply := do
  let fields ← Record.of? ["ok", "exports", "error"] tree
  return {
    ok := ← fields.required "ok" Json.asBool?
    exports := ← fields.optional "exports" ModuleExports.ofJson?
    error := ← fields.optional "error" errorOfJson? }

/-- What is read of a reply. -/
def layout : Layout :=
  .record [("ok", .all),
    ("exports", .record [
      ("collections", .list (.record [("name", .all), ("type", .all), ("schema", .all)])),
      ("shapeIssue", .all)]),
    ("error", .record [("message", .all), ("stack", .all)])]

/-- The exports of a reply, or the error that it reports. -/
def outcome (reply : ImportReply) : Except LoadError ModuleExports :=
  if reply.ok then .ok (reply.exports.getD .none)
  else
    match reply.error with
    | some (message, stack) => .error (.runtime message stack)
    | .none => .error (.runtime "unknown error" .none)

end ImportReply

/-- The exports that the text of a reply gives. -/
def importedExports (text : String) : Except LoadError ModuleExports :=
  match ImportReply.layout.read? ImportReply.ofJson? text with
  | some reply => reply.outcome
  | .none => .error (.tool "malformed introspection reply: not a reply of the introspection script")

end ContentSchema
