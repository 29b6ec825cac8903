import ContentSchema.Collection.Basic
/-!
# Block types

An editor offers "add block" on an array whose items are a discriminated union. Enriching a document
puts a `blockTypes` member on each such array, mapping the key of every variant to its document. A
union whose path leads nowhere, or to something that is no array, is passed over.

A path is followed in a document through `properties` for a field and `items` for array items; the
last hop into items stays at the array itself, which is where the member goes.
-/

namespace ContentSchema

namespace Json

/-- Applies `f` to a member of an object, if there is one. -/
def modifyMember (key : String) (f : Json → Json) : Json → Json
  | .obj members => .obj (Keyed.modify members key f)
  | value => value

/-- Applies `f` where a path leads in a document; nothing changes if it leads nowhere. -/
def modifyAt (f : Json → Json) : Path → Json → Json
  | [], doc => f doc
  | [.items], doc => f doc
  | .items :: rest, doc => modifyMember "items" (modifyAt f rest) doc
  | .field name :: rest, doc =>
    modifyMember "properties" (modifyMember name (modifyAt f rest)) doc

/-- Where a path leads in a document. -/
def resolve? : Path → Json → Option Json
  | [], doc => some doc
  | [.items], doc => some doc
  | .items :: rest, doc => (doc.get? "items").bind (resolve? rest)
  | .field name :: rest, doc =>
    (doc.get? "properties").bind fun properties ↦ (properties.get? name).bind (resolve? rest)

/-- Whether a document's type is `array`, alone or in a list. -/
def isArraySchema (doc : Json) : Bool :=
  match doc.get? "type" with
  | some (.str type) => type == "array"
  | some (.arr types) => types.contains (.str "array")
  | _ => false

end Json

namespace VariantUnion

/-- The documents of the variants by key. -/
def blockTypes (union : VariantUnion) : Keyed Json :=
  Keyed.ofList (union.options.map fun variant ↦ (variant.key, variant.schema))

/-- Puts the block types of a union on a node, if that is an array. -/
def attach (union : VariantUnion) (node : Json) : Json :=
  match node with
  | .obj members =>
    if node.isArraySchema then .obj (Keyed.insert members "blockTypes" (.obj union.blockTypes))
    else node
  | node => node

end VariantUnion

/-- The document with the block types of each union where its path leads. -/
def Json.enrich (doc : Json) (unions : List VariantUnion) : Json :=
  unions.foldl (fun doc union ↦ Json.modifyAt union.attach union.path doc) doc

/-- The collection with an enriched schema. -/
def Collection.enriched (collection : Collection) : Collection :=
  { collection with schema := collection.schema.enrich collection.unions }

end ContentSchema
