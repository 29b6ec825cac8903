import ContentSchema.Path
import ContentSchema.Shape.Basic
import ContentSchema.Text.Label
/-!
# Collections

A schema module declares collections: a name, a type and perhaps a shape. A compiled collection has
a schema document in the place of the shape, the discriminated unions found in it, and warnings for
what could not be said in full.
-/

namespace ContentSchema

/-- What the entries of a collection are: pages with front matter, or plain data. -/
inductive CollectionType where
  | content
  | data
deriving DecidableEq, Repr

namespace CollectionType

/-- The written name of a type. -/
def name : CollectionType → String
  | .content => "content"
  | .data => "data"

/-- The type of a written name. -/
def ofName? (raw : String) : Option CollectionType :=
  if raw = "content" then some .content else if raw = "data" then some .data else none

theorem ofName?_name (type : CollectionType) : ofName? type.name = some type := by cases type <;> decide

end CollectionType

/-- A collection as the schema module declares it. -/
structure Declaration where
  name : String
  type : CollectionType
  shape : Option Shape

/-- One variant of a discriminated union. -/
structure Variant where
  /-- The literal that selects the variant. -/
  value : Json
  /-- Its name for a reader. -/
  label : String
  /-- The document of the variant's object. -/
  schema : Json
deriving DecidableEq

/-- The key of a variant among the block types of an array. -/
def Variant.key (variant : Variant) : String := variant.value.literalKey

/-- A discriminated union found in a collection's shape. -/
structure VariantUnion where
  path : Path
  discriminator : String
  options : List Variant
deriving DecidableEq

/-- Something that went wrong in a collection without stopping it. -/
structure Warning where
  path : Path
  message : String
deriving DecidableEq

/-- The text of a warning. -/
def Warning.display (warning : Warning) : String := warning.path.display ++ ": " ++ warning.message

/-- A compiled collection. -/
structure Collection where
  name : String
  type : CollectionType
  schema : Json
  unions : List VariantUnion
  warnings : List Warning
deriving DecidableEq

end ContentSchema
