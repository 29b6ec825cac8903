import ContentSchema.Json.Record
/-!
# Paths

A path leads from the root of a schema to a place inside it, through fields of objects and into the
items of arrays. A hop is written as the field's name, or as `[]` for the items; a field that is
itself named `[]` reads back as the items, so the written form does not tell the two apart.
-/

namespace ContentSchema

/-- One hop of a path. -/
inductive Hop where
  | field (name : String)
  | items
deriving DecidableEq

/-- The hops from a root to a place below it. -/
abbrev Path := List Hop

namespace Hop

/-- The written form of the hop into an array's items. -/
def marker : String := "[]"

/-- The written form of a hop. -/
def text : Hop → String
  | .field name => name
  | .items => marker

/-- The hop of a written form. -/
def ofText (raw : String) : Hop := if raw = marker then .items else .field raw

theorem ofText_text_items : ofText (text .items) = .items := rfl

/-- Every field hop but the one named as the marker reads back. -/
theorem ofText_text_field {name : String} (h : name ≠ marker) : ofText (text (.field name)) = .field name := by
  simp [ofText, text, h]

end Hop

namespace Path

/-- The path for a reader: hops joined by points, or `<root>`. -/
def display : Path → String
  | [] => "<root>"
  | path => String.intercalate "." (path.map Hop.text)

/-- The JSON form of a path. -/
def toJson (path : Path) : Json := .arr (path.map fun hop ↦ .str hop.text)

/-- Reads a path. -/
def ofJson? (tree : Json) : Option Path :=
  tree.asList? fun item ↦ item.asString?.map Hop.ofText

end Path

end ContentSchema
