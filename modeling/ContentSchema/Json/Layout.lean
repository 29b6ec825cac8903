import ContentSchema.Json.Reader
/-!
# What a reader looks at

A reader of records passes over members it does not know, so these need only be grammatical: a
numeral beyond the doubles, half a surrogate pair, even in a key, or a deep nesting inside them does
no harm. A `Layout` says which members are looked at; `Written.prune` puts `null` in the place of all
others before the document becomes a tree.
-/

namespace ContentSchema

/-- Which parts of a document are looked at. -/
inductive Layout where
  /-- All of it. -/
  | all
  /-- The named members of a record, or the places of an array in their order. -/
  | record (fields : List (String × Layout))
  /-- The items of an array. -/
  | list (item : Layout)
  /-- The values of an object. -/
  | keyed (value : Layout)

namespace Layout

/-- The layout of the places of an array. -/
def atPlace : Layout → Nat → Layout
  | .record fields, place => (fields.map (·.2)).getD place .all
  | .list item, _ => item
  | _, _ => .all

/-- The layout of a member of an object, if it is looked at. -/
def atMember? : Layout → String → Option Layout
  | .record fields, name => fields.lookup name
  | .keyed value, _ => some value
  | _, _ => some .all

end Layout

namespace Written

mutual

/-- Replaces by `null` what a layout does not look at. -/
def prune (layout : Layout) : Written → Written
  | .arr items => .arr (pruneItems layout 0 items)
  | .obj members => .obj (pruneMembers layout members)
  | document => document

/-- Prunes the items from a place on. -/
def pruneItems (layout : Layout) (place : Nat) : List Written → List Written
  | [] => []
  | item :: items => prune (layout.atPlace place) item :: pruneItems layout (place + 1) items

/-- Prunes the members; the keys are all looked at, even to tell which members are not. -/
def pruneMembers (layout : Layout) : List (Option String × Written) → List (Option String × Written)
  | [] => []
  | (key, value) :: members =>
    match key.bind layout.atMember? with
    | some inner => (key, prune inner value) :: pruneMembers layout members
    | none => (key, .null) :: pruneMembers layout members

end

end Written

/-- Reads a text under a layout. -/
def Layout.read? {α : Type} (layout : Layout) (ofJson? : Json → Option α) (text : String) : Option α :=
  (Written.read? text).bind fun document ↦ (document.prune layout).tree?.bind ofJson?

end ContentSchema
