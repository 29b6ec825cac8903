import ContentSchema.Decimal.Reading
import ContentSchema.Json.Basic
/-!
# JSON documents as written

`Written` is a document after its grammar is checked and before it is a value: objects keep repeated
members, and a numeral beyond the range of doubles, or a string or key with half a surrogate pair,
stays as a part without a value. So a reader of records can tell a repeated field from a single one,
and can pass over what it does not use, however badly that part would read.

`Written.toJson?` is the step to a value. It fails on a part without a value and on a nesting of
more than `maxDepth` arrays and objects; of repeated members the last wins.
-/

namespace ContentSchema

/-- A JSON document as written. -/
inductive Written where
  | null
  | bool (value : Bool)
  | num (value : Option Number)
  | str (value : Option String)
  | arr (items : List Written)
  | obj (members : List (Option String × Written))

namespace Written

instance : Inhabited Written := ⟨.null⟩

/-- The deepest nesting of arrays and objects that a reader follows. -/
def maxDepth : Nat := 127

mutual

/-- The value of a document, with room for `room` levels of nesting. -/
def value? (room : Nat) : Written → Option Json
  | .null => some .null
  | .bool value => some (.bool value)
  | .num value => value.map .num
  | .str value => value.map .str
  | .arr items =>
    match room with
    | 0 => none
    | room + 1 => (items? room items).map .arr
  | .obj members =>
    match room with
    | 0 => none
    | room + 1 => (members? room members).map .obj

/-- The values of a list of documents. -/
def items? (room : Nat) : List Written → Option (List Json)
  | [] => some []
  | item :: items => do
    let value ← value? room item
    let values ← items? room items
    return value :: values

/-- The values of the members, repeated ones included. -/
def members? (room : Nat) : List (Option String × Written) → Option (List (String × Json))
  | [] => some []
  | (key, item) :: members => do
    let key ← key
    let value ← value? room item
    let values ← members? room members
    return (key, value) :: values

end

/-- The tree of a document as written, repeated members included. -/
def tree? (document : Written) : Option Json := document.value? maxDepth

end Written

/-- The value of a document. -/
def Written.toJson? (document : Written) : Option Json := document.tree?.map Json.settle

end ContentSchema
