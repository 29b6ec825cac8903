import ContentSchema.Json.Basic
/-!
# Reading records

A record with named fields reads from an object, or from an array that lists its fields in order.
An object may hold more members than the record has fields, but none of the fields twice; an array
may be short of its last fields, but not longer than all of them. `Record.of?` is this step: it keeps
the known fields and their trees. The readers of a field then say what absence and `null` mean.

All readers work on trees as written, in which an object may repeat a member.
-/

namespace ContentSchema

namespace Json

/-- A truth value. -/
def asBool? : Json → Option Bool
  | .bool value => some value
  | _ => none

/-- A natural number, written as an integer. -/
def asNat? : Json → Option Nat
  | .num (.int value) => if 0 ≤ value then some value.toNat else none
  | _ => none

/-- A double: a real, or the one nearest to an integer. -/
def asReal? : Json → Option Binary64
  | .num (.real value) => some value
  | .num (.int value) => Binary64.ofInt value
  | _ => none

/-- An array whose items all read. -/
def asList? {α : Type} (read : Json → Option α) : Json → Option (List α)
  | .arr items => items.mapM read
  | _ => none

/-- A dictionary whose values all read; of repeated keys the last wins. -/
def asKeyed? {α : Type} (read : Json → Option α) : Json → Option (Keyed α)
  | .obj members =>
    (members.mapM fun member ↦ (read member.2).map fun value ↦ (member.1, value)).map Keyed.ofList
  | _ => none

/-- Any value, repeated members settled. -/
def asAny? (tree : Json) : Option Json := some tree.settle

/-- A value that may be `null`. -/
def asOptional? {α : Type} (read : Json → Option α) : Json → Option (Option α)
  | .null => some none
  | tree => (read tree).map some

end Json

/-- The known fields of a record, each at most once. -/
abbrev Record := Keyed Json

namespace Record

/-- The fields named in `names` that a tree holds. -/
def of? (names : List String) : Json → Option Record
  | .obj members =>
    let known := members.filter fun member ↦ names.contains member.1
    if (known.map (·.1)).Nodup then some known else none
  | .arr items => if items.length ≤ names.length then some (names.zip items) else none
  | _ => none

/-- A field that must be present. -/
def required {α : Type} (record : Record) (name : String) (read : Json → Option α) : Option α :=
  (Keyed.find? record name).bind read

/-- A field that may be absent or `null`. -/
def optional {α : Type} (record : Record) (name : String) (read : Json → Option α) :
    Option (Option α) :=
  match Keyed.find? record name with
  | none => some none
  | some tree => tree.asOptional? read

/-- A field that may be absent and then has the value `absent`. -/
def defaulted {α : Type} (record : Record) (name : String) (absent : α) (read : Json → Option α) :
    Option α :=
  match Keyed.find? record name with
  | none => some absent
  | some tree => read tree

end Record

end ContentSchema
