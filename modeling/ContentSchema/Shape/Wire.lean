import ContentSchema.Json.Record
import ContentSchema.Shape.Basic
/-!
# The wire form of shapes

On the wire a shape is an object whose member `kind` names its kind and whose other members are its
fields; members that its kind does not have are passed over. `Shape.toJson` writes the kind first,
then the fields in order, without the optional ones that are absent.

`Shape.ofJson?` reads trees as written. A shape may also come as an array, its kind first and then
its fields in order, and below the root the kind may be given by its number. The reader counts down
the room that the tree has for further levels, so it is total on every tree.
-/

namespace ContentSchema

/-- A bound as JSON; only finite ones have a number. -/
def Real64.toJson : Real64 → Json
  | .finite value => .num (.real value)
  | _ => .null

namespace Shape

/-! ### Writing -/

/-- The member of an optional field, if it has a value. -/
def present {α : Type} (name : String) (value : Option α) (write : α → Json) : List (String × Json) :=
  match value with
  | none => []
  | some value => [(name, write value)]

/-- The member that names the kind. -/
def Kind.member (kind : Kind) : String × Json := ("kind", .str kind.name)

mutual

/-- The wire form of a shape. -/
def toJson : Shape → Json
  | .object fields => .obj [Kind.object.member, ("shape", .obj (fieldsToJson fields))]
  | .array element minItems maxItems =>
    .obj ([Kind.array.member, ("element", toJson element)] ++ present "min_items" minItems Json.ofNat ++
      present "max_items" maxItems Json.ofNat)
  | .variants discriminator options =>
    .obj [Kind.variants.member, ("discriminator", .str discriminator),
      ("options", .arr (listToJson options))]
  | .union options => .obj [Kind.union.member, ("options", .arr (listToJson options))]
  | .optional inner => .obj [Kind.optional.member, ("inner", toJson inner)]
  | .nullable inner => .obj [Kind.nullable.member, ("inner", toJson inner)]
  | .defaulted inner value => .obj [Kind.defaulted.member, ("inner", toJson inner), ("value", value)]
  | .effects inner => .obj [Kind.effects.member, ("inner", toJson inner)]
  | .literal value => .obj [Kind.literal.member, ("value", value)]
  | .string format minLength maxLength pattern =>
    .obj ([Kind.string.member] ++ present "format" format .str ++
      present "min_length" minLength Json.ofNat ++ present "max_length" maxLength Json.ofNat ++
      present "pattern" pattern .str)
  | .number integer minimum maximum =>
    .obj ([Kind.number.member, ("integer", .bool integer)] ++ present "minimum" minimum Real64.toJson ++
      present "maximum" maximum Real64.toJson)
  | .boolean => .obj [Kind.boolean.member]
  | .date => .obj [Kind.date.member]
  | .null => .obj [Kind.null.member]
  | .any => .obj [Kind.any.member]
  | .enumeration values => .obj [Kind.enumeration.member, ("values", .arr (values.map .str))]
  | .record value => .obj [Kind.record.member, ("value", toJson value)]
  | .tuple items => .obj [Kind.tuple.member, ("items", .arr (listToJson items))]
  | .reference collection => .obj [Kind.reference.member, ("collection", .str collection)]
  | .other typeName => .obj [Kind.other.member, ("type_name", .str typeName)]
  | .unrecognized => .obj [Kind.unrecognized.member]

/-- The wire forms of a list of shapes. -/
def listToJson : List Shape → List Json
  | [] => []
  | shape :: shapes => toJson shape :: listToJson shapes

/-- The wire forms of the fields of an object. -/
def fieldsToJson : List (String × Shape) → List (String × Json)
  | [] => []
  | (name, shape) :: fields => (name, toJson shape) :: fieldsToJson fields

end

/-! ### Reading -/

/-- The names of the fields of a kind, in order. -/
def Kind.fieldNames : Kind → List String
  | .object => ["shape"]
  | .array => ["element", "min_items", "max_items"]
  | .variants => ["discriminator", "options"]
  | .union => ["options"]
  | .optional | .nullable | .effects => ["inner"]
  | .defaulted => ["inner", "value"]
  | .literal => ["value"]
  | .string => ["format", "min_length", "max_length", "pattern"]
  | .number => ["integer", "minimum", "maximum"]
  | .enumeration => ["values"]
  | .record => ["value"]
  | .tuple => ["items"]
  | .reference => ["collection"]
  | .other => ["type_name"]
  | .boolean | .date | .null | .any | .unrecognized => []

/-- The kind that a tag gives: a name or, below the root, a number. -/
def Kind.ofTag? (nested : Bool) : Json → Option Kind
  | .str name => some (ofName name)
  | .num (.int n) => if nested ∧ 0 ≤ n then some (all.getD n.toNat .unrecognized) else none
  | _ => none

/-- The kind of a wire form, and the tree of its fields. An object names its kind exactly once. -/
def tagged? (nested : Bool) : Json → Option (Kind × Json)
  | .obj members =>
    match members.filter (·.1 == "kind") with
    | [(_, tag)] =>
      (Kind.ofTag? nested tag).map fun kind ↦ (kind, .obj (members.filter (·.1 != "kind")))
    | _ => none
  | .arr (tag :: items) => (Kind.ofTag? nested tag).map fun kind ↦ (kind, .arr items)
  | _ => none

/-- A bound: any number. -/
def bound? (tree : Json) : Option Real64 := tree.asReal?.map .finite

/-- The shape of a kind and its fields, given a reader of the shapes inside it. -/
def ofFields? (read : Json → Option Shape) (kind : Kind) (fields : Record) : Option Shape :=
  match kind with
  | .object => (fields.required "shape" (Json.asKeyed? read)).map .object
  | .array => do
    let element ← fields.required "element" read
    let minItems ← fields.optional "min_items" Json.asNat?
    let maxItems ← fields.optional "max_items" Json.asNat?
    return .array element minItems maxItems
  | .variants => do
    let discriminator ← fields.required "discriminator" Json.asString?
    let options ← fields.required "options" (Json.asList? read)
    return .variants discriminator options
  | .union => (fields.required "options" (Json.asList? read)).map .union
  | .optional => (fields.required "inner" read).map .optional
  | .nullable => (fields.required "inner" read).map .nullable
  | .defaulted => do
    let inner ← fields.required "inner" read
    let value ← fields.defaulted "value" .null Json.asAny?
    return .defaulted inner value
  | .effects => (fields.required "inner" read).map .effects
  | .literal => (fields.defaulted "value" .null Json.asAny?).map .literal
  | .string => do
    let format ← fields.optional "format" Json.asString?
    let minLength ← fields.optional "min_length" Json.asNat?
    let maxLength ← fields.optional "max_length" Json.asNat?
    let pattern ← fields.optional "pattern" Json.asString?
    return .string format minLength maxLength pattern
  | .number => do
    let integer ← fields.defaulted "integer" false Json.asBool?
    let minimum ← fields.optional "minimum" bound?
    let maximum ← fields.optional "maximum" bound?
    return .number integer minimum maximum
  | .boolean => some .boolean
  | .date => some .date
  | .null => some .null
  | .any => some .any
  | .enumeration => (fields.required "values" (Json.asList? Json.asString?)).map .enumeration
  | .record => (fields.required "value" read).map .record
  | .tuple => (fields.required "items" (Json.asList? read)).map .tuple
  | .reference => (fields.required "collection" Json.asString?).map .reference
  | .other => (fields.required "type_name" Json.asString?).map .other
  | .unrecognized => some .unrecognized

/-- Reads a shape that has room for `room` levels of shapes. -/
def read? (nested : Bool) (room : Nat) (tree : Json) : Option Shape :=
  match room with
  | 0 => none
  | room + 1 =>
    (tagged? nested tree).bind fun (kind, fields) ↦
      (Record.of? kind.fieldNames fields).bind (ofFields? (read? true room) kind)

/-- The shape that a tree as written holds. -/
def ofJson? (tree : Json) : Option Shape := read? false (tree.depth + 1) tree

end Shape

end ContentSchema
