import ContentSchema.Decimal.Binary64
import ContentSchema.Json.Basic
/-!
# Shapes

A shape is a validation schema as the schema module builds it in memory: objects, arrays, unions,
scalars with their rules, and wrappers around another shape. A shape of a kind that the runtime
cannot describe is `other`, and one whose kind is unknown here is `unrecognized`; both are opaque.

`Shape.Kind` is the closed list of kinds. `Shape.wrapped?` says which kinds are transparent: they
change how a value may be missing or null, but not where it stands.
-/

namespace ContentSchema

/-- A validation schema. -/
inductive Shape where
  /-- An object with the given fields, in order. -/
  | object (fields : List (String × Shape))
  /-- An array of one kind of element, of bounded length. -/
  | array (element : Shape) (minItems maxItems : Option Nat)
  /-- A union of objects told apart by the literal in one field. -/
  | variants (discriminator : String) (options : List Shape)
  /-- A plain union. -/
  | union (options : List Shape)
  /-- May be absent. -/
  | optional (inner : Shape)
  /-- May be null. -/
  | nullable (inner : Shape)
  /-- Is `value` when absent. -/
  | defaulted (inner : Shape) (value : Json)
  /-- Refinements, transforms, brands and other wrappers that a schema cannot show. -/
  | effects (inner : Shape)
  /-- One value. -/
  | literal (value : Json)
  /-- Text. -/
  | string (format : Option String) (minLength maxLength : Option Nat) (pattern : Option String)
  /-- A number between two bounds. -/
  | number (integer : Bool) (minimum maximum : Option Real64)
  | boolean
  | date
  | null
  | any
  /-- One of the given texts. -/
  | enumeration (values : List String)
  /-- An object with any keys and one kind of value. -/
  | record (value : Shape)
  /-- An array with a shape for each place. -/
  | tuple (items : List Shape)
  /-- The key of an entry of another collection. -/
  | reference (collection : String)
  /-- A library type without a description. -/
  | other (typeName : String)
  /-- A kind that is not in the list. -/
  | unrecognized

namespace Shape

instance : Inhabited Shape := ⟨.unrecognized⟩

/-- The kinds of shapes. -/
inductive Kind where
  | object | array | variants | union | optional | nullable | defaulted | effects | literal | string
  | number | boolean | date | null | any | enumeration | record | tuple | reference | other
  | unrecognized
deriving DecidableEq, Repr

namespace Kind

/-- All kinds, in the order of their numbers. -/
def all : List Kind :=
  [.object, .array, .variants, .union, .optional, .nullable, .defaulted, .effects, .literal, .string,
    .number, .boolean, .date, .null, .any, .enumeration, .record, .tuple, .reference, .other,
    .unrecognized]

/-- The written name of a kind. -/
def name : Kind → String
  | .object => "object"
  | .array => "array"
  | .variants => "discriminated_union"
  | .union => "union"
  | .optional => "optional"
  | .nullable => "nullable"
  | .defaulted => "default"
  | .effects => "effects"
  | .literal => "literal"
  | .string => "string"
  | .number => "number"
  | .boolean => "boolean"
  | .date => "date"
  | .null => "null"
  | .any => "any"
  | .enumeration => "enum"
  | .record => "record"
  | .tuple => "tuple"
  | .reference => "reference"
  | .other => "other"
  | .unrecognized => "unrecognized"

/-- The kind of a written name; every unknown name is `unrecognized`. -/
def ofName (name : String) : Kind := (all.find? (·.name == name)).getD .unrecognized

end Kind

/-- The kind of a shape. -/
def kind : Shape → Kind
  | .object .. => .object
  | .array .. => .array
  | .variants .. => .variants
  | .union .. => .union
  | .optional .. => .optional
  | .nullable .. => .nullable
  | .defaulted .. => .defaulted
  | .effects .. => .effects
  | .literal .. => .literal
  | .string .. => .string
  | .number .. => .number
  | .boolean => .boolean
  | .date => .date
  | .null => .null
  | .any => .any
  | .enumeration .. => .enumeration
  | .record .. => .record
  | .tuple .. => .tuple
  | .reference .. => .reference
  | .other .. => .other
  | .unrecognized => .unrecognized

/-- The shape inside a transparent wrapper. -/
def wrapped? : Shape → Option Shape
  | .optional inner | .nullable inner | .defaulted inner _ | .effects inner => some inner
  | _ => none

/-- The fields of an object. -/
def fields? : Shape → Option (List (String × Shape))
  | .object fields => some fields
  | _ => none

/-- The value of a literal. -/
def literal? : Shape → Option Json
  | .literal value => some value
  | _ => none

theorem Kind.ofName_name (k : Kind) : Kind.ofName k.name = k := by cases k <;> decide

end Shape

end ContentSchema
