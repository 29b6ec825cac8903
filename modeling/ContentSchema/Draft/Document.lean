import ContentSchema.Decimal.Shortest
import ContentSchema.Json.Basic
/-!
# Schema documents

The JSON-Schema documents (draft 7) that each kind of shape has, as functions of the documents of
the shapes inside it. Members stand in a fixed order.

A conversion error belongs to a single shape: either its kind has no document at all, or the shape
is malformed. `Draft.fallback` is the document that stands in for such a shape.
-/

namespace ContentSchema

/-- Why a shape has no document. -/
inductive ConversionError where
  /-- The kind has no document. -/
  | unsupported (kind : String)
  /-- The shape is malformed. -/
  | invalid (kind message : String)
deriving DecidableEq, Repr

/-- The text of a conversion error. -/
def ConversionError.message : ConversionError → String
  | .unsupported kind => kind ++ " nodes have no JSON Schema representation"
  | .invalid kind message => "invalid " ++ kind ++ " node: " ++ message

/-- The name of a bound that is not finite. -/
def Real64.display : Real64 → String
  | .finite value => (⟨-5, 16, ""⟩ : DecimalFormat).renderReal value
  | .infinite true => "-inf"
  | .infinite false => "inf"
  | .nan => "NaN"

namespace Draft

/-- The document of an object without fields, for shapes that have none. -/
def fallback : Json := .obj [("type", .str "object"), ("properties", .obj [])]

/-- A document that names a type and no more. -/
def typed (type : String) : Json := .obj [("type", .str type)]

/-- The document of an object; `required` is left out when it is empty. -/
def object (properties : List (String × Json)) (required : List String) : Json :=
  .obj ([("type", .str "object"), ("properties", .obj properties)] ++
    (if required.isEmpty then [] else [("required", .arr (required.map .str))]) ++
    [("additionalProperties", .bool false)])

/-- A member for a count, if there is one. -/
def counted (name : String) (count : Option Nat) : List (String × Json) :=
  (count.map fun n ↦ (name, Json.ofNat n)).toList

/-- A member for a text, if there is one. -/
def texted (name : String) (text : Option String) : List (String × Json) :=
  (text.map fun s ↦ (name, Json.str s)).toList

/-- The document of an array. -/
def array (items : Json) (minItems maxItems : Option Nat) : Json :=
  .obj ([("type", .str "array"), ("items", items)] ++ counted "minItems" minItems ++
    counted "maxItems" maxItems)

/-- The document of a tuple, whose length is fixed. -/
def tuple (items : List Json) : Json :=
  .obj [("type", .str "array"), ("minItems", Json.ofNat items.length),
    ("maxItems", Json.ofNat items.length), ("items", .arr items)]

/-- The document of an object with any keys. -/
def record (values : Json) : Json :=
  .obj [("type", .str "object"), ("additionalProperties", values)]

/-- The document of a union. -/
def anyOf (options : List Json) : Json := .obj [("anyOf", .arr options)]

/-- The document that also admits null: a type becomes a list of types, a list gains `"null"` unless
it has it, and a document without a type becomes a union. -/
def nullable (doc : Json) : Json :=
  match doc with
  | .obj members =>
    match Keyed.find? members "type" with
    | some (.str type) => .obj (Keyed.insert members "type" (.arr [.str type, .str "null"]))
    | some (.arr types) =>
      if types.contains (.str "null") then doc
      else .obj (Keyed.insert members "type" (.arr (types ++ [.str "null"])))
    | _ => anyOf [doc, typed "null"]
  | _ => anyOf [doc, typed "null"]

/-- The document with a default value; only an object can carry one. -/
def withDefault (doc value : Json) : Json :=
  match doc with
  | .obj members => .obj (Keyed.insert members "default" value)
  | _ => doc

/-- The document of a string. -/
def string (format : Option String) (minLength maxLength : Option Nat) (pattern : Option String) :
    Json :=
  .obj ([("type", .str "string")] ++ texted "format" format ++ counted "minLength" minLength ++
    counted "maxLength" maxLength ++ texted "pattern" pattern)

/-- The document of one value, which must be a scalar. -/
def literal (value : Json) : Except ConversionError Json :=
  let constant (type : String) : Json := .obj [("type", .str type), ("const", value)]
  match value with
  | .null => .ok (typed "null")
  | .str _ => .ok (constant "string")
  | .bool _ => .ok (constant "boolean")
  | .num _ => .ok (constant "number")
  | .arr _ | .obj _ =>
    .error (.invalid "literal" "literal value must be a string, number, boolean or null")

/-- A bound as a JSON number: an integer when it has no fraction and is below `2 ^ 53`. -/
def bound (value : Real64) : Except ConversionError Json :=
  match value with
  | .finite x =>
    match x.toInt? with
    | some n => if n.natAbs < Nat.pow 2 53 then .ok (.num (.int n)) else .ok (.num (.real x))
    | none => .ok (.num (.real x))
  | value => .error (.invalid "number" ("bound " ++ value.display ++ " is not a finite number"))

/-- The member of a bound, if there is one. -/
def bounded (name : String) (value : Option Real64) : Except ConversionError (List (String × Json)) :=
  match value with
  | none => .ok []
  | some value => (bound value).map fun number ↦ [(name, number)]

/-- The document of a number. -/
def number (integer : Bool) (minimum maximum : Option Real64) : Except ConversionError Json := do
  let least ← bounded "minimum" minimum
  let greatest ← bounded "maximum" maximum
  return .obj ([("type", .str (if integer then "integer" else "number"))] ++ least ++ greatest)

/-- The document of one of several texts, of which there must be one. -/
def enumeration (values : List String) : Except ConversionError Json :=
  if values.isEmpty then .error (.invalid "enum" "no values")
  else .ok (.obj [("type", .str "string"), ("enum", .arr (values.map .str))])

/-- The document of a reference to an entry. -/
def reference (collection : String) : Json :=
  .obj [("type", .str "string"), ("reference", .str collection)]

end Draft

end ContentSchema
