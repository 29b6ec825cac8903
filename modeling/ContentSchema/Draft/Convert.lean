import ContentSchema.Draft.Document
import ContentSchema.Path
import ContentSchema.Shape.Basic
/-!
# From shapes to documents

`Shape.draft` converts a shape and fails on the first shape inside it that has no document, in
declaration order. `Shape.draftLenient` never fails: it puts the fallback document in the place of
each such shape and records where that happened. The place of a shape is the path of fields and
array items that leads to it; options of unions, values of records and wrappers add no hop.

A `Converter` is a strict and a lenient conversion. `Converter.draft` is the pair above, and
`Converter.whole` makes a strict conversion lenient by falling back for the whole shape.
-/

namespace ContentSchema

namespace Shape

/-- Whether an object's field of this shape may be left out. Nullable does not say so, and hides
what stands below it. -/
def mayBeAbsent : Shape → Bool
  | .optional _ | .defaulted _ _ => true
  | .effects inner => mayBeAbsent inner
  | _ => false

/-- The names of the fields that must be present, in order. -/
def requiredNames (fields : List (String × Shape)) : List String :=
  (fields.filter fun field ↦ !field.2.mayBeAbsent).map (·.1)

/-! ### Strict -/

mutual

/-- The document of a shape, or the error of the first shape inside it that has none. -/
def draft : Shape → Except ConversionError Json
  | .object fields => (draftFields fields).map fun docs ↦ Draft.object docs (requiredNames fields)
  | .array element minItems maxItems =>
    (draft element).map fun doc ↦ Draft.array doc minItems maxItems
  | .variants _ options => (draftAll options).map Draft.anyOf
  | .union options => (draftAll options).map Draft.anyOf
  | .optional inner => draft inner
  | .nullable inner => (draft inner).map Draft.nullable
  | .defaulted inner value => (draft inner).map fun doc ↦ Draft.withDefault doc value
  | .effects inner => draft inner
  | .literal value => Draft.literal value
  | .string format minLength maxLength pattern =>
    .ok (Draft.string format minLength maxLength pattern)
  | .number integer minimum maximum => Draft.number integer minimum maximum
  | .boolean => .ok (Draft.typed "boolean")
  | .date => .ok (.obj [("type", .str "string"), ("format", .str "date-time")])
  | .null => .ok (Draft.typed "null")
  | .any => .ok (.obj [])
  | .enumeration values => Draft.enumeration values
  | .record value => (draft value).map Draft.record
  | .tuple items => (draftAll items).map Draft.tuple
  | .reference collection => .ok (Draft.reference collection)
  | .other typeName => .error (.unsupported typeName)
  | .unrecognized => .error (.unsupported Kind.unrecognized.name)

/-- The documents of a list of shapes. -/
def draftAll : List Shape → Except ConversionError (List Json)
  | [] => .ok []
  | shape :: shapes => do
    let doc ← draft shape
    let docs ← draftAll shapes
    return doc :: docs

/-- The documents of the fields of an object. -/
def draftFields : List (String × Shape) → Except ConversionError (List (String × Json))
  | [] => .ok []
  | (name, shape) :: fields => do
    let doc ← draft shape
    let docs ← draftFields fields
    return (name, doc) :: docs

end

end Shape

/-! ### Lenient -/

/-- A shape that was replaced by the fallback document. -/
structure Failure where
  path : Path
  error : ConversionError
deriving DecidableEq

/-- The result of a lenient conversion. -/
structure Converted where
  doc : Json
  failures : List Failure

namespace Converted

/-- Changes the document. -/
def map (f : Json → Json) (converted : Converted) : Converted := { converted with doc := f converted.doc }

/-- A strict result at a path, an error replaced by the fallback document. -/
def ofExcept (path : Path) : Except ConversionError Json → Converted
  | .ok doc => ⟨doc, []⟩
  | .error error => ⟨Draft.fallback, [⟨path, error⟩]⟩

end Converted

namespace Shape

mutual

/-- The document of a shape at a path, with the failures inside it. -/
def draftLenient (path : Path) : Shape → Converted
  | .object fields =>
    let (docs, failures) := draftFieldsLenient path fields
    ⟨Draft.object docs (requiredNames fields), failures⟩
  | .array element minItems maxItems =>
    (draftLenient (path ++ [.items]) element).map fun doc ↦ Draft.array doc minItems maxItems
  | .variants _ options =>
    let (docs, failures) := draftAllLenient path options
    ⟨Draft.anyOf docs, failures⟩
  | .union options =>
    let (docs, failures) := draftAllLenient path options
    ⟨Draft.anyOf docs, failures⟩
  | .optional inner => draftLenient path inner
  | .nullable inner => (draftLenient path inner).map Draft.nullable
  | .defaulted inner value => (draftLenient path inner).map fun doc ↦ Draft.withDefault doc value
  | .effects inner => draftLenient path inner
  | .literal value => .ofExcept path (Draft.literal value)
  | .string format minLength maxLength pattern =>
    ⟨Draft.string format minLength maxLength pattern, []⟩
  | .number integer minimum maximum => .ofExcept path (Draft.number integer minimum maximum)
  | .boolean => ⟨Draft.typed "boolean", []⟩
  | .date => ⟨.obj [("type", .str "string"), ("format", .str "date-time")], []⟩
  | .null => ⟨Draft.typed "null", []⟩
  | .any => ⟨.obj [], []⟩
  | .enumeration values => .ofExcept path (Draft.enumeration values)
  | .record value => (draftLenient path value).map Draft.record
  | .tuple items =>
    let (docs, failures) := draftAllLenient (path ++ [.items]) items
    ⟨Draft.tuple docs, failures⟩
  | .reference collection => ⟨Draft.reference collection, []⟩
  | .other typeName => .ofExcept path (.error (.unsupported typeName))
  | .unrecognized => .ofExcept path (.error (.unsupported Kind.unrecognized.name))

/-- The documents of a list of shapes that all stand at one path. -/
def draftAllLenient (path : Path) : List Shape → List Json × List Failure
  | [] => ([], [])
  | shape :: shapes =>
    let converted := draftLenient path shape
    let (docs, failures) := draftAllLenient path shapes
    (converted.doc :: docs, converted.failures ++ failures)

/-- The documents of the fields of an object, each at the path of its name. -/
def draftFieldsLenient (path : Path) : List (String × Shape) → List (String × Json) × List Failure
  | [] => ([], [])
  | (name, shape) :: fields =>
    let converted := draftLenient (path ++ [.field name]) shape
    let (docs, failures) := draftFieldsLenient path fields
    ((name, converted.doc) :: docs, converted.failures ++ failures)

end

end Shape

/-! ### Converters -/

/-- A conversion of shapes, strict and lenient. -/
structure Converter where
  strict : Shape → Except ConversionError Json
  lenient : Path → Shape → Converted

namespace Converter

/-- Falls back shape by shape. -/
def draft : Converter := ⟨Shape.draft, Shape.draftLenient⟩

/-- Falls back for the whole shape. -/
def whole (strict : Shape → Except ConversionError Json) : Converter :=
  ⟨strict, fun path shape ↦ .ofExcept path (strict shape)⟩

end Converter

end ContentSchema
