import ContentSchema.Collection.Basic
import ContentSchema.Draft.Convert
/-!
# Walking a shape

A walk converts a shape leniently and lists its discriminated unions. A union is found where fields,
array items and transparent wrappers lead to it, and nowhere else: `Shape.unionSites` is that list,
depth first in declaration order, and it does not depend on the converter.

Each option of a union is converted once more on its own. An option is usable when it is an object
whose discriminator field is a literal scalar; any other one is skipped with a warning. A failed
conversion is reported once, by its path and message.
-/

namespace ContentSchema

/-- A discriminated union at its place in a shape. -/
structure UnionSite where
  path : Path
  discriminator : String
  options : List Shape

namespace Shape

mutual

/-- The discriminated unions of a shape that stands at `path`. -/
def unionSites (path : Path) : Shape → List UnionSite
  | .variants discriminator options => [⟨path, discriminator, options⟩]
  | .object fields => fieldSites path fields
  | .array element _ _ => unionSites (path ++ [.items]) element
  | .optional inner => unionSites path inner
  | .nullable inner => unionSites path inner
  | .defaulted inner _ => unionSites path inner
  | .effects inner => unionSites path inner
  | _ => []

/-- The discriminated unions of the fields of an object. -/
def fieldSites (path : Path) : List (String × Shape) → List UnionSite
  | [] => []
  | (name, shape) :: fields => unionSites (path ++ [.field name]) shape ++ fieldSites path fields

end

end Shape

/-- Why an option of a discriminated union is skipped. -/
inductive SkipReason where
  | notAnObject
  | noDiscriminator
  | notALiteral
  | notAScalar
deriving DecidableEq, Repr

/-- The text of a reason. -/
def SkipReason.message : SkipReason → String
  | .notAnObject => "option is not an object"
  | .noDiscriminator => "option has no discriminator field"
  | .notALiteral => "discriminator field is not a literal"
  | .notAScalar => "discriminator literal is not a scalar"

/-- The literal that an option gives to the discriminator. -/
def Shape.discriminatorValue (option : Shape) (discriminator : String) : Except SkipReason Json :=
  match option.fields? with
  | none => .error .notAnObject
  | some fields =>
    match Keyed.find? fields discriminator with
    | none => .error .noDiscriminator
    | some field =>
      match field.literal? with
      | none => .error .notALiteral
      | some value => if value.isContainer then .error .notAScalar else .ok value

/-- The warning of a failed conversion. -/
def Failure.warning (failure : Failure) : Warning := ⟨failure.path, failure.error.message⟩

/-- Adds the warnings of failures that are not reported yet. -/
def reportFailures (warnings : List Warning) (failures : List Failure) : List Warning :=
  failures.foldl
    (fun warnings failure ↦
      if failure.warning ∈ warnings then warnings else warnings ++ [failure.warning])
    warnings

/-- The warning of a skipped option. -/
def skipWarning (path : Path) (index : Nat) (reason : SkipReason) : Warning :=
  ⟨path, "option " ++ toString index ++ " skipped: " ++ reason.message⟩

/-- The usable options from number `index` on, and the warnings with theirs added. -/
def extractOptions (converter : Converter) (path : Path) (discriminator : String) (index : Nat)
    (warnings : List Warning) : List Shape → List Variant × List Warning
  | [] => ([], warnings)
  | option :: options =>
    match option.discriminatorValue discriminator with
    | .error reason =>
      extractOptions converter path discriminator (index + 1)
        (warnings ++ [skipWarning path index reason]) options
    | .ok value =>
      let converted := converter.lenient path option
      let (variants, warnings) :=
        extractOptions converter path discriminator (index + 1)
          (reportFailures warnings converted.failures) options
      (⟨value, value.literalLabel, converted.doc⟩ :: variants, warnings)

/-- The unions at a list of sites, and the warnings with theirs added. -/
def extractUnions (converter : Converter) (warnings : List Warning) :
    List UnionSite → List VariantUnion × List Warning
  | [] => ([], warnings)
  | site :: sites =>
    let (options, warnings) :=
      extractOptions converter site.path site.discriminator 0 warnings site.options
    let (unions, warnings) := extractUnions converter warnings sites
    (⟨site.path, site.discriminator, options⟩ :: unions, warnings)

/-- What a walk finds. -/
structure Walked where
  schema : Json
  unions : List VariantUnion
  warnings : List Warning
deriving DecidableEq

/-- Converts a shape and finds its unions. -/
def Shape.walk (converter : Converter) (shape : Shape) : Walked :=
  let converted := converter.lenient [] shape
  let (unions, warnings) :=
    extractUnions converter (reportFailures [] converted.failures) (shape.unionSites [])
  ⟨converted.doc, unions, warnings⟩

/-- Compiles a declaration; one without a shape has the document of an object without fields. -/
def Declaration.walk (converter : Converter) (declaration : Declaration) : Collection :=
  let walked :=
    match declaration.shape with
    | some shape => shape.walk converter
    | none => ⟨Draft.fallback, [], []⟩
  ⟨declaration.name, declaration.type, walked.schema, walked.unions, walked.warnings⟩

end ContentSchema
