import ContentSchema.Collection.Basic
import ContentSchema.Text.Blank
/-!
# Findings

What is wrong with a compiled collection that an editor would stumble over: a blank name, a union
without a discriminator or without options, a variant key that repeats, and a path with two unions.
-/

namespace ContentSchema

/-- Something wrong with a collection; paths are given by their display text. -/
inductive Finding where
  | emptyName
  | emptyDiscriminator (path : String)
  | noOptions (path : String)
  | repeatedVariant (path key : String)
  | repeatedPath (path : String)
deriving DecidableEq, Repr

/-- The text of a finding. -/
def Finding.message : Finding → String
  | .emptyName => "collection name cannot be empty"
  | .emptyDiscriminator path => "discriminated union at " ++ path ++ " has an empty discriminator"
  | .noOptions path => "discriminated union at " ++ path ++ " has no usable options"
  | .repeatedVariant path key => "discriminated union at " ++ path ++ " repeats block type " ++ key
  | .repeatedPath path => "more than one discriminated union recorded at " ++ path

/-- A finding for each key that stands in `seen` or earlier in the list. -/
def repeatedKeys (path : String) (seen : List String) : List String → List Finding
  | [] => []
  | key :: keys =>
    if key ∈ seen then .repeatedVariant path key :: repeatedKeys path seen keys
    else repeatedKeys path (key :: seen) keys

/-- The findings of one union. -/
def VariantUnion.findings (union : VariantUnion) : List Finding :=
  let path := union.path.display
  (if isBlankText union.discriminator then [.emptyDiscriminator path] else []) ++
    if union.options.isEmpty then [.noOptions path]
    else repeatedKeys path [] (union.options.map Variant.key)

/-- The findings of a list of unions, given the paths seen before. -/
def unionFindings (seen : List String) : List VariantUnion → List Finding
  | [] => []
  | union :: unions =>
    let path := union.path.display
    (if path ∈ seen then [.repeatedPath path] else []) ++ union.findings ++
      unionFindings (path :: seen) unions

/-- The findings of a collection. -/
def Collection.findings (collection : Collection) : List Finding :=
  (if isBlankText collection.name then [.emptyName] else []) ++ unionFindings [] collection.unions

end ContentSchema
