import ContentSchema.Json.Printer
import ContentSchema.Text.Uppercase
/-!
# Keys and labels of literals

A literal names a variant in two ways: `Json.literalKey` is its key in a dictionary, a string as it
is and anything else as its JSON text, and `Json.literalLabel` is the key made readable by
`humanize`.
-/

namespace ContentSchema

/-- Puts a space before every upper-case character but the first and gives the first its upper-case
form. -/
def humanize (raw : String) : String :=
  match raw.toList with
  | [] => ""
  | first :: rest =>
    String.ofList (toUppercase first ++ rest.flatMap fun c ↦ if isUppercase c then [' ', c] else [c])

namespace Json

/-- The dictionary key of a literal. -/
def literalKey : Json → String
  | .str text => text
  | value => value.compact

/-- The display label of a literal. -/
def literalLabel (value : Json) : String := humanize value.literalKey

end Json

end ContentSchema
