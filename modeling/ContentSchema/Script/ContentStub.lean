import ContentSchema.Json.Printer
/-!
# The stub of the content module

A schema module imports the host framework's content module, which is not there at compile time. The
stub stands in for it: it exports the validation library again, makes declaring a collection the
identity, and makes a reference a tagged object that the runtime can recognize.
-/

namespace ContentSchema

/-- The source text of the stub for a validation library. -/
def stubSource (validationLibrary : String) : String :=
  let library := Json.quoted validationLibrary
  "export \x7b z \x7d from " ++ library ++ ";\n" ++
  "export * from " ++ library ++ ";\n" ++
  "export const defineCollection = (config) => config;\n" ++
  "export const reference = (collection) => (\x7b _type: \"reference\", collection \x7d);\n"

end ContentSchema
