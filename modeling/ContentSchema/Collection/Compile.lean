import ContentSchema.Collection.Finding
import ContentSchema.Collection.Walk
/-!
# Compiling declarations

A declaration is compiled by walking its shape; each finding about the result becomes a warning at
the root. Declarations are compiled one by one, so none can affect another.
-/

namespace ContentSchema

/-- The warning of a finding. -/
def Finding.warning (finding : Finding) : Warning := ⟨[], finding.message⟩

/-- Compiles a declaration, findings included. -/
def Declaration.compile (converter : Converter) (declaration : Declaration) : Collection :=
  let collection := declaration.walk converter
  { collection with warnings := collection.warnings ++ collection.findings.map Finding.warning }

end ContentSchema
