import ContentSchema.Collection.Enrich
/-!
# Schema sets

All the collections of one schema module, by name in declaration order, with the version of the
contract, the module they come from and the time they were compiled.
-/

namespace ContentSchema

/-- A compiled schema module. -/
structure SchemaSet where
  schemaVersion : String
  source : Option String
  generatedAt : String
  collections : Keyed Collection
deriving DecidableEq

namespace SchemaSet

/-- The version of the contract that compiled sets follow. -/
def contractVersion : String := "1.0.0"

/-- A set without collections. -/
def empty (generatedAt : String) : SchemaSet := ⟨contractVersion, none, generatedAt, []⟩

/-- The collection of a name. -/
def find? (set : SchemaSet) (name : String) : Option Collection := set.collections.find? name

/-- Adds a collection under its own name, in the place of one that has it. -/
def insert (set : SchemaSet) (collection : Collection) : SchemaSet :=
  { set with collections := Keyed.insert set.collections collection.name collection }

/-- The names, in order. -/
def names (set : SchemaSet) : List String := Keyed.keys set.collections

/-- How many collections there are. -/
def size (set : SchemaSet) : Nat := set.collections.length

/-- How many unions there are in all collections. -/
def unionCount (set : SchemaSet) : Nat :=
  (set.collections.values.flatMap Collection.unions).length

/-- The enriched schema of a collection. -/
def enrichedSchema? (set : SchemaSet) (name : String) : Option Json :=
  (set.find? name).map fun collection ↦ collection.schema.enrich collection.unions

/-- The set with every collection enriched. -/
def enriched (set : SchemaSet) : SchemaSet :=
  { set with collections := Keyed.mapValues Collection.enriched set.collections }

/-- The set of a list of collections. -/
def ofCollections (generatedAt : String) (source : Option String) (collections : List Collection) :
    SchemaSet :=
  collections.foldl SchemaSet.insert { empty generatedAt with source }

end SchemaSet

end ContentSchema
