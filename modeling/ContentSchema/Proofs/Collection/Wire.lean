import ContentSchema.Collection.Compile
import ContentSchema.Proofs.Json.Layout
import ContentSchema.Proofs.Json.Records
import ContentSchema.Report
/-!
# Sets through their JSON form

What a set's JSON report holds, read back (`SchemaSet.read?_report`): the same set, member by member
and in order, except that the hops of its paths have been read from their texts. The text of the hop
into an array's items is also the text of a field of that name, so a set comes back as it was exactly
if none of its paths passes through such a field (`SchemaSet.reread_eq_self_iff`).

Each type has its three lemmas: its reader reads back what its writer wrote, up to the paths; its
layout looks at all that the writer wrote; and rereading changes nothing exactly if no path inside
changes.
-/

namespace ContentSchema

theorem map_eq_self_iff {α : Type} {f : α → α} {xs : List α} :
    xs.map f = xs ↔ ∀ x ∈ xs, f x = x := by
  induction xs with
  | nil => simp
  | cons x xs ih => rw [List.map_cons, List.cons_eq_cons, ih, List.forall_mem_cons]

/-! ### Paths -/

/-- A hop as it is read from its text. -/
def Hop.reread (hop : Hop) : Hop := ofText hop.text

/-- The one hop that is read back as another is a field named like the marker of array items. -/
theorem Hop.reread_eq_self_iff {hop : Hop} : hop.reread = hop ↔ hop ≠ .field marker := by
  cases hop with
  | items => simp [reread, Hop.ofText_text_items]
  | field name =>
    by_cases hname : name = marker
    · simp [hname, reread, text, ofText]
    · simp [hname, reread, Hop.ofText_text_field]

namespace Path

/-- A path as it is read from its texts. -/
def reread (path : Path) : Path := path.map Hop.reread

/-- A path is read back hop by hop. -/
theorem ofJson?_toJson (path : Path) : ofJson? path.toJson = some path.reread :=
  Json.asList?_map fun _ _ ↦ rfl

/-- A path is read back as itself if no field in it is named like the marker. -/
theorem reread_eq_self_iff {path : Path} : path.reread = path ↔ .field Hop.marker ∉ path := by
  rw [reread, map_eq_self_iff]
  simp only [Hop.reread_eq_self_iff, ne_eq]
  exact ⟨fun h hmem ↦ h _ hmem rfl, fun h hop hmem heq ↦ h (heq ▸ hmem)⟩

end Path

/-- A collection type is read back as itself. -/
theorem CollectionType.ofJson?_toJson (type : CollectionType) : ofJson? type.toJson = some type :=
  ofName?_name type

/-! ### Unions -/

namespace Variant

/-- The values in the variant are JSON values. -/
def Settled (variant : Variant) : Prop := variant.value.Settled ∧ variant.schema.Settled

/-- A variant is read back as itself: its value and its document are trees already. -/
theorem ofJson?_toJson {variant : Variant} (h : variant.Settled) :
    ofJson? variant.toJson = some variant := by
  have hrecord : Record.of? ["value", "label", "schema"] variant.toJson =
      some [("value", variant.value), ("label", .str variant.label), ("schema", variant.schema)] :=
    Record.of?_obj (by simp) (by simp)
  rw [ofJson?, hrecord]
  simp [Record.required, Keyed.find?_cons, Json.asAny?, Json.asString?, Json.settle_of_settled h.1,
    Json.settle_of_settled h.2]

end Variant

namespace VariantUnion

/-- The values in the union are JSON values. -/
def Settled (union : VariantUnion) : Prop := ∀ variant ∈ union.options, variant.Settled

/-- A union as it is read from its JSON form. -/
def reread (union : VariantUnion) : VariantUnion := { union with path := union.path.reread }

/-- A union is read back as itself if its path is. -/
theorem reread_eq_self_iff {union : VariantUnion} :
    union.reread = union ↔ union.path.reread = union.path :=
  ⟨congrArg path, fun h ↦ by rw [reread, h]⟩

/-- A union is read back with its path as that is read back. -/
theorem ofJson?_toJson {union : VariantUnion} (h : union.Settled) :
    ofJson? union.toJson = some union.reread := by
  have hrecord : Record.of? ["path", "discriminator", "options"] union.toJson =
      some [("path", union.path.toJson), ("discriminator", .str union.discriminator),
        ("options", .arr (union.options.map Variant.toJson))] :=
    Record.of?_obj (by simp) (by simp)
  have hoptions : Json.asList? Variant.ofJson? (.arr (union.options.map Variant.toJson)) =
      some (union.options.map id) :=
    Json.asList?_map fun variant hvariant ↦ Variant.ofJson?_toJson (h variant hvariant)
  rw [ofJson?, hrecord]
  simp [Record.required, Keyed.find?_cons, Json.asString?, Path.ofJson?_toJson, hoptions, reread]

theorem keeps_toJson (union : VariantUnion) : layout.Keeps union.toJson := by
  have hoption : ∀ variant : Variant,
      (Layout.record [("value", .all), ("label", .all), ("schema", .all)]).Keeps variant.toJson := by
    intro variant
    refine Layout.keeps_record ?_
    simp only [List.forall_mem_cons]
    exact ⟨⟨_, rfl, Layout.keeps_all _⟩, ⟨_, rfl, Layout.keeps_all _⟩, ⟨_, rfl, Layout.keeps_all _⟩,
      by simp⟩
  refine Layout.keeps_record ?_
  simp only [List.forall_mem_cons]
  exact ⟨⟨_, rfl, Layout.keeps_all _⟩, ⟨_, rfl, Layout.keeps_all _⟩,
    ⟨_, rfl, Layout.keeps_list (List.forall_mem_map.2 fun variant _ ↦ hoption variant)⟩, by simp⟩

end VariantUnion

/-! ### Warnings -/

namespace Warning

/-- A warning as it is read from its JSON form. -/
def reread (warning : Warning) : Warning := { warning with path := warning.path.reread }

/-- A collection is read back as itself if all paths of its unions and warnings are. -/
theorem reread_eq_self_iff {warning : Warning} :
    warning.reread = warning ↔ warning.path.reread = warning.path :=
  ⟨congrArg path, fun h ↦ by rw [reread, h]⟩

/-- A warning is read back with its path as that is read back. -/
theorem ofJson?_toJson (warning : Warning) : ofJson? warning.toJson = some warning.reread := by
  have hrecord : Record.of? ["path", "message"] warning.toJson =
      some [("path", warning.path.toJson), ("message", .str warning.message)] :=
    Record.of?_obj (by simp) (by simp)
  rw [ofJson?, hrecord]
  simp [Record.required, Keyed.find?_cons, Json.asString?, Path.ofJson?_toJson, reread]

theorem keeps_toJson (warning : Warning) :
    (Layout.record [("path", .all), ("message", .all)]).Keeps warning.toJson := by
  refine Layout.keeps_record ?_
  simp only [List.forall_mem_cons]
  exact ⟨⟨_, rfl, Layout.keeps_all _⟩, ⟨_, rfl, Layout.keeps_all _⟩, by simp⟩

end Warning

/-! ### Collections -/

namespace Collection

/-- The values in the collection are JSON values. -/
def Settled (collection : Collection) : Prop :=
  collection.schema.Settled ∧ ∀ union ∈ collection.unions, union.Settled

/-- A collection as it is read from its JSON form. -/
def reread (collection : Collection) : Collection :=
  { collection with
    unions := collection.unions.map VariantUnion.reread
    warnings := collection.warnings.map Warning.reread }

/-- The paths of the unions and of the warnings. -/
def paths (collection : Collection) : List Path :=
  collection.unions.map VariantUnion.path ++ collection.warnings.map Warning.path

theorem reread_eq_self_iff {collection : Collection} :
    collection.reread = collection ↔ ∀ path ∈ collection.paths, path.reread = path := by
  have hparts : collection.reread = collection ↔
      collection.unions.map VariantUnion.reread = collection.unions ∧
        collection.warnings.map Warning.reread = collection.warnings :=
    ⟨fun h ↦ ⟨congrArg unions h, congrArg warnings h⟩, fun ⟨hunions, hwarnings⟩ ↦ by
      rw [reread, hunions, hwarnings]⟩
  simp only [hparts, map_eq_self_iff, VariantUnion.reread_eq_self_iff, Warning.reread_eq_self_iff,
    paths, List.forall_mem_append, List.forall_mem_map]

/-- The members that a collection has on the wire. -/
def members (collection : Collection) : List (String × Json) :=
  [("name", .str collection.name), ("type", collection.type.toJson), ("schema", collection.schema),
    ("discriminatedUnions", .arr (collection.unions.map VariantUnion.toJson))] ++
    if collection.warnings.isEmpty then []
    else [("warnings", .arr (collection.warnings.map Warning.toJson))]

/-- Warnings that are left out are read as none. -/
theorem defaulted_warnings (collection : Collection) :
    Record.defaulted collection.members "warnings" [] (Json.asList? Warning.ofJson?) =
      some (collection.warnings.map Warning.reread) := by
  have hread : Json.asList? Warning.ofJson? (.arr (collection.warnings.map Warning.toJson)) =
      some (collection.warnings.map Warning.reread) :=
    Json.asList?_map fun warning _ ↦ warning.ofJson?_toJson
  obtain ⟨name, type, schema, unions, warnings⟩ := collection
  cases warnings with
  | nil => rfl
  | cons warning warnings => exact Record.defaulted_of_find? rfl hread

/-- A collection is read back with all its paths as they are read back; no warnings are read from
none written. -/
theorem ofJson?_toJson {collection : Collection} (h : collection.Settled) :
    ofJson? collection.toJson = some collection.reread := by
  have hrecord : Record.of? ["name", "type", "schema", "discriminatedUnions", "warnings"]
      collection.toJson = some collection.members := by
    refine Record.of?_obj ?_ ?_ <;> split <;> simp
  have hname : Record.required collection.members "name" Json.asString? = some collection.name :=
    Record.required_of_find? rfl rfl
  have htype : Record.required collection.members "type" CollectionType.ofJson? =
      some collection.type :=
    Record.required_of_find? rfl (CollectionType.ofJson?_toJson collection.type)
  have hschema : Record.required collection.members "schema" Json.asAny? =
      some collection.schema :=
    Record.required_of_find? rfl (congrArg some (Json.settle_of_settled h.1))
  have hunions : Record.required collection.members "discriminatedUnions"
      (Json.asList? VariantUnion.ofJson?) = some (collection.unions.map VariantUnion.reread) :=
    Record.required_of_find? rfl
      (Json.asList?_map fun union hunion ↦ VariantUnion.ofJson?_toJson (h.2 union hunion))
  rw [ofJson?, hrecord]
  simp [hname, htype, hschema, hunions, defaulted_warnings, reread]

theorem keeps_toJson (collection : Collection) : layout.Keeps collection.toJson := by
  refine Layout.keeps_record ?_
  simp only [List.forall_mem_append, List.forall_mem_cons]
  refine ⟨⟨⟨_, rfl, Layout.keeps_all _⟩, ⟨_, rfl, Layout.keeps_all _⟩, ⟨_, rfl, Layout.keeps_all _⟩,
    ⟨_, rfl, Layout.keeps_list (List.forall_mem_map.2 fun union _ ↦ union.keeps_toJson)⟩, by simp⟩, ?_⟩
  split
  · simp
  · exact List.forall_mem_singleton.2
      ⟨_, rfl, Layout.keeps_list (List.forall_mem_map.2 fun warning _ ↦ warning.keeps_toJson)⟩

end Collection

/-! ### Sets -/

namespace SchemaSet

/-- The collections are a dictionary, and the values in them are JSON values. -/
def Settled (set : SchemaSet) : Prop :=
  set.collections.DistinctKeys ∧ ∀ entry ∈ set.collections, entry.2.Settled

/-- A set as it is read from its JSON form. -/
def reread (set : SchemaSet) : SchemaSet :=
  { set with collections := set.collections.mapValues Collection.reread }

/-- The paths of the unions and of the warnings of all collections. -/
def paths (set : SchemaSet) : List Path := set.collections.flatMap fun entry ↦ entry.2.paths

/-- Rereading changes a set exactly if a path in it passes through a field whose name is the text of
the hop into an array's items. -/
theorem reread_eq_self_iff {set : SchemaSet} :
    set.reread = set ↔ ∀ path ∈ set.paths, .field Hop.marker ∉ path := by
  have hcollections : set.reread = set ↔
      set.collections.mapValues Collection.reread = set.collections :=
    ⟨congrArg collections, fun h ↦ by rw [reread, h]⟩
  have hentry : ∀ entry : String × Collection, (entry.1, entry.2.reread) = entry ↔
      ∀ path ∈ entry.2.paths, .field Hop.marker ∉ path := fun entry ↦ by
    simp only [← Path.reread_eq_self_iff, ← Collection.reread_eq_self_iff]
    exact ⟨congrArg Prod.snd, fun h ↦ Prod.ext rfl h⟩
  simp only [hcollections, Keyed.mapValues, map_eq_self_iff, hentry, paths, List.forall_mem_flatMap]

/-- The members that a set has on the wire. -/
def members (set : SchemaSet) : List (String × Json) :=
  [("schema_version", .str set.schemaVersion)] ++
    (match set.source with
      | none => []
      | some source => [("source", .str source)]) ++
    [("generated_at", .str set.generatedAt),
      ("collections", .obj (set.collections.mapValues Collection.toJson))]

/-- The members after the version, with or without a source before them. -/
theorem find?_members (set : SchemaSet) :
    Keyed.find? set.members "source" = set.source.map .str ∧
      Keyed.find? set.members "generated_at" = some (.str set.generatedAt) ∧
      Keyed.find? set.members "collections" =
        some (.obj (set.collections.mapValues Collection.toJson)) := by
  obtain ⟨version, source, generatedAt, collections⟩ := set
  cases source <;> exact ⟨rfl, rfl, rfl⟩

/-- The wire form of a set holds the set, with its paths as they read from their texts. -/
theorem ofJson?_toJson {set : SchemaSet} (h : set.Settled) :
    ofJson? set.toJson = some set.reread := by
  have hrecord : Record.of? ["schema_version", "source", "generated_at", "collections"] set.toJson =
      some set.members := by
    refine Record.of?_obj ?_ ?_ <;> split <;> simp
  have hversion : Record.required set.members "schema_version" Json.asString? =
      some set.schemaVersion := Record.required_of_find? rfl rfl
  obtain ⟨hfirst, hsecond, hthird⟩ := set.find?_members
  have hsource : Record.optional set.members "source" Json.asString? = some set.source :=
    Record.optional_asString? hfirst
  have hgenerated : Record.required set.members "generated_at" Json.asString? =
      some set.generatedAt := Record.required_of_find? hsecond rfl
  have hcollections : Record.required set.members "collections"
      (Json.asKeyed? Collection.ofJson?) = some (set.collections.mapValues Collection.reread) :=
    Record.required_of_find? hthird (Json.asKeyed?_mapValues h.1 fun entry hentry ↦
      Collection.ofJson?_toJson (h.2 entry hentry))
  rw [ofJson?, hrecord]
  simp [hversion, hsource, hgenerated, hcollections, reread]

theorem keeps_toJson (set : SchemaSet) : layout.Keeps set.toJson := by
  refine Layout.keeps_record ?_
  simp only [List.forall_mem_append, List.forall_mem_cons]
  refine ⟨⟨⟨⟨_, rfl, Layout.keeps_all _⟩, by simp⟩, ?_⟩, ⟨_, rfl, Layout.keeps_all _⟩,
    ⟨_, rfl, Layout.keeps_keyed (List.forall_mem_map.2 fun entry _ ↦ entry.2.keeps_toJson)⟩, by simp⟩
  split
  · simp
  · exact List.forall_mem_singleton.2 ⟨_, rfl, Layout.keeps_all _⟩

/-- What the JSON report of a set holds, read back. -/
theorem read?_report {set : SchemaSet} (h : set.Settled) (hnumbers : set.toJson.NumbersReadBack)
    (hdepth : set.toJson.depth ≤ Written.maxDepth) :
    read? (set.report .json) = some set.reread :=
  (Layout.read?_pretty hnumbers hdepth set.keeps_toJson).trans (ofJson?_toJson h)

end SchemaSet

end ContentSchema
