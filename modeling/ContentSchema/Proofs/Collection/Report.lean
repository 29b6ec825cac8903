import ContentSchema.Project.Compile
import ContentSchema.Proofs.Collection.Compile
import ContentSchema.Proofs.Collection.Wire
import ContentSchema.Proofs.Draft.Settled
import ContentSchema.Proofs.Walk.Unions
/-!
# Compiled sets and their JSON reports

Which of the sets that a module compiles to survive their JSON report. All values in such a set are
JSON values, since the shapes that a runtime reports hold such values (`settled_of_importedExports`),
their documents have each member once (`Shape.settled_draftLenient`), and the literals that tell
variants apart are scalars. So a compiled set reads back from its report up to the reading of its
paths, and as it was exactly if no path passes through a field named as the hop into an array's items
(`compiled_set_reads_back`). Such a field is all it takes (`compiled_set_reads_back_brackets`).
-/

namespace ContentSchema

/-! ### Exports -/

/-- All values in the exported shapes are JSON values, and the fields of objects dictionaries. -/
def ModuleExports.Settled (exports : ModuleExports) : Prop :=
  ∀ collections, exports.collections = some collections → ∀ exported ∈ collections,
    ∀ shape, exported.shape = some shape → shape.Settled

theorem Record.exists_read_of_optional {α : Type} {record : Record} {name : String}
    {read : Json → Option α} {value : α} (h : record.optional name read = some (some value)) :
    ∃ tree, read tree = some value := by
  unfold Record.optional at h
  split at h
  next => cases h
  next tree _ =>
    unfold Json.asOptional? at h
    split at h
    next => cases h
    next =>
      obtain ⟨_, hread, heq⟩ := Option.map_eq_some_iff.1 h
      exact ⟨_, Option.some.inj heq ▸ hread⟩

theorem ExportedCollection.settled_of_ofJson? {tree : Json} {exported : ExportedCollection}
    (h : ofJson? tree = some exported) {shape : Shape} (hshape : exported.shape = some shape) :
    shape.Settled := by
  obtain ⟨fields, -, h⟩ := Option.bind_eq_some_iff.1 h
  obtain ⟨name, -, h⟩ := Option.bind_eq_some_iff.1 h
  obtain ⟨type, -, h⟩ := Option.bind_eq_some_iff.1 h
  obtain ⟨found, hfound, h⟩ := Option.bind_eq_some_iff.1 h
  obtain rfl := Option.some.inj h
  obtain rfl : found = some shape := hshape
  obtain ⟨inner, hinner⟩ := Record.exists_read_of_optional hfound
  exact Shape.settled_of_ofJson? hinner

/-- Shapes that were read from a report have no repeated keys anywhere. -/
theorem ModuleExports.settled_of_ofJson? {tree : Json} {exports : ModuleExports}
    (h : ofJson? tree = some exports) : exports.Settled := by
  obtain ⟨fields, -, h⟩ := Option.bind_eq_some_iff.1 h
  obtain ⟨found, hfound, h⟩ := Option.bind_eq_some_iff.1 h
  obtain ⟨issue, -, h⟩ := Option.bind_eq_some_iff.1 h
  obtain rfl := Option.some.inj h
  intro collections hcollections exported hexported shape hshape
  obtain rfl : found = some collections := hcollections
  obtain ⟨list, hlist⟩ := Record.exists_read_of_optional hfound
  obtain ⟨item, hitem⟩ := Json.exists_read_of_mem_asList? hlist hexported
  exact ExportedCollection.settled_of_ofJson? hitem hshape

/-- Whatever a runtime replies, the shapes in its reply hold JSON values. -/
theorem settled_of_importedExports {text : String} {exports : ModuleExports}
    (h : importedExports text = .ok exports) : exports.Settled := by
  unfold importedExports at h
  split at h
  next reply hreply =>
    -- the reader goes from the text to its fields, and only `exports` has shapes in it
    obtain ⟨document, -, hreply⟩ := Option.bind_eq_some_iff.1 hreply
    obtain ⟨tree, -, hreply⟩ := Option.bind_eq_some_iff.1 hreply
    obtain ⟨fields, -, hreply⟩ := Option.bind_eq_some_iff.1 hreply
    obtain ⟨ok, -, hreply⟩ := Option.bind_eq_some_iff.1 hreply
    obtain ⟨found, hfound, hreply⟩ := Option.bind_eq_some_iff.1 hreply
    obtain ⟨error, -, hreply⟩ := Option.bind_eq_some_iff.1 hreply
    obtain rfl := Option.some.inj hreply
    unfold ImportReply.outcome at h
    split at h
    next =>
      obtain rfl := Except.ok.inj h
      cases found with
      | none => exact nofun
      | some exports =>
        obtain ⟨inner, hinner⟩ := Record.exists_read_of_optional hfound
        exact ModuleExports.settled_of_ofJson? hinner
    next => split at h <;> cases h
  next => cases h

/-! ### Walks -/

/-- The lenient documents of settled shapes are settled. -/
def Converter.Settled (converter : Converter) : Prop :=
  ∀ (path : Path) (shape : Shape), shape.Settled → (converter.lenient path shape).doc.Settled

/-- The documents of settled shapes are settled. -/
theorem Converter.settled_draft : Converter.draft.Settled := fun path _ h ↦
  Shape.settled_draftLenient h path

section Walk

variable {converter : Converter}

/-- A discriminator is a literal that holds no other values. -/
theorem Shape.isContainer_of_discriminatorValue {option : Shape} {discriminator : String}
    {value : Json} (h : option.discriminatorValue discriminator = .ok value) :
    value.isContainer = false := by
  unfold discriminatorValue at h
  split at h
  next => cases h
  next =>
    split at h
    next => cases h
    next =>
      split at h
      next => cases h
      next =>
        split at h
        next => cases h
        next hscalar => exact Except.ok.inj h ▸ by simpa using hscalar

theorem UnionSite.settled_variant? (hconverter : converter.Settled) {site : UnionSite}
    {option : Shape} (hoption : option.Settled) {variant : Variant}
    (h : site.variant? converter option = some variant) : variant.Settled := by
  unfold variant? at h
  split at h
  next value hvalue =>
    obtain rfl := Option.some.inj h
    have hscalar : value.isContainer = false := Shape.isContainer_of_discriminatorValue hvalue
    exact ⟨Json.settled_of_isContainer_eq_false hscalar, hconverter site.path option hoption⟩
  next => cases h

/-- What the walk through a settled shape finds is settled. -/
theorem Shape.settled_walk (hconverter : converter.Settled) {shape : Shape} (h : shape.Settled) :
    (shape.walk converter).schema.Settled ∧
      ∀ union ∈ (shape.walk converter).unions, union.Settled := by
  refine ⟨hconverter [] shape h, ?_⟩
  rw [unions_walk, List.forall_mem_map]
  intro site hsite variant hvariant
  obtain ⟨rest, -, hroute⟩ := leadsTo_of_mem_unionSites shape [] hsite
  obtain ⟨option, hoption, hread⟩ := List.mem_filterMap.1 hvariant
  have hunion : (variants site.discriminator site.options).Settled := hroute.everywhere h
  exact site.settled_variant? hconverter (hunion.of_mem_parts hoption) hread

/-- A settled declaration is compiled to a settled collection. -/
theorem Declaration.settled_compile (hconverter : converter.Settled) {declaration : Declaration}
    (h : ∀ shape, declaration.shape = some shape → shape.Settled) :
    (declaration.compile converter).Settled := by
  show (declaration.walk converter).Settled
  unfold Declaration.walk
  split
  next shape hshape => exact Shape.settled_walk hconverter (h shape hshape)
  next => exact ⟨Draft.settled_fallback, nofun⟩

end Walk

/-! ### Sets -/

namespace SchemaSet

/-- Inserting a settled collection keeps a set settled, as its names stay distinct. -/
theorem Settled.insert {set : SchemaSet} (h : set.Settled) {collection : Collection}
    (hcollection : collection.Settled) : (set.insert collection).Settled := by
  refine ⟨h.1.insert _ _, fun entry hentry ↦ ?_⟩
  rcases Keyed.mem_insert hentry with hentry | hentry
  · exact h.2 entry hentry
  · exact hentry ▸ hcollection

theorem settled_ofCollections (generatedAt : String) (source : Option String)
    {collections : List Collection} (h : ∀ collection ∈ collections, collection.Settled) :
    (ofCollections generatedAt source collections).Settled := by
  have hfold : ∀ (rest : List Collection) (set : SchemaSet), set.Settled →
      (∀ collection ∈ rest, collection.Settled) → (rest.foldl SchemaSet.insert set).Settled := by
    intro rest
    induction rest with
    | nil => exact fun _ hset _ ↦ hset
    | cons collection rest ih =>
      intro set hset hrest
      obtain ⟨hfirst, hrest⟩ := List.forall_mem_cons.1 hrest
      exact ih _ (hset.insert hfirst) hrest
  exact hfold collections _ ⟨Keyed.distinctKeys_nil, nofun⟩ h

/-- The set is what some module's exports compile to, at some time and from some place. -/
def IsCompiled (set : SchemaSet) : Prop :=
  ∃ converter exports declarations generatedAt source, Converter.Settled converter ∧
    ModuleExports.Settled exports ∧ exports.declarations = .ok declarations ∧
    set = ofCollections generatedAt source (declarations.map (Declaration.compile converter))

theorem isCompiled_ofDeclarations {exports : ModuleExports} {declarations : List Declaration}
    (hexports : exports.Settled) (hdeclarations : exports.declarations = .ok declarations)
    (generatedAt source : String) : (ofDeclarations generatedAt source declarations).IsCompiled :=
  ⟨.draft, exports, declarations, generatedAt, some source, Converter.settled_draft, hexports,
    hdeclarations, rfl⟩

/-- Whatever a runtime replies, a reply that lists collections compiles to such a set. -/
theorem isCompiled_of_importedExports {text : String} {exports : ModuleExports}
    {declarations : List Declaration} (hexports : importedExports text = .ok exports)
    (hdeclarations : exports.declarations = .ok declarations) (generatedAt source : String) :
    (ofDeclarations generatedAt source declarations).IsCompiled :=
  isCompiled_ofDeclarations (settled_of_importedExports hexports) hdeclarations generatedAt source

theorem IsCompiled.settled {set : SchemaSet} (h : set.IsCompiled) : set.Settled := by
  obtain ⟨converter, exports, declarations, generatedAt, source, hconverter, hexports,
    hdeclarations, rfl⟩ := h
  obtain ⟨collections, hcollections, -, rfl⟩ := ModuleExports.declarations_eq_ok_iff.1 hdeclarations
  refine settled_ofCollections generatedAt source (List.forall_mem_map.2 (List.forall_mem_map.2 ?_))
  intro exported hexported
  exact Declaration.settled_compile hconverter (hexports collections hcollections exported hexported)

end SchemaSet

/-- **A compiled set survives its JSON report but for fields named as the hop into an array's items.**
Provided that the numbers in the report read back from their texts and that the report is not nested
deeper than readers follow, a report always reads back, as the same set with its paths as they read
from their texts; and that is the set itself exactly if none of its paths, of unions or of warnings,
passes through a field of that name. -/
theorem compiled_set_reads_back {set : SchemaSet} (h : set.IsCompiled)
    (hnumbers : set.toJson.NumbersReadBack) (hdepth : set.toJson.depth ≤ Written.maxDepth) :
    SchemaSet.read? (set.report .json) = some set.reread ∧
      (SchemaSet.read? (set.report .json) = some set ↔
        ∀ path ∈ set.paths, .field Hop.marker ∉ path) := by
  have hread : SchemaSet.read? (set.report .json) = some set.reread :=
    SchemaSet.read?_report h.settled hnumbers hdepth
  refine ⟨hread, ?_⟩
  rw [hread, Option.some.injEq]
  exact SchemaSet.reread_eq_self_iff

namespace SchemaSet

/-- Pages with one field, a list of blocks named as the hop into an array's items. -/
def bracketedPage : Shape :=
  .object [(Hop.marker,
    .array (.variants "kind" [.object [("kind", .literal (.str "hero"))]]) none none)]

/-- A module that exports such pages. -/
def bracketedExports : ModuleExports := ⟨some [⟨"pages", none, some bracketedPage⟩], none⟩

/-- The set that the module compiles to. -/
def bracketed : SchemaSet :=
  ofDeclarations "now" "config.ts" [⟨"pages", .content, some bracketedPage⟩]

/-- A field may be named like the marker of array items, so a set with such a path is compiled from
a module. -/
theorem isCompiled_bracketed : bracketed.IsCompiled := by
  have hpage : bracketedPage.Settled :=
    Shape.settled_of_ofJson? (show Shape.ofJson? bracketedPage.toJson = some bracketedPage from rfl)
  refine @isCompiled_ofDeclarations bracketedExports _ ?_ rfl "now" "config.ts"
  intro collections hcollections exported hexported shape hshape
  obtain rfl := Option.some.inj hcollections
  obtain rfl := List.mem_singleton.1 hexported
  exact Option.some.inj hshape ▸ hpage

theorem toJson_bracketed :
    let hero : Json := .obj [("type", .str "object"),
      ("properties", .obj [("kind", .obj [("type", .str "string"), ("const", .str "hero")])]),
      ("required", .arr [.str "kind"]), ("additionalProperties", .bool false)]
    let schema : Json := .obj [("type", .str "object"),
      ("properties", .obj [(Hop.marker, .obj [("type", .str "array"),
        ("items", .obj [("anyOf", .arr [hero])])])]),
      ("required", .arr [.str Hop.marker]), ("additionalProperties", .bool false)]
    let union : Json := .obj [("path", .arr [.str Hop.marker, .str Hop.marker]),
      ("discriminator", .str "kind"),
      ("options", .arr [.obj [("value", .str "hero"), ("label", .str "Hero"), ("schema", hero)]])]
    bracketed.toJson = .obj [("schema_version", .str "1.0.0"), ("source", .str "config.ts"),
      ("generated_at", .str "now"), ("collections", .obj [("pages", .obj [("name", .str "pages"),
        ("type", .str "content"), ("schema", schema), ("discriminatedUnions", .arr [union])])])] :=
  rfl

end SchemaSet

/-- The report writes both hops to the blocks alike, and both are read as hops into items. -/
theorem compiled_set_reads_back_brackets :
    SchemaSet.bracketed.IsCompiled ∧ SchemaSet.bracketed.paths = [[.field Hop.marker, .items]] ∧
      SchemaSet.read? (SchemaSet.bracketed.report .json) ≠ some SchemaSet.bracketed ∧
      ∃ set, SchemaSet.read? (SchemaSet.bracketed.report .json) = some set ∧
        set.paths = [[.items, .items]] := by
  have hnumbers : SchemaSet.bracketed.toJson.NumbersReadBack := by
    rw [SchemaSet.toJson_bracketed]
    simp
  have hpaths : SchemaSet.bracketed.paths = [[.field Hop.marker, .items]] := rfl
  obtain ⟨hread, hsame⟩ :=
    compiled_set_reads_back SchemaSet.isCompiled_bracketed hnumbers (by decide)
  refine ⟨SchemaSet.isCompiled_bracketed, hpaths, fun h ↦ ?_, _, hread, rfl⟩
  exact absurd (hsame.1 h) (by simp [hpaths])

end ContentSchema
