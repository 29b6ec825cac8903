import ContentSchema.Collection.Compile
import ContentSchema.Collection.Set
import ContentSchema.Proofs.Keyed
import ContentSchema.Script.ModuleExports
/-!
# Compiling keeps every collection

From the exports of a module to a compiled set a collection passes through two dictionaries, one of
declarations and one of compiled collections. Neither loses, repeats or moves one: what stops a
module is settled by the names alone (`exists_declarations_error_iff`), and a set that is filled
with collections of distinct names lists them as they came (`collections_ofCollections`). In between
each collection is compiled on its own, so its entry is a function of its own export
(`compile_keeps_collections`).

The entry of a collection is made of the walk through its shape (`ExportedCollection.walked`); what
is found wrong with it afterwards is added to its warnings and takes nothing away. So there is no
shape that a module is refused for, and what cannot be converted in one collection is reported in
that one.
-/

namespace ContentSchema

/-! ### Declarations -/

namespace ModuleExports

/-- No name is found to stand twice just when the names are distinct and none of them was there
before. -/
theorem repeatedName?_eq_none_iff {seen : List String} {collections : List ExportedCollection} :
    repeatedName? seen collections = .none ↔
      (collections.map (·.name)).Nodup ∧ ∀ exported ∈ collections, exported.name ∉ seen := by
  induction collections generalizing seen with
  | nil => simp [repeatedName?]
  | cons exported rest ih =>
    rw [repeatedName?, List.map_cons, List.nodup_cons, List.forall_mem_cons]
    split
    next hseen => simp [hseen]
    next hseen =>
      rw [ih]
      -- not to meet the first name again is the first half for the list and the second for the rest
      simp only [List.mem_cons, List.mem_map, not_or, not_exists, not_and]
      constructor
      · rintro ⟨hrest, hnew⟩
        exact ⟨⟨fun other hother heq ↦ (hnew other hother).1 heq, hrest⟩, hseen,
          fun other hother ↦ (hnew other hother).2⟩
      · rintro ⟨⟨hfirst, hrest⟩, -, hnew⟩
        exact ⟨hrest, fun other hother ↦ ⟨hfirst other hother, hnew other hother⟩⟩

/-- A module has declarations exactly if it exports collections and no two of one name, and then
there is one declaration for each collection, in order. -/
theorem declarations_eq_ok_iff {exports : ModuleExports} {declarations : List Declaration} :
    exports.declarations = .ok declarations ↔
      ∃ collections, exports.collections = some collections ∧
        (collections.map (·.name)).Nodup ∧
        declarations = collections.map ExportedCollection.declaration := by
  rw [ModuleExports.declarations]
  cases hcollections : exports.collections with
  | none => cases exports.issue <;> simp
  | some collections =>
    have hnodup : repeatedName? [] collections = .none ↔ (collections.map (·.name)).Nodup := by
      simp [repeatedName?_eq_none_iff]
    simp only [Option.some.injEq, exists_eq_left', ← hnodup]
    cases repeatedName? [] collections with
    | some name => simp
    | none => simp [eq_comm]

/-- A module has no declarations just when it exports no collections or two of one name. -/
theorem exists_declarations_error_iff {exports : ModuleExports} :
    (∃ error, exports.declarations = .error error) ↔ exports.collections = .none ∨
      ∃ collections, exports.collections = some collections ∧
        ¬(collections.map (·.name)).Nodup := by
  have hok : (∃ error, exports.declarations = .error error) ↔
      ¬∃ declarations, exports.declarations = .ok declarations := by
    cases exports.declarations <;> simp
  rw [hok]
  simp only [declarations_eq_ok_iff]
  cases exports.collections <;> simp

/-- A module that has no declarations is at fault in its exports. -/
theorem exists_message_of_declarations_error {exports : ModuleExports} {error : CompileError}
    (h : exports.declarations = .error error) : ∃ message, error = .exports message := by
  unfold ModuleExports.declarations at h
  split at h
  · split at h
    · exact ⟨_, (Except.error.inj h).symm⟩
    · exact ⟨_, (Except.error.inj h).symm⟩
  · split at h
    · exact ⟨_, (Except.error.inj h).symm⟩
    · cases h

end ModuleExports

/-! ### Sets -/

/-- A set that is filled with collections of distinct names lists them in order, each under its own
name. -/
theorem SchemaSet.collections_ofCollections (generatedAt : String) (source : Option String)
    {collections : List Collection} (hnames : (collections.map (·.name)).Nodup) :
    (ofCollections generatedAt source collections).collections =
      collections.map fun collection ↦ (collection.name, collection) := by
  have hfold : ∀ (rest : List Collection) (set : SchemaSet),
      (rest.foldl SchemaSet.insert set).collections =
        (rest.map fun collection ↦ (collection.name, collection)).foldl
          (fun dict entry ↦ Keyed.insert dict entry.1 entry.2) set.collections := by
    intro rest
    induction rest with
    | nil => exact fun _ ↦ rfl
    | cons collection rest ih => exact fun set ↦ ih (set.insert collection)
  rw [ofCollections, hfold]
  refine Keyed.ofList_of_distinctKeys ?_
  rw [Keyed.DistinctKeys, Keyed.keys, List.map_map]
  exact hnames

/-! ### Compiled collections -/

namespace ExportedCollection

/-- What a walk finds in the shape of a collection; one without a shape has the document of an object
without fields. -/
def walked (converter : Converter) (exported : ExportedCollection) : Walked :=
  match exported.shape with
  | some shape => shape.walk converter
  | none => ⟨.obj [("type", .str "object"), ("properties", .obj [])], [], []⟩

/-- Only the type `data` is not `content`; an unknown one or none counts as `content`. -/
theorem declaration_type_eq_data_iff {exported : ExportedCollection} :
    exported.declaration.type = .data ↔ exported.type = some "data" := by
  rw [declaration]
  cases exported.type with
  | none => simp
  | some raw =>
    rw [Option.bind_some, CollectionType.ofName?]
    by_cases hcontent : raw = "content"
    · simp [hcontent]
    · by_cases hdata : raw = "data" <;> simp [hcontent, hdata]

theorem walk_declaration (converter : Converter) (exported : ExportedCollection) :
    exported.declaration.walk converter =
      ⟨exported.name, exported.declaration.type, (exported.walked converter).schema,
        (exported.walked converter).unions, (exported.walked converter).warnings⟩ := by
  have hshape : exported.declaration.shape = exported.shape := rfl
  rw [walked, Declaration.walk, hshape]
  cases exported.shape <;> rfl

end ExportedCollection

/-- **Compiling keeps every collection, once and in order.** Whatever the converter, there is an
entry for each collection that a module exports, which does not depend on the others:

* it has the name of the collection, and the type `data` exactly if the module says so;
* its schema, its unions and its first warnings are those of a walk through the collection's shape;
* the warnings after these are the findings about it, in order, at the root.

A module is refused exactly if it exports no collections or two of one name, and it is its exports
that are at fault then. The set that every other module compiles to has these entries and no others,
each under the name of its collection, in the order in which the module exports them. -/
theorem compile_keeps_collections (converter : Converter) :
    ∃ entry : ExportedCollection → Collection,
      (∀ exported, (entry exported).name = exported.name ∧
        ((entry exported).type = .data ↔ exported.type = some "data") ∧
        (entry exported).schema = (exported.walked converter).schema ∧
        (entry exported).unions = (exported.walked converter).unions ∧
        (entry exported).warnings = (exported.walked converter).warnings ++
          (entry exported).findings.map fun finding ↦ ⟨[], finding.message⟩) ∧
      ∀ exports : ModuleExports,
        ((∃ error, exports.declarations = .error error) ↔ exports.collections = none ∨
          ∃ collections, exports.collections = some collections ∧
            ¬(collections.map (·.name)).Nodup) ∧
        (∀ error, exports.declarations = .error error → ∃ message, error = .exports message) ∧
        ∀ generatedAt source declarations, exports.declarations = .ok declarations →
          ∃ collections, exports.collections = some collections ∧
            (SchemaSet.ofCollections generatedAt source
              (declarations.map (Declaration.compile converter))).collections =
              collections.map fun exported ↦ (exported.name, entry exported) := by
  refine ⟨fun exported ↦ exported.declaration.compile converter, fun exported ↦ ?_,
    fun exports ↦ ⟨ModuleExports.exists_declarations_error_iff,
      fun error ↦ ModuleExports.exists_message_of_declarations_error, ?_⟩⟩
  · have hwalk := exported.walk_declaration converter
    simp only [Declaration.compile, hwalk]
    -- findings are about the name and the unions, so the warnings that they become add none
    exact ⟨trivial, ExportedCollection.declaration_type_eq_data_iff, trivial, trivial, rfl⟩
  · intro generatedAt source declarations hdeclarations
    obtain ⟨collections, hcollections, hnames, rfl⟩ :=
      ModuleExports.declarations_eq_ok_iff.1 hdeclarations
    refine ⟨collections, hcollections, ?_⟩
    have hcompiled : ((collections.map ExportedCollection.declaration).map
        (Declaration.compile converter)).map (·.name) = collections.map (·.name) := by
      simp only [List.map_map]
      exact List.map_congr_left fun _ _ ↦ rfl
    rw [SchemaSet.collections_ofCollections generatedAt source (hcompiled ▸ hnames)]
    simp only [List.map_map]
    exact List.map_congr_left fun _ _ ↦ rfl

/-- A module with pages that have a tag, with data of a shape that nobody knows, and with notes that
have no shape. -/
def site : ModuleExports :=
  ⟨some [
    ⟨"pages", some "page", some (.object [("tag", .enumeration [])])⟩,
    ⟨"data", some "data", some .unrecognized⟩,
    ⟨"notes", none, none⟩], none⟩

/-- Neither the tag without values nor the unknown shape stops the module, and the unknown shape is
reported in its own collection. Without collections the module is refused. -/
theorem compile_keeps_collections_site :
    (∃ declarations, site.declarations = .ok declarations ∧
      ∃ pages data notes : Collection,
        (SchemaSet.ofCollections "now" none
          (declarations.map (Declaration.compile .draft))).collections =
            [("pages", pages), ("data", data), ("notes", notes)] ∧
        pages.type ≠ .data ∧ data.type = .data ∧ data.schema = Draft.fallback ∧
        data.warnings = [⟨[], "unrecognized nodes have no JSON Schema representation"⟩]) ∧
    ∃ message, ({ site with collections := none } : ModuleExports).declarations =
      .error (.exports message) := by
  obtain ⟨entry, hentry, hexports⟩ := compile_keeps_collections .draft
  constructor
  · obtain ⟨-, -, hok⟩ := hexports site
    obtain ⟨collections, hcollections, hset⟩ := hok "now" none _ rfl
    obtain rfl := Option.some.inj hcollections
    obtain ⟨hname, htype, hschema, hunions, hwarnings⟩ :=
      hentry ⟨"data", some "data", some .unrecognized⟩
    have hfindings : (entry ⟨"data", some "data", some .unrecognized⟩).findings = [] := by
      rw [Collection.findings, hname, hunions]
      rfl
    have hpages := hentry ⟨"pages", some "page", some (.object [("tag", .enumeration [])])⟩
    refine ⟨_, rfl, _, _, _, hset, ?_, htype.2 rfl, hschema, ?_⟩
    · exact fun hdata ↦ absurd (hpages.2.1.1 hdata) (by decide)
    · rw [hwarnings, hfindings]
      rfl
  · obtain ⟨hfails, hmessage, -⟩ := hexports { site with collections := none }
    obtain ⟨error, herror⟩ := hfails.2 (.inl rfl)
    obtain ⟨message, rfl⟩ := hmessage error herror
    exact ⟨message, herror⟩

end ContentSchema
