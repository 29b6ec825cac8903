import ContentSchema.Proofs.Json.Layout
import ContentSchema.Proofs.Shape.Description
import ContentSchema.Script.ModuleExports
/-!
# How deep a reply of the runtime nests

The runtime stops describing a shape at `maxShapeDepth` so that readers, who follow a text only down
to `Written.maxDepth`, can read its reply. A shape that holds others adds two levels to the reply if
it is an object, a union or a tuple, and one if it is an array, a record or a wrapper; so a tree that
describes a shape is nested at most twice as deep as the shape is high, beside the values in it
(`Shape.depth_le_of_describedBy`). Four more levels stand around the shapes
(`ImportReply.depth_le_of_reportedBy`).

What is said of replies is said of every tree that reports the collections
(`ImportReply.ReportedBy`), not of the output of one writer: the runtime writes `null` for a type, a
schema, a bound on items or a pattern that it does not have, leaves others out, and writes a whole
number as an integer. With the values as deep as shapes may be the levels come to just what readers
follow (`import_reply_readable`), and there are replies that nest no less
(`import_reply_readable_deepest`).
-/

namespace ContentSchema

/-- A bound is a number, which has no levels. -/
theorem Real64.depth_of_describedBy {bound : Real64} {tree : Json} (h : bound.DescribedBy tree) :
    tree.depth = 0 := by
  cases h <;> rfl

namespace Shape

/-! ### The nesting of a description -/

variable {room : Nat}

/-- A description is one level deeper than the deepest of its fields. -/
theorem Kind.Describes.depth_le {kind : Kind} {p : Record → Prop} {tree : Json}
    (h : kind.Describes p tree)
    (hdepth : ∀ record, p record → ∀ name ∈ kind.fieldNames, ∀ value,
      Keyed.find? record name = some value → value.depth ≤ room) : tree.depth ≤ room + 1 := by
  refine Json.IsRecord.depth_le h ?_
  rintro record ⟨hkind, hp⟩
  refine List.forall_mem_cons.2 ⟨fun value hfind ↦ ?_, hdepth record hp⟩
  exact hkind.of_find? hfind ▸ Nat.zero_le room

/-- A list of descriptions is one level deeper than the deepest of them. -/
theorem depth_le_of_listDescribedBy {shapes : List Shape} {trees : List Json}
    (h : ListDescribedBy shapes trees)
    (hdepth : ∀ shape ∈ shapes, ∀ tree, shape.DescribedBy tree → tree.depth ≤ room) :
    (Json.arr trees).depth ≤ room + 1 := by
  refine Json.depth_arr_le_iff.2 fun tree htree ↦ ?_
  obtain ⟨shape, hshape, hdesc⟩ := exists_mem_of_forall₂ (listDescribedBy_iff.1 h) htree
  exact hdepth shape hshape tree hdesc

/-- The descriptions of some fields are together one level deeper than the deepest of them. -/
theorem depth_le_of_fieldsDescribedBy {fields : List (String × Shape)}
    {members : List (String × Json)} (h : FieldsDescribedBy fields members)
    (hdepth : ∀ field ∈ fields, ∀ tree, field.2.DescribedBy tree → tree.depth ≤ room) :
    (Json.obj members).depth ≤ room + 1 := by
  refine Json.depth_obj_le_iff.2 fun member hmember ↦ ?_
  obtain ⟨field, hfield, -, hdesc⟩ := exists_mem_of_forall₂ (fieldsDescribedBy_iff.1 h) hmember
  exact hdepth field hfield member.2 hdesc

/-- Where there is room for the values inside a shape and for lists of the shapes inside it, there is
room for all its fields. -/
theorem depth_le_of_parts {shape : Shape} {tree : Json} (h : shape.DescribedBy tree)
    (hparts : ∀ part ∈ shape.parts, ∀ inner, part.DescribedBy inner → inner.depth ≤ room)
    (hvalues : ∀ value ∈ shape.values, value.depth ≤ room + 1) : tree.depth ≤ room + 2 := by
  -- a field that holds one shape, plain text or a number has more room than it needs
  have hpart : ∀ part ∈ shape.parts, ∀ inner, part.DescribedBy inner → inner.depth ≤ room + 1 :=
    fun part hmem inner hinner ↦ Nat.le_succ_of_le (hparts part hmem inner hinner)
  have htext : ∀ (text : String) (inner : Json), inner = .str text → inner.depth ≤ room + 1 :=
    fun _ _ heq ↦ heq ▸ Nat.zero_le _
  have hcount : ∀ (count : Nat) (inner : Json), inner = Json.ofNat count → inner.depth ≤ room + 1 :=
    fun _ _ heq ↦ heq ▸ Nat.zero_le _
  have hbound : ∀ (bound : Real64) (inner : Json), bound.DescribedBy inner →
      inner.depth ≤ room + 1 := fun _ _ hinner ↦
    (Real64.depth_of_describedBy hinner).trans_le (Nat.zero_le _)
  cases shape with
  | object fields =>
    refine Kind.Describes.depth_le h fun record hshape ↦ List.forall_mem_singleton.2 fun _ ↦ ?_
    refine hshape.depth_le ?_
    rintro _ ⟨members, rfl, hmembers⟩
    exact depth_le_of_fieldsDescribedBy hmembers (List.forall_mem_map.1 hparts)
  | array element minItems maxItems =>
    refine Kind.Describes.depth_le h fun record ⟨helement, hmin, hmax⟩ ↦ List.forall_mem_cons.2 ⟨?_,
      List.forall_mem_cons.2 ⟨?_, List.forall_mem_singleton.2 ?_⟩⟩
    · exact fun _ ↦ helement.depth_le (hpart element List.mem_cons_self)
    · exact fun _ ↦ hmin.depth_le fun count inner _ ↦ hcount count inner
    · exact fun _ ↦ hmax.depth_le fun count inner _ ↦ hcount count inner
  | variants discriminator options =>
    refine Kind.Describes.depth_le h fun record ⟨hdiscriminator, hoptions⟩ ↦
      List.forall_mem_cons.2 ⟨fun _ ↦ hdiscriminator.depth_le (htext discriminator),
        List.forall_mem_singleton.2 fun _ ↦ hoptions.depth_le ?_⟩
    rintro _ ⟨items, rfl, hitems⟩
    exact depth_le_of_listDescribedBy hitems hparts
  | union _ | tuple _ =>
    refine Kind.Describes.depth_le h fun record hoptions ↦
      List.forall_mem_singleton.2 fun _ ↦ hoptions.depth_le ?_
    rintro _ ⟨items, rfl, hitems⟩
    exact depth_le_of_listDescribedBy hitems hparts
  | optional inner | nullable inner | effects inner | record inner =>
    exact Kind.Describes.depth_le h fun record hinner ↦ List.forall_mem_singleton.2 fun _ ↦
      hinner.depth_le (hpart inner List.mem_cons_self)
  | defaulted inner value =>
    exact Kind.Describes.depth_le h fun record ⟨hinner, hvalue⟩ ↦ List.forall_mem_cons.2
      ⟨fun _ ↦ hinner.depth_le (hpart inner List.mem_cons_self), List.forall_mem_singleton.2 fun _ ↦
        hvalue.depth_le fun _ heq ↦ heq ▸ hvalues value List.mem_cons_self⟩
  | literal value =>
    exact Kind.Describes.depth_le h fun record hvalue ↦ List.forall_mem_singleton.2 fun _ ↦
      hvalue.depth_le fun _ heq ↦ heq ▸ hvalues value List.mem_cons_self
  | string format minLength maxLength pattern =>
    refine Kind.Describes.depth_le h fun record ⟨hformat, hmin, hmax, hpattern⟩ ↦
      List.forall_mem_cons.2 ⟨?_, List.forall_mem_cons.2 ⟨?_, List.forall_mem_cons.2 ⟨?_,
        List.forall_mem_singleton.2 ?_⟩⟩⟩
    · exact fun _ ↦ hformat.depth_le fun text inner _ ↦ htext text inner
    · exact fun _ ↦ hmin.depth_le fun count inner _ ↦ hcount count inner
    · exact fun _ ↦ hmax.depth_le fun count inner _ ↦ hcount count inner
    · exact fun _ ↦ hpattern.depth_le fun text inner _ ↦ htext text inner
  | number integer minimum maximum =>
    refine Kind.Describes.depth_le h fun record ⟨hinteger, hminimum, hmaximum⟩ ↦
      List.forall_mem_cons.2 ⟨?_, List.forall_mem_cons.2 ⟨?_, List.forall_mem_singleton.2 ?_⟩⟩
    · exact fun _ ↦ hinteger.depth_le fun _ heq ↦ heq ▸ Nat.zero_le _
    · exact fun _ ↦ hminimum.depth_le fun bound inner _ ↦ hbound bound inner
    · exact fun _ ↦ hmaximum.depth_le fun bound inner _ ↦ hbound bound inner
  | enumeration values =>
    have htexts : (Json.arr (values.map .str)).depth ≤ room + 1 :=
      Json.depth_arr_le_iff.2 (List.forall_mem_map.2 fun _ _ ↦ Nat.zero_le room)
    exact Kind.Describes.depth_le h fun record hvalues ↦ List.forall_mem_singleton.2 fun _ ↦
      hvalues.depth_le fun _ heq ↦ heq ▸ htexts
  | reference text | other text =>
    exact Kind.Describes.depth_le h fun record hfield ↦ List.forall_mem_singleton.2 fun _ ↦
      hfield.depth_le (htext text)
  | boolean | date | null | any | unrecognized => exact Kind.Describes.depth_le h fun _ _ ↦ nofun

/-- A tree that describes a shape is nested at most twice as deep as the shape is high, beside the
values inside it. -/
theorem depth_le_of_describedBy {shape : Shape} {bound : Nat}
    (h : shape.Everywhere fun part ↦ ∀ value ∈ part.values, value.depth ≤ bound) {tree : Json}
    (hdesc : shape.DescribedBy tree) : tree.depth ≤ 2 * shape.height + max bound 1 + 1 := by
  induction h generalizing tree with
  | @intro shape hvalues _ ih =>
    obtain ⟨room, hroom⟩ : ∃ room, 2 * shape.height + max bound 1 = room + 1 :=
      ⟨2 * shape.height + max bound 1 - 1, by omega⟩
    rw [hroom]
    refine depth_le_of_parts hdesc (fun part hpart inner hinner ↦ ?_) fun value hvalue ↦ ?_
    · have hheight : part.height < shape.height := height_lt_of_mem_parts hpart
      have hdepth := ih part hpart hinner
      omega
    · exact Nat.le_trans (hvalues value hvalue) (by omega)

/-- A shape whose reports can be read: its dictionaries are dictionaries, the bounds of its numbers are
finite, at most `height` shapes stand above a leaf, and the values inside it are nested at most `bound`
deep. -/
structure Reportable (shape : Shape) (height bound : Nat) : Prop where
  settled : shape.Settled
  finiteBounds : shape.FiniteBounds
  height_le : shape.height ≤ height
  values_depth_le : shape.Everywhere fun part ↦ ∀ value ∈ part.values, value.depth ≤ bound

end Shape

/-! ### Collections -/

namespace ExportedCollection

/-- The tree tells the name of a collection, and its type and its shape if it has them. -/
def DescribedBy (exported : ExportedCollection) : Json → Prop :=
  Json.IsRecord ["name", "type", "schema"] fun record ↦
    record.Has "name" (· = .str exported.name) ∧
      record.MayHave "type" exported.type (fun text tree ↦ tree = .str text) ∧
      record.MayHave "schema" exported.shape Shape.DescribedBy

variable {exported : ExportedCollection} {tree : Json}

/-- A collection is read from what describes it if its shape is. -/
theorem ofJson?_of_describedBy (h : exported.DescribedBy tree)
    (hshape : ∀ shape, exported.shape = some shape → ∀ inner, shape.DescribedBy inner →
      Shape.ofJson? inner = some shape) : ofJson? tree = some exported := by
  obtain ⟨record, hrecord, hname, htype, hschema⟩ := Json.IsRecord.exists_of? h
  have hname : record.required "name" Json.asString? = some exported.name :=
    Record.required_of_has hname fun _ heq ↦ heq ▸ rfl
  have htype : record.optional "type" Json.asString? = some exported.type :=
    Record.optional_of_mayHave htype fun text _ _ heq ↦ heq ▸ rfl
  have hschema : record.optional "schema" Shape.ofJson? = some exported.shape :=
    Record.optional_of_mayHave hschema fun shape inner heq hinner ↦
      Json.asOptional?_of_eq_some rfl (hshape shape heq inner hinner)
  simp [ofJson?, hrecord, hname, htype, hschema]

theorem keeps_of_describedBy (h : exported.DescribedBy tree) :
    (Layout.record [("name", .all), ("type", .all), ("schema", .all)]).Keeps tree :=
  Layout.keeps_of_isRecord h fun _ _ ↦ List.forall_mem_cons.2 ⟨⟨.all, rfl, fun _ _ ↦ Layout.keeps_all _⟩,
    List.forall_mem_cons.2 ⟨⟨.all, rfl, fun _ _ ↦ Layout.keeps_all _⟩,
      List.forall_mem_singleton.2 ⟨.all, rfl, fun _ _ ↦ Layout.keeps_all _⟩⟩⟩

/-- A collection adds one level around its shape. -/
theorem depth_le_of_describedBy {n : Nat} (h : exported.DescribedBy tree)
    (hshape : ∀ shape, exported.shape = some shape → ∀ inner, shape.DescribedBy inner →
      inner.depth ≤ n) : tree.depth ≤ n + 1 := by
  refine Json.IsRecord.depth_le h fun record ⟨hname, htype, hschema⟩ ↦ List.forall_mem_cons.2 ⟨?_,
    List.forall_mem_cons.2 ⟨?_, List.forall_mem_singleton.2 ?_⟩⟩
  · exact fun _ ↦ hname.depth_le fun _ heq ↦ heq ▸ Nat.zero_le n
  · exact fun _ ↦ htype.depth_le fun _ _ _ heq ↦ heq ▸ Nat.zero_le n
  · exact fun _ ↦ hschema.depth_le fun shape inner heq ↦ hshape shape heq inner

/-- A collection as the runtime tells it: without a type or a shape it says `null`. -/
def told (exported : ExportedCollection) : Json :=
  .obj [("name", .str exported.name), ("type", exported.type.elim .null .str),
    ("schema", exported.shape.elim .null Shape.toJson)]

theorem describedBy_told (h : ∀ shape, exported.shape = some shape → shape.FiniteBounds) :
    exported.DescribedBy exported.told := by
  refine ⟨_, rfl, by simp [Keyed.DistinctKeys, Keyed.keys], by simp [Keyed.keys], ⟨_, rfl, rfl⟩, ?_, ?_⟩
  · cases exported.type with
    | none => exact Record.lacks_of_null rfl
    | some text => exact ⟨_, rfl, rfl⟩
  · cases hshape : exported.shape with
    | none => exact Record.lacks_of_null rfl
    | some shape => exact ⟨_, rfl, Shape.describedBy_toJson (h shape hshape)⟩

end ExportedCollection

/-! ### Exports and replies -/

section Reply

variable {collections : List ExportedCollection} {tree : Json}

namespace ModuleExports

/-- The tree reports a module with these collections. -/
def ReportedBy (collections : List ExportedCollection) : Json → Prop :=
  Json.IsRecord ["collections", "shapeIssue"] fun record ↦
    (record.Has "collections" fun tree ↦ ∃ items, tree = .arr items ∧
      List.Forall₂ ExportedCollection.DescribedBy collections items) ∧
    record.Lacks "shapeIssue"

theorem ofJson?_of_reportedBy (h : ReportedBy collections tree)
    (hread : ∀ exported ∈ collections, ∀ inner, exported.DescribedBy inner →
      ExportedCollection.ofJson? inner = some exported) :
    ofJson? tree = some ⟨some collections, .none⟩ := by
  obtain ⟨record, hrecord, hcollections, hissue⟩ := Json.IsRecord.exists_of? h
  have hcollections : record.optional "collections" (Json.asList? ExportedCollection.ofJson?) =
      some (some collections) := by
    obtain ⟨_, hfind, items, rfl, hitems⟩ := hcollections
    have hboth := (List.forall₂_and_left _ _).2 ⟨hread, hitems⟩
    have hlist : Json.asList? ExportedCollection.ofJson? (.arr items) = some collections := by
      refine mapM_eq_some_iff.2 (List.Forall₂.flip (hboth.imp ?_))
      rintro exported item ⟨hread, hitem⟩
      exact hread item hitem
    rw [Record.optional, hfind]
    exact Json.asOptional?_of_eq_some rfl hlist
  have hissue : record.optional "shapeIssue" Json.asString? = some .none :=
    Record.optional_of_lacks hissue
  simp [ofJson?, hrecord, hcollections, hissue]

theorem keeps_of_reportedBy (h : ReportedBy collections tree) :
    (Layout.record [
      ("collections", .list (.record [("name", .all), ("type", .all), ("schema", .all)])),
      ("shapeIssue", .all)]).Keeps tree := by
  refine Layout.keeps_of_isRecord h fun record ⟨hcollections, _⟩ ↦ List.forall_mem_cons.2
    ⟨⟨_, rfl, fun value hfind ↦ ?_⟩, List.forall_mem_singleton.2 ⟨_, rfl, fun _ _ ↦ Layout.keeps_all _⟩⟩
  obtain ⟨items, rfl, hitems⟩ := hcollections.of_find? hfind
  refine Layout.keeps_list fun item hitem ↦ ?_
  obtain ⟨exported, -, hdesc⟩ := exists_mem_of_forall₂ hitems hitem
  exact ExportedCollection.keeps_of_describedBy hdesc

/-- The exports add two levels around a collection: their own and that of the list. -/
theorem depth_le_of_reportedBy {n : Nat} (h : ReportedBy collections tree)
    (hdepth : ∀ exported ∈ collections, ∀ inner, exported.DescribedBy inner → inner.depth ≤ n) :
    tree.depth ≤ n + 2 := by
  refine Json.IsRecord.depth_le h fun record ⟨hcollections, hissue⟩ ↦ List.forall_mem_cons.2
    ⟨fun value hfind ↦ ?_, List.forall_mem_singleton.2 fun _ ↦ hissue.depth_le⟩
  obtain ⟨items, rfl, hitems⟩ := hcollections.of_find? hfind
  refine Json.depth_arr_le_iff.2 fun item hitem ↦ ?_
  obtain ⟨exported, hexported, hdesc⟩ := exists_mem_of_forall₂ hitems hitem
  exact hdepth exported hexported item hdesc

/-- The report of a module with these collections. -/
def reported (collections : List ExportedCollection) : Json :=
  .obj [("collections", .arr (collections.map ExportedCollection.told)), ("shapeIssue", .null)]

theorem reportedBy_reported (h : ∀ exported ∈ collections, exported.DescribedBy exported.told) :
    ReportedBy collections (reported collections) := by
  refine ⟨_, rfl, by simp [Keyed.DistinctKeys, Keyed.keys], by simp [Keyed.keys],
    ⟨_, rfl, _, rfl, ?_⟩, Record.lacks_of_null rfl⟩
  rw [List.forall₂_map_right_iff, List.forall₂_same]
  exact h

end ModuleExports

namespace ImportReply

/-- The tree is the reply of a runtime that imported a module with these collections. -/
def ReportedBy (collections : List ExportedCollection) : Json → Prop :=
  Json.IsRecord ["ok", "exports", "error"] fun record ↦
    record.Has "ok" (· = .bool true) ∧ record.Has "exports" (ModuleExports.ReportedBy collections) ∧
      record.Lacks "error"

/-- A reply is read if its exports are. -/
theorem ofJson?_of_reportedBy (h : ReportedBy collections tree)
    (hread : ∀ inner, ModuleExports.ReportedBy collections inner →
      ModuleExports.ofJson? inner = some ⟨some collections, none⟩) :
    ofJson? tree = some ⟨true, some ⟨some collections, none⟩, none⟩ := by
  obtain ⟨record, hrecord, hok, ⟨exports, hfind, hexports⟩, herror⟩ := Json.IsRecord.exists_of? h
  have hok : record.required "ok" Json.asBool? = some true :=
    Record.required_of_has hok fun _ heq ↦ heq ▸ rfl
  have hexports : record.optional "exports" ModuleExports.ofJson? =
      some (some ⟨some collections, none⟩) := by
    rw [Record.optional, hfind]
    exact Json.asOptional?_of_eq_some rfl (hread exports hexports)
  have herror : record.optional "error" errorOfJson? = some none := Record.optional_of_lacks herror
  simp [ofJson?, hrecord, hok, hexports, herror]

theorem keeps_of_reportedBy (h : ReportedBy collections tree) : layout.Keeps tree := by
  refine Layout.keeps_of_isRecord h fun record ⟨_, hexports, herror⟩ ↦ List.forall_mem_cons.2
    ⟨⟨_, rfl, fun _ _ ↦ Layout.keeps_all _⟩, List.forall_mem_cons.2 ⟨⟨_, rfl, fun value hfind ↦ ?_⟩,
      List.forall_mem_singleton.2 ⟨_, rfl, fun value hfind ↦ ?_⟩⟩⟩
  · exact ModuleExports.keeps_of_reportedBy (hexports.of_find? hfind)
  · exact herror value hfind ▸ Layout.keeps_null

/-- Four levels stand around the shapes of a reply. -/
theorem depth_le_of_reportedBy {n : Nat} (h : ReportedBy collections tree)
    (hdepth : ∀ exported ∈ collections, ∀ shape, exported.shape = some shape →
      ∀ inner, shape.DescribedBy inner → inner.depth ≤ n) : tree.depth ≤ n + 4 := by
  refine Json.IsRecord.depth_le h fun record ⟨hok, hexports, herror⟩ ↦ List.forall_mem_cons.2 ⟨?_,
    List.forall_mem_cons.2 ⟨?_, List.forall_mem_singleton.2 ?_⟩⟩
  · exact fun _ ↦ hok.depth_le fun _ heq ↦ heq ▸ Nat.zero_le _
  · refine fun _ ↦ hexports.depth_le fun inner hinner ↦ ?_
    exact ModuleExports.depth_le_of_reportedBy hinner fun exported hexported _ hdesc ↦
      ExportedCollection.depth_le_of_describedBy hdesc (hdepth exported hexported)
  · exact fun _ ↦ herror.depth_le

/-- The reply of a runtime that imported a module with these collections. -/
def success (collections : List ExportedCollection) : Json :=
  .obj [("ok", .bool true), ("exports", ModuleExports.reported collections)]

/-- The reply that the script writes with `null` for all that is missing is one of the replies. -/
theorem reportedBy_success (h : ∀ exported ∈ collections, ∀ shape, exported.shape = some shape →
      shape.FiniteBounds) : ReportedBy collections (success collections) :=
  ⟨_, rfl, by simp [Keyed.DistinctKeys, Keyed.keys], by simp [Keyed.keys], ⟨_, rfl, rfl⟩,
    ⟨_, rfl, ModuleExports.reportedBy_reported fun exported hexported ↦
      ExportedCollection.describedBy_told (h exported hexported)⟩, nofun⟩

end ImportReply

end Reply

/-- **The cap on the depth of shapes keeps every reply readable.** Let the shapes of some collections
have at most one shape more than the cap above a leaf, finite bounds, and values nested at most 40 deep.
Then there are replies that report these collections, and every one of them is nested no deeper than
readers follow and holds exactly these collections. They are read from every text that spells the
reply, in particular from the one that is written of it if the numbers in it read back. -/
theorem import_reply_readable {collections : List ExportedCollection}
    (h : ∀ exported ∈ collections, ∀ shape, exported.shape = some shape →
      shape.Reportable (maxShapeDepth + 1) 40) :
    (∃ tree, ImportReply.ReportedBy collections tree) ∧
      ∀ tree, ImportReply.ReportedBy collections tree →
        tree.depth ≤ Written.maxDepth ∧
        ImportReply.ofJson? tree = some ⟨true, some ⟨some collections, none⟩, none⟩ ∧
        (∀ text, Written.read? text = some tree.written →
          importedExports text = .ok ⟨some collections, none⟩) ∧
        (tree.NumbersReadBack → importedExports tree.pretty = .ok ⟨some collections, none⟩) := by
  refine ⟨⟨_, ImportReply.reportedBy_success fun exported hexported shape hshape ↦
    (h exported hexported shape hshape).finiteBounds⟩, fun tree htree ↦ ?_⟩
  have hdepth : tree.depth ≤ Written.maxDepth := by
    refine ImportReply.depth_le_of_reportedBy htree fun exported hexported shape hshape inner hinner ↦ ?_
    have hreportable := h exported hexported shape hshape
    have hheight : shape.height ≤ 41 := hreportable.height_le
    have hnested := Shape.depth_le_of_describedBy hreportable.values_depth_le hinner
    omega
  have hreply : ImportReply.ofJson? tree = some ⟨true, some ⟨some collections, none⟩, none⟩ := by
    refine ImportReply.ofJson?_of_reportedBy htree fun exports hexports ↦ ?_
    refine ModuleExports.ofJson?_of_reportedBy hexports fun exported hexported inner hinner ↦ ?_
    refine ExportedCollection.ofJson?_of_describedBy hinner fun shape hshape _ hdesc ↦ ?_
    exact Shape.ofJson?_of_describedBy (h exported hexported shape hshape).settled hdesc
  have hread : ∀ text, Written.read? text = some tree.written →
      importedExports text = .ok ⟨some collections, none⟩ := fun text htext ↦ by
    have hkeeps := ImportReply.keeps_of_reportedBy htree
    rw [importedExports, Layout.read?_of_written htext hdepth hkeeps, hreply]
    rfl
  exact ⟨hdepth, hreply, hread, fun hnumbers ↦ hread _ (Written.read?_pretty hnumbers)⟩

/-! ### A reply at the limit -/

/-- A value nested this deep. -/
def Json.nest : Nat → Json
  | 0 => .null
  | n + 1 => .arr [nest n]

theorem Json.settled_nest (n : Nat) : (nest n).Settled := by
  induction n with
  | zero => exact settled_null
  | succ n ih => exact settled_arr.2 (List.forall_mem_singleton.2 ih)

theorem Json.numbersReadBack_nest (n : Nat) : (nest n).NumbersReadBack := by
  induction n with
  | zero => exact numbersReadBack_null
  | succ n ih => exact numbersReadBack_arr.2 (List.forall_mem_singleton.2 ih)

theorem Json.depth_nest (n : Nat) : (nest n).depth = n := by
  induction n with
  | zero => rfl
  | succ n ih => simp [nest, depth, depthItems, ih]

namespace Shape

/-- Objects and unions in turn around a literal, one object more than unions. -/
def burrow (value : Json) : Nat → Shape
  | 0 => .object [("end", .literal value)]
  | n + 1 => .object [("next", .union [burrow value n])]

theorem everywhere_burrow {p : Shape → Prop} {value : Json} (hliteral : p (.literal value))
    (hobject : ∀ name inner, p (.object [(name, inner)])) (hunion : ∀ inner, p (.union [inner])) :
    ∀ n, (burrow value n).Everywhere p
  | 0 => .intro (hobject _ _) (List.forall_mem_singleton.2 (.intro hliteral nofun))
  | n + 1 => .intro (hobject _ _) (List.forall_mem_singleton.2 (.intro (hunion _)
      (List.forall_mem_singleton.2 (everywhere_burrow hliteral hobject hunion n))))

/-- Each round adds an object and a union. -/
theorem height_burrow (value : Json) (n : Nat) : (burrow value n).height = 2 * n + 1 := by
  induction n with
  | zero => rfl
  | succ n ih => simp only [burrow, height, heightFields, heightList, ih]; omega

/-- However deep it is, the shape has what is asked of shapes that are reported. -/
theorem reportable_burrow {value : Json} (hvalue : value.Settled) (n : Nat) :
    (burrow value n).Reportable (2 * n + 1) value.depth where
  settled := everywhere_burrow ⟨nofun, List.forall_mem_singleton.2 hvalue⟩
    (fun _ _ ↦ ⟨fun _ heq ↦ Option.some.inj heq ▸ by simp [Keyed.DistinctKeys, Keyed.keys], nofun⟩)
    (fun _ ↦ ⟨nofun, nofun⟩) n
  finiteBounds := everywhere_burrow (by simp [bounds]) (by simp [bounds]) (by simp [bounds]) n
  height_le := (height_burrow value n).le
  values_depth_le := everywhere_burrow (by simp [values]) (by simp [values]) (by simp [values]) n

theorem numbersReadBack_burrow {value : Json} (hvalue : value.NumbersReadBack) (n : Nat) :
    (burrow value n).toJson.NumbersReadBack := by
  induction n with
  | zero => simp [burrow, toJson, fieldsToJson, Kind.member, hvalue]
  | succ n ih => simp [burrow, toJson, fieldsToJson, listToJson, Kind.member, ih]

end Shape

namespace ExportedCollection

/-- A collection whose shape is as high and whose value as deep as they may be. -/
def deepest : ExportedCollection := ⟨"deep", some "data", some (.burrow (Json.nest 40) 20)⟩

/-- A collection of which nothing is known but its name. -/
def bare : ExportedCollection := ⟨"notes", none, none⟩

/-- A collection of lists of whole numbers from zero on. -/
def counts : ExportedCollection :=
  ⟨"counts", none, some (.array (.number true (some (.finite .zero)) none) none none)⟩

/-- A shape with an integer bound, as the script reports it of a schema of whole numbers. -/
theorem reportable_counts :
    (Shape.array (.number true (some (.finite .zero)) none) none none).Reportable 41 40 where
  settled := .intro ⟨nofun, nofun⟩ (List.forall_mem_singleton.2 (.intro ⟨nofun, nofun⟩ nofun))
  finiteBounds := .intro (by simp [Shape.bounds])
    (List.forall_mem_singleton.2 (.intro (by simp [Shape.bounds]) nofun))
  height_le := by simp [Shape.height]
  values_depth_le := .intro nofun (List.forall_mem_singleton.2 (.intro nofun nofun))

/-- What the runtime tells of it: `null` for all that there is not, and zero as an integer. -/
def countsTold : Json :=
  .obj [("name", .str "counts"), ("type", .null), ("schema", .obj [Shape.Kind.array.member,
    ("element", .obj [Shape.Kind.number.member, ("integer", .bool true), ("minimum", .num (.int 0))]),
    ("min_items", .null), ("max_items", .null)])]

theorem describedBy_countsTold : counts.DescribedBy countsTold := by
  have hnumber : (Shape.number true (some (.finite .zero)) none).DescribedBy
      (.obj [Shape.Kind.number.member, ("integer", .bool true), ("minimum", .num (.int 0))]) :=
    Shape.Kind.describes_member_cons (by decide) ⟨⟨_, rfl, rfl⟩, ⟨_, rfl, .int rfl⟩, nofun⟩
  have harray : (Shape.array (.number true (some (.finite .zero)) none) none none).DescribedBy
      (.obj [Shape.Kind.array.member, ("element", .obj [Shape.Kind.number.member,
        ("integer", .bool true), ("minimum", .num (.int 0))]),
        ("min_items", .null), ("max_items", .null)]) :=
    Shape.Kind.describes_member_cons (by decide)
      ⟨⟨_, rfl, hnumber⟩, Record.lacks_of_null rfl, Record.lacks_of_null rfl⟩
  exact ⟨_, rfl, by simp [Keyed.DistinctKeys, Keyed.keys], by simp [Keyed.keys], ⟨_, rfl, rfl⟩,
    Record.lacks_of_null rfl, ⟨_, rfl, harray⟩⟩

theorem numbersReadBack_countsTold : countsTold.NumbersReadBack := by
  have hzero : (Json.num (.int 0)).NumbersReadBack :=
    .intro (fun n heq ↦ by obtain rfl := Json.num.inj heq; exact ⟨_, rfl, rfl⟩) nofun
  simp [countsTold, Shape.Kind.member, hzero]

end ExportedCollection

/-- A reply with these three. -/
def ImportReply.deepest : Json :=
  .obj [("ok", .bool true), ("exports", .obj [
    ("collections", .arr [ExportedCollection.deepest.told, ExportedCollection.bare.told,
      ExportedCollection.countsTold]),
    ("shapeIssue", .null)])]

theorem ImportReply.reportedBy_deepest : ReportedBy [.deepest, .bare, .counts] deepest := by
  have hdeepest : ExportedCollection.deepest.DescribedBy ExportedCollection.deepest.told :=
    ExportedCollection.describedBy_told fun shape heq ↦ Option.some.inj heq ▸
      (Shape.reportable_burrow (Json.settled_nest 40) 20).finiteBounds
  have hbare : ExportedCollection.bare.DescribedBy ExportedCollection.bare.told :=
    ExportedCollection.describedBy_told fun shape heq ↦ absurd heq.symm (Option.some_ne_none shape)
  have hexports : ModuleExports.ReportedBy [.deepest, .bare, .counts]
      (.obj [("collections", .arr [ExportedCollection.deepest.told, ExportedCollection.bare.told,
        ExportedCollection.countsTold]), ("shapeIssue", .null)]) :=
    ⟨_, rfl, by simp [Keyed.DistinctKeys, Keyed.keys], by simp [Keyed.keys],
      ⟨_, rfl, _, rfl, .cons hdeepest (.cons hbare (.cons
        ExportedCollection.describedBy_countsTold .nil))⟩, Record.lacks_of_null rfl⟩
  exact ⟨_, rfl, by simp [Keyed.DistinctKeys, Keyed.keys], by simp [Keyed.keys], ⟨_, rfl, rfl⟩,
    ⟨_, rfl, hexports⟩, fun value heq ↦ by cases heq⟩

/-- The reply leaves no room, and is read. -/
theorem import_reply_readable_deepest :
    (∀ exported ∈ [ExportedCollection.deepest, .bare, .counts], ∀ shape,
      exported.shape = some shape → shape.Reportable (maxShapeDepth + 1) 40) ∧
    ImportReply.ReportedBy [.deepest, .bare, .counts] ImportReply.deepest ∧
    ImportReply.deepest.depth = Written.maxDepth ∧
      importedExports ImportReply.deepest.pretty = .ok ⟨some [.deepest, .bare, .counts], none⟩ := by
  have hburrow := Shape.reportable_burrow (Json.settled_nest 40) 20
  rw [Json.depth_nest] at hburrow
  have hshapes : ∀ exported ∈ [ExportedCollection.deepest, .bare, .counts], ∀ shape,
      exported.shape = some shape → shape.Reportable (maxShapeDepth + 1) 40 :=
    List.forall_mem_cons.2 ⟨fun shape heq ↦ Option.some.inj heq ▸ hburrow,
      List.forall_mem_cons.2 ⟨nofun, List.forall_mem_singleton.2 fun shape heq ↦
        Option.some.inj heq ▸ ExportedCollection.reportable_counts⟩⟩
  have hdepth : ImportReply.deepest.depth = Written.maxDepth := by decide +kernel
  have hnumbers : ImportReply.deepest.NumbersReadBack := by
    have hnested := Shape.numbersReadBack_burrow (Json.numbersReadBack_nest 40) 20
    simp [ImportReply.deepest, ExportedCollection.told, ExportedCollection.deepest,
      ExportedCollection.bare, hnested, ExportedCollection.numbersReadBack_countsTold]
  have hreport := ImportReply.reportedBy_deepest
  exact ⟨hshapes, hreport, hdepth, ((import_reply_readable hshapes).2 _ hreport).2.2.2 hnumbers⟩

end ContentSchema
