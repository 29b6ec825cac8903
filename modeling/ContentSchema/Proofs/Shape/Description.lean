import ContentSchema.Proofs.Shape.Reader
/-!
# Descriptions of shapes

Who writes a shape has choices: the fields may stand in any order, an optional one without a value may
be left out or be `null`, and a bound may be an integer or a real number. `Shape.DescribedBy` relates a
shape to all the trees that come of these choices; the wire form is one of them
(`describedBy_toJson`), and the form in which a runtime reports shapes is another.

Every description is read as the shape that it describes (`read?_of_describedBy`). The room that the
reader counts down is counted in shapes, not in levels of the tree, so it need only exceed the height of
the shape; the reader of a whole tree gives itself room by the depth of the tree, and the law of the
reader that what is read in some room is read in every room above the depth makes up the difference
(`ofJson?_of_describedBy`).
-/

namespace ContentSchema

/-- A number with the value of a bound: a real number, or an integer that it is the nearest double to. -/
inductive Real64.DescribedBy : Real64 → Json → Prop where
  | real (value : Binary64) : DescribedBy (.finite value) (.num (.real value))
  | int {n : Int} {value : Binary64} (hvalue : Binary64.ofInt n = some value) :
      DescribedBy (.finite value) (.num (.int n))

namespace Shape

/-! ### The height of a shape -/

mutual

/-- How many shapes stand above the leaf that has the most of them. A shape that may hold others is a
leaf if it holds none. -/
def height : Shape → Nat
  | .object fields => heightFields fields
  | .variants _ options | .union options | .tuple options => heightList options
  | .array inner _ _ | .optional inner | .nullable inner | .defaulted inner _ | .effects inner
  | .record inner => height inner + 1
  | _ => 0

/-- The height of a shape that holds these. -/
def heightList : List Shape → Nat
  | [] => 0
  | shape :: shapes => max (height shape + 1) (heightList shapes)

/-- The height of an object with these fields. -/
def heightFields : List (String × Shape) → Nat
  | [] => 0
  | (_, shape) :: fields => max (height shape + 1) (heightFields fields)

end

theorem height_lt_heightList {shapes : List Shape} {shape : Shape} (h : shape ∈ shapes) :
    shape.height < heightList shapes := by
  induction shapes with
  | nil => cases h
  | cons first shapes ih =>
    rw [heightList]
    rcases List.mem_cons.1 h with rfl | h
    · exact Nat.le_max_left _ _
    · exact Nat.le_trans (ih h) (Nat.le_max_right _ _)

theorem heightFields_eq (fields : List (String × Shape)) :
    heightFields fields = heightList (fields.map (·.2)) := by
  induction fields with
  | nil => rfl
  | cons field fields ih => rw [heightFields, ih, List.map_cons, heightList]

/-- The shapes inside a shape are less high than it, of whatever kind it is. -/
theorem height_lt_of_mem_parts {shape part : Shape} (hpart : part ∈ shape.parts) :
    part.height < shape.height := by
  cases shape with
  | object fields =>
    rw [height, heightFields_eq]
    exact height_lt_heightList hpart
  | variants _ _ | union _ | tuple _ =>
    rw [height]
    exact height_lt_heightList hpart
  | array _ _ _ | optional _ | nullable _ | defaulted _ _ | effects _ | record _ =>
    rw [List.mem_singleton.1 hpart, height]
    exact Nat.lt_succ_self _
  | _ => cases hpart

/-! ### Trees that describe a shape -/

/-- An object that names its kind and has fields of that kind only, which are as `p` says. -/
def Kind.Describes (kind : Kind) (p : Record → Prop) : Json → Prop :=
  Json.IsRecord ("kind" :: kind.fieldNames) fun record ↦
    record.Has "kind" (· = .str kind.name) ∧ p record

mutual

/-- The tree tells the kind of the shape and all of its fields. -/
def DescribedBy : Shape → Json → Prop
  | .object fields => Kind.object.Describes fun record ↦
    record.Has "shape" fun tree ↦ ∃ members, tree = .obj members ∧ FieldsDescribedBy fields members
  | .array element minItems maxItems => Kind.array.Describes fun record ↦
    record.Has "element" (DescribedBy element) ∧
      record.MayHave "min_items" minItems (fun count tree ↦ tree = Json.ofNat count) ∧
      record.MayHave "max_items" maxItems (fun count tree ↦ tree = Json.ofNat count)
  | .variants discriminator options => Kind.variants.Describes fun record ↦
    record.Has "discriminator" (· = .str discriminator) ∧
      record.Has "options" fun tree ↦ ∃ items, tree = .arr items ∧ ListDescribedBy options items
  | .union options => Kind.union.Describes fun record ↦
    record.Has "options" fun tree ↦ ∃ items, tree = .arr items ∧ ListDescribedBy options items
  | .optional inner => Kind.optional.Describes (·.Has "inner" (DescribedBy inner))
  | .nullable inner => Kind.nullable.Describes (·.Has "inner" (DescribedBy inner))
  | .defaulted inner value => Kind.defaulted.Describes fun record ↦
    record.Has "inner" (DescribedBy inner) ∧ record.Has "value" (· = value)
  | .effects inner => Kind.effects.Describes (·.Has "inner" (DescribedBy inner))
  | .literal value => Kind.literal.Describes (·.Has "value" (· = value))
  | .string format minLength maxLength pattern => Kind.string.Describes fun record ↦
    record.MayHave "format" format (fun text tree ↦ tree = .str text) ∧
      record.MayHave "min_length" minLength (fun count tree ↦ tree = Json.ofNat count) ∧
      record.MayHave "max_length" maxLength (fun count tree ↦ tree = Json.ofNat count) ∧
      record.MayHave "pattern" pattern (fun text tree ↦ tree = .str text)
  | .number integer minimum maximum => Kind.number.Describes fun record ↦
    record.Has "integer" (· = .bool integer) ∧
      record.MayHave "minimum" minimum Real64.DescribedBy ∧
      record.MayHave "maximum" maximum Real64.DescribedBy
  | .boolean => Kind.boolean.Describes fun _ ↦ True
  | .date => Kind.date.Describes fun _ ↦ True
  | .null => Kind.null.Describes fun _ ↦ True
  | .any => Kind.any.Describes fun _ ↦ True
  | .enumeration values => Kind.enumeration.Describes (·.Has "values" (· = .arr (values.map .str)))
  | .record value => Kind.record.Describes (·.Has "value" (DescribedBy value))
  | .tuple items => Kind.tuple.Describes fun record ↦
    record.Has "items" fun tree ↦ ∃ trees, tree = .arr trees ∧ ListDescribedBy items trees
  | .reference collection => Kind.reference.Describes (·.Has "collection" (· = .str collection))
  | .other typeName => Kind.other.Describes (·.Has "type_name" (· = .str typeName))
  | .unrecognized => Kind.unrecognized.Describes fun _ ↦ True

/-- The trees describe the shapes, in order. -/
def ListDescribedBy : List Shape → List Json → Prop
  | [], [] => True
  | shape :: shapes, tree :: trees => DescribedBy shape tree ∧ ListDescribedBy shapes trees
  | _, _ => False

/-- The members have the names of the fields, in order, and their trees describe the shapes. -/
def FieldsDescribedBy : List (String × Shape) → List (String × Json) → Prop
  | [], [] => True
  | (name, shape) :: fields, (key, tree) :: members =>
    name = key ∧ DescribedBy shape tree ∧ FieldsDescribedBy fields members
  | _, _ => False

end

/-- A list is described shape by shape. -/
theorem listDescribedBy_iff {shapes : List Shape} {trees : List Json} :
    ListDescribedBy shapes trees ↔ List.Forall₂ DescribedBy shapes trees := by
  induction shapes generalizing trees with
  | nil => cases trees <;> simp [ListDescribedBy]
  | cons shape shapes ih => cases trees <;> simp [ListDescribedBy, ih]

/-- Fields are described by members of the same names, in the same order. -/
theorem fieldsDescribedBy_iff {fields : List (String × Shape)} {members : List (String × Json)} :
    FieldsDescribedBy fields members ↔
      List.Forall₂ (fun field member ↦ field.1 = member.1 ∧ field.2.DescribedBy member.2)
        fields members := by
  induction fields generalizing members with
  | nil => cases members <;> simp [FieldsDescribedBy]
  | cons field fields ih => cases members <;> simp [FieldsDescribedBy, ih, and_assoc]

/-! ### Reading a description -/

theorem Holding.refines_refl (read : Json → Option Shape) (holding : Holding) (tree : Json) :
    holding.Refines read read tree tree := by
  cases holding with
  | data => exact rfl
  | one | list | keyed => exact fun _ h ↦ h

/-- An object of a kind opens into that kind, and the reader finds its fields. -/
theorem Kind.Describes.exists_opens {kind : Kind} {p : Record → Prop} {tree : Json}
    (h : kind.Describes p tree) (nested : Bool) :
    ∃ record fields, p record ∧ Opens nested tree kind fields ∧
      ∀ name ∈ kind.fieldNames, Keyed.find? fields name = Keyed.find? record name := by
  obtain ⟨record, rfl, hkeys, -, ⟨tag, htag, rfl⟩, hp⟩ := h
  refine ⟨record, record.filter (kind.fieldNames.contains ·.1), hp, ?_, fun name hname ↦ ?_⟩
  · have hkind : Kind.ofTag? nested (.str kind.name) = some kind := by
      rw [Kind.ofTag?, Kind.ofName_name]
    exact opens_obj_iff.2 ⟨⟨_, _, hkeys.filter_eq_singleton htag, hkind⟩, rfl,
      hkeys.sublist (List.filter_sublist.map _)⟩
  · rw [Keyed.find?_filter, if_pos (List.contains_iff_mem.2 hname)]

/-- What the reader of the kind takes from the fields is read of the object. -/
theorem Kind.Describes.read? {kind : Kind} {p : Record → Prop} {tree : Json} {shape : Shape}
    {room : Nat} (h : kind.Describes p tree)
    (hread : ∀ record, p record → ofFields? (Shape.read? true room) kind record = some shape)
    (nested : Bool) : Shape.read? nested (room + 1) tree = some shape := by
  obtain ⟨record, fields, hp, hopens, hfind⟩ := h.exists_opens nested
  refine read?_eq_some_iff.2 ⟨kind, fields, hopens, ofFields?_mono (fun name hname ↦ ?_)
    (hread record hp)⟩
  rw [hfind name hname]
  cases Keyed.find? record name with
  | none => exact .none
  | some value => exact .some (Holding.refines_refl _ _ _)

section

variable {read : Json → Option Shape}

/-- A described list is read as the list, if each of its shapes is read from its description. -/
theorem asList?_of_listDescribedBy {shapes : List Shape} {trees : List Json}
    (h : ListDescribedBy shapes trees)
    (hread : ∀ shape ∈ shapes, ∀ tree, shape.DescribedBy tree → read tree = some shape) :
    Json.asList? read (.arr trees) = some shapes := by
  have hboth := (List.forall₂_and_left _ _).2 ⟨hread, listDescribedBy_iff.1 h⟩
  refine mapM_eq_some_iff.2 (List.Forall₂.flip (hboth.imp ?_))
  rintro shape tree ⟨hread, htree⟩
  exact hread tree htree

theorem asKeyed?_of_fieldsDescribedBy {fields : List (String × Shape)}
    {members : List (String × Json)} (h : FieldsDescribedBy fields members)
    (hkeys : Keyed.DistinctKeys fields)
    (hread : ∀ field ∈ fields, ∀ tree, field.2.DescribedBy tree → read tree = some field.2) :
    Json.asKeyed? read (.obj members) = some fields := by
  have hboth := (List.forall₂_and_left _ _).2 ⟨hread, fieldsDescribedBy_iff.1 h⟩
  have hfields : members.mapM (fun member ↦ (read member.2).map ((member.1, ·))) = some fields := by
    refine mapM_eq_some_iff.2 (List.Forall₂.flip (hboth.imp ?_))
    rintro field member ⟨hread, hname, htree⟩
    show (read member.2).map ((member.1, ·)) = some field
    rw [hread member.2 htree, ← hname, Option.map_some]
  rw [Json.asKeyed?, hfields, Option.map_some, Keyed.ofList_of_distinctKeys hkeys]

end

/-- Bounds are finite where they are described, and read as they are. -/
theorem bound?_of_describedBy {bound : Real64} {tree : Json} (h : bound.DescribedBy tree) :
    tree.asOptional? bound? = some (some bound) := by
  cases h with
  | real value => rfl
  | int hvalue => simp [Json.asOptional?, bound?, Json.asReal?, hvalue]

/-- A description is read as the shape that it describes if the descriptions inside it are. -/
theorem read?_of_parts {shape : Shape} {tree : Json} {room : Nat} (h : shape.DescribedBy tree)
    (hparts : ∀ part ∈ shape.parts, ∀ inner, part.DescribedBy inner →
      read? true room inner = some part)
    (hkeys : ∀ fields, shape.fields? = some fields → Keyed.DistinctKeys fields)
    (hvalues : ∀ value ∈ shape.values, value.Settled) (nested : Bool) :
    read? nested (room + 1) tree = some shape := by
  have hvalue : ∀ value ∈ shape.values, ∀ inner, inner = value → Json.asAny? inner = some value := by
    rintro value hmem _ rfl
    rw [Json.asAny?, Json.settle_of_settled (hvalues _ hmem)]
  have htext : ∀ (text : String) (inner : Json), inner = .str text →
      Json.asString? inner = some text := fun _ _ heq ↦ heq ▸ rfl
  cases shape with
  | object fields =>
    refine Kind.Describes.read? h (fun record hshape ↦ ?_) nested
    -- the fields have distinct names, so that reading them overwrites none
    have hfields : record.required "shape" (Json.asKeyed? (read? true room)) = some fields := by
      refine Record.required_of_has hshape ?_
      rintro _ ⟨members, rfl, hmembers⟩
      exact asKeyed?_of_fieldsDescribedBy hmembers (hkeys fields rfl) (List.forall_mem_map.1 hparts)
    rw [ofFields?, hfields, Option.map_some]
  | array element minItems maxItems =>
    refine Kind.Describes.read? h (fun record hfields ↦ ?_) nested
    obtain ⟨helement, hmin, hmax⟩ := hfields
    have helement := Record.required_of_has helement (hparts element List.mem_cons_self)
    have hmin : record.optional "min_items" Json.asNat? = some minItems :=
      Record.optional_of_mayHave hmin fun count _ _ heq ↦ heq ▸ rfl
    have hmax : record.optional "max_items" Json.asNat? = some maxItems :=
      Record.optional_of_mayHave hmax fun count _ _ heq ↦ heq ▸ rfl
    simp [ofFields?, helement, hmin, hmax]
  | variants discriminator options =>
    refine Kind.Describes.read? h (fun record hfields ↦ ?_) nested
    obtain ⟨hdiscriminator, hoptions⟩ := hfields
    have hdiscriminator := Record.required_of_has hdiscriminator (htext discriminator)
    have hoptions : record.required "options" (Json.asList? (read? true room)) = some options := by
      refine Record.required_of_has hoptions ?_
      rintro _ ⟨items, rfl, hitems⟩
      exact asList?_of_listDescribedBy hitems hparts
    simp [ofFields?, hdiscriminator, hoptions]
  | union options =>
    refine Kind.Describes.read? h (fun record hoptions ↦ ?_) nested
    have hoptions : record.required "options" (Json.asList? (read? true room)) = some options := by
      refine Record.required_of_has hoptions ?_
      rintro _ ⟨items, rfl, hitems⟩
      exact asList?_of_listDescribedBy hitems hparts
    rw [ofFields?, hoptions, Option.map_some]
  | tuple items =>
    refine Kind.Describes.read? h (fun record hitems ↦ ?_) nested
    have hitems : record.required "items" (Json.asList? (read? true room)) = some items := by
      refine Record.required_of_has hitems ?_
      rintro _ ⟨trees, rfl, htrees⟩
      exact asList?_of_listDescribedBy htrees hparts
    rw [ofFields?, hitems, Option.map_some]
  | optional inner | nullable inner | effects inner =>
    refine Kind.Describes.read? h (fun record hinner ↦ ?_) nested
    have hinner := Record.required_of_has hinner (hparts inner List.mem_cons_self)
    rw [ofFields?, hinner, Option.map_some]
  | record value =>
    refine Kind.Describes.read? h (fun record hinner ↦ ?_) nested
    have hinner := Record.required_of_has hinner (hparts value List.mem_cons_self)
    rw [ofFields?, hinner, Option.map_some]
  | defaulted inner value =>
    refine Kind.Describes.read? h (fun record hfields ↦ ?_) nested
    obtain ⟨hinner, hdefault⟩ := hfields
    have hinner := Record.required_of_has hinner (hparts inner List.mem_cons_self)
    have hdefault : record.defaulted "value" .null Json.asAny? = some value :=
      Record.defaulted_of_has hdefault (hvalue value List.mem_cons_self)
    simp [ofFields?, hinner, hdefault]
  | literal value =>
    refine Kind.Describes.read? h (fun record hliteral ↦ ?_) nested
    have hliteral : record.defaulted "value" .null Json.asAny? = some value :=
      Record.defaulted_of_has hliteral (hvalue value List.mem_cons_self)
    rw [ofFields?, hliteral, Option.map_some]
  | string format minLength maxLength pattern =>
    refine Kind.Describes.read? h (fun record hfields ↦ ?_) nested
    obtain ⟨hformat, hmin, hmax, hpattern⟩ := hfields
    have hformat : record.optional "format" Json.asString? = some format :=
      Record.optional_of_mayHave hformat fun text _ _ heq ↦ heq ▸ rfl
    have hmin : record.optional "min_length" Json.asNat? = some minLength :=
      Record.optional_of_mayHave hmin fun count _ _ heq ↦ heq ▸ rfl
    have hmax : record.optional "max_length" Json.asNat? = some maxLength :=
      Record.optional_of_mayHave hmax fun count _ _ heq ↦ heq ▸ rfl
    have hpattern : record.optional "pattern" Json.asString? = some pattern :=
      Record.optional_of_mayHave hpattern fun text _ _ heq ↦ heq ▸ rfl
    simp [ofFields?, hformat, hmin, hmax, hpattern]
  | number integer minimum maximum =>
    refine Kind.Describes.read? h (fun record hfields ↦ ?_) nested
    obtain ⟨hinteger, hminimum, hmaximum⟩ := hfields
    have hinteger : record.defaulted "integer" false Json.asBool? = some integer :=
      Record.defaulted_of_has hinteger fun _ heq ↦ heq ▸ rfl
    have hminimum : record.optional "minimum" bound? = some minimum :=
      Record.optional_of_mayHave hminimum fun _ _ _ ↦ bound?_of_describedBy
    have hmaximum : record.optional "maximum" bound? = some maximum :=
      Record.optional_of_mayHave hmaximum fun _ _ _ ↦ bound?_of_describedBy
    simp [ofFields?, hinteger, hminimum, hmaximum]
  | enumeration values =>
    refine Kind.Describes.read? h (fun record htexts ↦ ?_) nested
    have htexts : record.required "values" (Json.asList? Json.asString?) = some values := by
      refine Record.required_of_has htexts ?_
      rintro _ rfl
      have hread : Json.asList? Json.asString? (.arr (values.map .str)) = some (values.map id) :=
        Json.asList?_map fun text _ ↦ htext text _ rfl
      rwa [List.map_id] at hread
    rw [ofFields?, htexts, Option.map_some]
  | reference collection =>
    refine Kind.Describes.read? h (fun record hcollection ↦ ?_) nested
    rw [ofFields?, Record.required_of_has hcollection (htext collection), Option.map_some]
  | other typeName =>
    refine Kind.Describes.read? h (fun record htype ↦ ?_) nested
    rw [ofFields?, Record.required_of_has htype (htext typeName), Option.map_some]
  | boolean | date | null | any | unrecognized => exact Kind.Describes.read? h (fun _ _ ↦ rfl) nested

/-- A description is read as the shape that it describes, in any room above the height of the shape. -/
theorem read?_of_describedBy {shape : Shape} (hsettled : shape.Settled) {tree : Json}
    (h : shape.DescribedBy tree) {nested : Bool} {room : Nat} (hroom : shape.height < room) :
    read? nested room tree = some shape := by
  induction hsettled generalizing tree nested room with
  | @intro shape here _ ih =>
    obtain ⟨room, rfl⟩ : ∃ r, room = r + 1 := ⟨room - 1, by omega⟩
    obtain ⟨hkeys, hvalues⟩ := here
    refine read?_of_parts h (fun part hpart inner hinner ↦ ?_) hkeys hvalues nested
    have hheight : part.height < shape.height := height_lt_of_mem_parts hpart
    exact ih part hpart hinner (by omega)

/-- A tree that describes a shape is read as that shape. -/
theorem ofJson?_of_describedBy {shape : Shape} (hsettled : shape.Settled) {tree : Json}
    (h : shape.DescribedBy tree) : ofJson? tree = some shape :=
  read?_of_depth_lt (read?_of_describedBy hsettled h (Nat.lt_succ_self _)) (Nat.lt_succ_self _)

/-! ### The wire form -/

/-- An object that names its kind and then has some fields of that kind, in order. -/
theorem Kind.describes_member_cons {kind : Kind} {p : Record → Prop} {members : List (String × Json)}
    (hmembers : (Keyed.keys members).Sublist kind.fieldNames) (hp : p (kind.member :: members)) :
    kind.Describes p (.obj (kind.member :: members)) := by
  refine ⟨_, rfl, ?_, ?_, ⟨.str kind.name, rfl, rfl⟩, hp⟩
  · refine (Keyed.distinctKeys_cons _ _).2 ⟨fun hmem ↦ ?_, kind.nodup_fieldNames.sublist hmembers⟩
    exact kind.kind_notMem_fieldNames (hmembers.subset hmem)
  · rw [Keyed.keys_cons]
    exact List.forall_mem_cons.2 ⟨List.mem_cons_self, fun _ hkey ↦
      List.mem_cons_of_mem _ (hmembers.subset hkey)⟩

theorem listDescribedBy_listToJson {shapes : List Shape}
    (h : ∀ shape ∈ shapes, shape.DescribedBy shape.toJson) :
    ListDescribedBy shapes (listToJson shapes) := by
  rw [listDescribedBy_iff, listToJson_eq, List.forall₂_map_right_iff, List.forall₂_same]
  exact h

theorem fieldsDescribedBy_fieldsToJson {fields : List (String × Shape)}
    (h : ∀ field ∈ fields, field.2.DescribedBy field.2.toJson) :
    FieldsDescribedBy fields (fieldsToJson fields) := by
  rw [fieldsDescribedBy_iff, fieldsToJson_eq, Keyed.mapValues, List.forall₂_map_right_iff,
    List.forall₂_same]
  exact fun field hfield ↦ ⟨rfl, h field hfield⟩

/-- A finite bound is written as a number. -/
theorem describedBy_bound_toJson {bound : Real64} (h : ∃ value, bound = .finite value) :
    bound.DescribedBy bound.toJson := by
  obtain ⟨value, rfl⟩ := h
  exact .real value

/-- The wire form of a shape describes it, if the bounds in it have a number to be written as. -/
theorem describedBy_toJson {shape : Shape} (h : shape.FiniteBounds) :
    shape.DescribedBy shape.toJson := by
  induction h with
  | @intro shape hbounds _ ih =>
    have hmembers := shape.keys_members_sublist
    rw [toJson_eq]
    cases shape with
    | object fields =>
      have hfields := fieldsDescribedBy_fieldsToJson (List.forall_mem_map.1 ih)
      exact Kind.describes_member_cons hmembers ⟨_, rfl, _, rfl, hfields⟩
    | array element minItems maxItems =>
      refine Kind.describes_member_cons hmembers
        ⟨⟨_, rfl, ih element List.mem_cons_self⟩, ?_, ?_⟩ <;>
      exact Record.mayHave_of_find? Json.ofNat
        (by simp [members, toJson, Kind.member, Keyed.find?_cons, find?_present]) fun _ _ ↦ rfl
    | variants discriminator options =>
      exact Kind.describes_member_cons hmembers
        ⟨⟨_, rfl, rfl⟩, _, rfl, _, rfl, listDescribedBy_listToJson ih⟩
    | union _ | tuple _ =>
      exact Kind.describes_member_cons hmembers ⟨_, rfl, _, rfl, listDescribedBy_listToJson ih⟩
    | optional _ | nullable _ | effects _ | record _ =>
      exact Kind.describes_member_cons hmembers ⟨_, rfl, ih _ List.mem_cons_self⟩
    | defaulted _ _ =>
      exact Kind.describes_member_cons hmembers ⟨⟨_, rfl, ih _ List.mem_cons_self⟩, _, rfl, rfl⟩
    | string format minLength maxLength pattern =>
      refine Kind.describes_member_cons hmembers ⟨?_, ?_, ?_, ?_⟩
      · exact Record.mayHave_of_find? Json.str
          (by simp [members, toJson, Kind.member, Keyed.find?_cons, find?_present]) fun _ _ ↦ rfl
      · exact Record.mayHave_of_find? Json.ofNat
          (by simp [members, toJson, Kind.member, Keyed.find?_cons, find?_present]) fun _ _ ↦ rfl
      · exact Record.mayHave_of_find? Json.ofNat
          (by simp [members, toJson, Kind.member, Keyed.find?_cons, find?_present]) fun _ _ ↦ rfl
      · exact Record.mayHave_of_find? Json.str
          (by simp [members, toJson, Kind.member, Keyed.find?_cons, find?_present]) fun _ _ ↦ rfl
    | number integer minimum maximum =>
      obtain ⟨hminimum, hmaximum⟩ := List.forall_mem_append.1 hbounds
      refine Kind.describes_member_cons hmembers ⟨⟨_, rfl, rfl⟩, ?_, ?_⟩
      · exact Record.mayHave_of_find? Real64.toJson
          (by simp [members, toJson, Kind.member, Keyed.find?_cons, find?_present]) fun bound heq ↦
          describedBy_bound_toJson (hminimum bound (Option.mem_toList.2 heq))
      · exact Record.mayHave_of_find? Real64.toJson
          (by simp [members, toJson, Kind.member, Keyed.find?_cons, find?_present]) fun bound heq ↦
          describedBy_bound_toJson (hmaximum bound (Option.mem_toList.2 heq))
    | literal _ | enumeration _ | reference _ | other _ =>
      exact Kind.describes_member_cons hmembers ⟨_, rfl, rfl⟩
    | boolean | date | null | any | unrecognized =>
      exact Kind.describes_member_cons hmembers trivial

/-- Every shape is read back from its wire form if its dictionaries are dictionaries and the bounds
of its numbers are finite. -/
theorem ofJson?_toJson {shape : Shape} (h : shape.Settled) (hbounds : shape.FiniteBounds) :
    ofJson? shape.toJson = some shape :=
  ofJson?_of_describedBy h (describedBy_toJson hbounds)

end Shape

end ContentSchema
