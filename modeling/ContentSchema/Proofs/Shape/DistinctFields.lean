import ContentSchema.Proofs.Json.Records
import ContentSchema.Shape.Wire
/-!
# Distinct field names

The fields of an object are a dictionary, so no object names a field twice. `Shape.DistinctFields`
says so of every object inside a shape, and `distinctFields_of_ofJson?` that every shape that is
read has it: the reader builds the fields of an object with `Keyed.ofList`, and takes all other
shapes inside a shape from the same reader one level down (`ofFields?_eq_some`). `Shape.Settled` says
the same of the JSON values inside a shape as well, and the same reader has it (`settled_of_ofJson?`).

The predicates recurse through `Shape.parts`, the shapes directly inside a shape, so that one
constructor serves all kinds; `distinctFields_iff` opens `DistinctFields` one level.
-/

namespace ContentSchema

/-! ### What readers take from a tree -/

namespace Json

/-- What is in a list that was read was read from an item. -/
theorem exists_read_of_mem_asList? {α : Type} {read : Json → Option α} {tree : Json}
    {values : List α} (h : tree.asList? read = some values) {value : α} (hvalue : value ∈ values) :
    ∃ item, read item = some value := by
  unfold asList? at h
  split at h
  · obtain ⟨item, -, hitem⟩ := exists_of_mem_mapM h hvalue
    exact ⟨item, hitem⟩
  · simp at h

/-- A dictionary that was read has no repeated keys, whatever the text had. -/
theorem distinctKeys_of_asKeyed? {α : Type} {read : Json → Option α} {tree : Json}
    {values : Keyed α} (h : tree.asKeyed? read = some values) :
    values.DistinctKeys ∧ ∀ entry ∈ values, ∃ item, read item = some entry.2 := by
  unfold asKeyed? at h
  split at h
  · obtain ⟨entries, hentries, rfl⟩ := Option.map_eq_some_iff.1 h
    refine ⟨Keyed.distinctKeys_ofList entries, fun entry hentry ↦ ?_⟩
    obtain ⟨member, -, hmember⟩ := exists_of_mem_mapM hentries (Keyed.mem_of_mem_ofList hentry)
    obtain ⟨value, hvalue, rfl⟩ := Option.map_eq_some_iff.1 hmember
    exact ⟨member.2, hvalue⟩
  · simp at h

end Json

theorem Record.exists_read_of_required {α : Type} {record : Record} {name : String}
    {read : Json → Option α} {value : α} (h : record.required name read = some value) :
    ∃ tree, read tree = some value := by
  obtain ⟨tree, -, htree⟩ := Option.bind_eq_some_iff.1 h
  exact ⟨tree, htree⟩

namespace Shape

/-- The shapes directly inside a shape, in order. -/
def parts : Shape → List Shape
  | .object fields => fields.map (·.2)
  | .variants _ options | .union options => options
  | .tuple items => items
  | .array inner _ _ | .optional inner | .nullable inner | .defaulted inner _ | .effects inner
  | .record inner => [inner]
  | _ => []

theorem mem_parts_of_wrapped? {shape inner : Shape} (h : shape.wrapped? = some inner) :
    inner ∈ shape.parts := by
  cases shape with
  | optional _ | nullable _ | defaulted _ _ | effects _ =>
    simpa [parts, eq_comm] using Option.some.inj h
  | _ => simp [wrapped?] at h

/-- The property holds of the shape and of every shape inside it. -/
inductive Everywhere (p : Shape → Prop) : Shape → Prop where
  | intro {shape : Shape} (here : p shape) (parts : ∀ part ∈ shape.parts, Everywhere p part) :
      Everywhere p shape

/-- A property holds throughout a shape if it holds of the shape and throughout each of its parts.
-/
theorem everywhere_iff {p : Shape → Prop} {shape : Shape} :
    shape.Everywhere p ↔ p shape ∧ ∀ part ∈ shape.parts, part.Everywhere p := by
  constructor
  · rintro ⟨here, parts⟩
    exact ⟨here, parts⟩
  · rintro ⟨here, parts⟩
    exact .intro here parts

theorem Everywhere.of_mem_parts {p : Shape → Prop} {shape part : Shape} (h : shape.Everywhere p)
    (hpart : part ∈ shape.parts) : part.Everywhere p :=
  (everywhere_iff.1 h).2 part hpart

/-- No object inside a shape has two fields of one name. -/
inductive DistinctFields : Shape → Prop where
  | intro {shape : Shape}
      (hfields : ∀ fields, shape.fields? = some fields → Keyed.DistinctKeys fields)
      (hparts : ∀ part ∈ shape.parts, DistinctFields part) : DistinctFields shape

theorem distinctFields_iff {shape : Shape} :
    shape.DistinctFields ↔ (∀ fields, shape.fields? = some fields → Keyed.DistinctKeys fields) ∧
      ∀ part ∈ shape.parts, part.DistinctFields := by
  constructor
  · rintro ⟨hfields, hparts⟩
    exact ⟨hfields, hparts⟩
  · rintro ⟨hfields, hparts⟩
    exact .intro hfields hparts

theorem DistinctFields.of_mem_parts {shape part : Shape} (h : shape.DistinctFields)
    (hpart : part ∈ shape.parts) : part.DistinctFields :=
  (distinctFields_iff.1 h).2 part hpart

/-- An object has distinct fields if no name stands twice and the shapes of the fields have distinct
fields. -/
theorem distinctFields_object {fields : List (String × Shape)} :
    (Shape.object fields).DistinctFields ↔
      Keyed.DistinctKeys fields ∧ ∀ field ∈ fields, field.2.DistinctFields := by
  rw [distinctFields_iff]
  refine and_congr ⟨fun h ↦ h fields rfl, ?_⟩ List.forall_mem_map
  exact fun h _ heq ↦ Option.some.inj heq ▸ h

/-- The JSON values that a shape holds beside the shapes inside it. -/
def values : Shape → List Json
  | .defaulted _ value => [value]
  | .literal value => [value]
  | _ => []

/-- No object inside a shape names a field twice, and none in a value inside it a member. -/
def Settled (shape : Shape) : Prop :=
  shape.Everywhere fun part ↦
    (∀ fields, part.fields? = some fields → Keyed.DistinctKeys fields) ∧
      ∀ value ∈ part.values, value.Settled

theorem Settled.distinctFields {shape : Shape} (h : shape.Settled) : shape.DistinctFields := by
  induction h with
  | intro here parts ih => exact .intro here.1 ih

/-! ### Shapes that are read -/

/-- What the reader of a kind puts inside a shape comes from the reader that it is given, the fields
of an object are a dictionary, and so are the objects in a value. -/
theorem ofFields?_eq_some {read : Json → Option Shape} {kind : Kind} {record : Record}
    {shape : Shape} (h : ofFields? read kind record = some shape) :
    (∀ fields, shape.fields? = some fields → Keyed.DistinctKeys fields) ∧
      (∀ part ∈ shape.parts, ∃ tree, read tree = some part) ∧
      ∀ value ∈ shape.values, value.Settled := by
  cases kind
  case object =>
    obtain ⟨fields, hfields, rfl⟩ := Option.map_eq_some_iff.1 h
    obtain ⟨tree, htree⟩ := Record.exists_read_of_required hfields
    obtain ⟨hkeys, hread⟩ := Json.distinctKeys_of_asKeyed? htree
    refine ⟨fun _ heq ↦ Option.some.inj heq ▸ hkeys, fun part hpart ↦ ?_, nofun⟩
    obtain ⟨field, hfield, rfl⟩ := List.mem_map.1 hpart
    exact hread field hfield
  case variants =>
    obtain ⟨discriminator, -, h⟩ := Option.bind_eq_some_iff.1 h
    obtain ⟨options, hoptions, h⟩ := Option.bind_eq_some_iff.1 h
    obtain rfl := Option.some.inj h
    obtain ⟨tree, htree⟩ := Record.exists_read_of_required hoptions
    exact ⟨nofun, fun part hpart ↦ Json.exists_read_of_mem_asList? htree hpart, nofun⟩
  case array =>
    obtain ⟨element, helement, h⟩ := Option.bind_eq_some_iff.1 h
    obtain ⟨minItems, -, h⟩ := Option.bind_eq_some_iff.1 h
    obtain ⟨maxItems, -, h⟩ := Option.bind_eq_some_iff.1 h
    obtain rfl := Option.some.inj h
    refine ⟨nofun, fun part hpart ↦ ?_, nofun⟩
    exact List.mem_singleton.1 hpart ▸ Record.exists_read_of_required helement
  case defaulted =>
    obtain ⟨inner, hinner, h⟩ := Option.bind_eq_some_iff.1 h
    obtain ⟨value, hvalue, h⟩ := Option.bind_eq_some_iff.1 h
    obtain rfl := Option.some.inj h
    refine ⟨nofun, fun part hpart ↦ ?_,
      List.forall_mem_singleton.2 (Record.settled_of_defaulted hvalue)⟩
    exact List.mem_singleton.1 hpart ▸ Record.exists_read_of_required hinner
  case optional | nullable | effects | record =>
    obtain ⟨inner, hinner, rfl⟩ := Option.map_eq_some_iff.1 h
    refine ⟨nofun, fun part hpart ↦ ?_, nofun⟩
    exact List.mem_singleton.1 hpart ▸ Record.exists_read_of_required hinner
  case union | tuple =>
    obtain ⟨items, hitems, rfl⟩ := Option.map_eq_some_iff.1 h
    obtain ⟨tree, htree⟩ := Record.exists_read_of_required hitems
    exact ⟨nofun, fun part hpart ↦ Json.exists_read_of_mem_asList? htree hpart, nofun⟩
  case string =>
    obtain ⟨format, -, h⟩ := Option.bind_eq_some_iff.1 h
    obtain ⟨minLength, -, h⟩ := Option.bind_eq_some_iff.1 h
    obtain ⟨maxLength, -, h⟩ := Option.bind_eq_some_iff.1 h
    obtain ⟨pattern, -, h⟩ := Option.bind_eq_some_iff.1 h
    obtain rfl := Option.some.inj h
    exact ⟨nofun, nofun, nofun⟩
  case number =>
    obtain ⟨integer, -, h⟩ := Option.bind_eq_some_iff.1 h
    obtain ⟨minimum, -, h⟩ := Option.bind_eq_some_iff.1 h
    obtain ⟨maximum, -, h⟩ := Option.bind_eq_some_iff.1 h
    obtain rfl := Option.some.inj h
    exact ⟨nofun, nofun, nofun⟩
  case literal =>
    obtain ⟨value, hvalue, rfl⟩ := Option.map_eq_some_iff.1 h
    exact ⟨nofun, nofun, List.forall_mem_singleton.2 (Record.settled_of_defaulted hvalue)⟩
  case enumeration | reference | other =>
    obtain ⟨_, -, rfl⟩ := Option.map_eq_some_iff.1 h
    exact ⟨nofun, nofun, nofun⟩
  case boolean | date | null | any | unrecognized =>
    obtain rfl := Option.some.inj h
    exact ⟨nofun, nofun, nofun⟩

/-- Every shape that is read is settled: fields are read into a dictionary, and values are settled
as they are read. -/
theorem settled_of_read? {nested : Bool} {room : Nat} {tree : Json} {shape : Shape}
    (h : read? nested room tree = some shape) : shape.Settled := by
  induction room generalizing nested tree shape with
  | zero => simp [read?] at h
  | succ room ih =>
    obtain ⟨⟨kind, tagged⟩, -, hfields⟩ := Option.bind_eq_some_iff.1 h
    obtain ⟨record, -, hshape⟩ := Option.bind_eq_some_iff.1 hfields
    obtain ⟨hkeys, hread, hvalues⟩ := ofFields?_eq_some hshape
    refine .intro ⟨hkeys, hvalues⟩ fun part hpart ↦ ?_
    obtain ⟨inner, hinner⟩ := hread part hpart
    exact ih hinner

/-- Every shape that is read is settled, however deep. -/
theorem settled_of_ofJson? {tree : Json} {shape : Shape} (h : ofJson? tree = some shape) :
    shape.Settled :=
  settled_of_read? h

/-- Every shape that is read has distinct field names, however deep. -/
theorem distinctFields_of_read? {nested : Bool} {room : Nat} {tree : Json} {shape : Shape}
    (h : read? nested room tree = some shape) : shape.DistinctFields :=
  (settled_of_read? h).distinctFields

theorem distinctFields_of_ofJson? {tree : Json} {shape : Shape} (h : ofJson? tree = some shape) :
    shape.DistinctFields :=
  distinctFields_of_read? h

end Shape

end ContentSchema
