import Mathlib.Data.Option.Basic
import ContentSchema.Proofs.Shape.Wire
/-!
# What the reader of shapes depends on

The reader opens a tree into a kind and the fields of that kind that the tree holds (`Opens`), and
then looks each field up by its name. So two trees are read alike if they open into one kind and the
fields of each name are read alike, where `Kind.holds` says how a field is read: as plain data, or
as a tree that holds shapes (`ofFields?_mono`).

The count of levels is such a case: what is read in some room is read in every room above the depth
of the tree (`read?_of_depth_lt`), because the values of the fields are nested less deep than the
tree (`Opens.depth_lt`).

Plain data is read without going into shapes, so of such a field the two records have to agree; in a
field that holds shapes it is enough that what one reader takes from the first tree the other takes
from the second (`Holding.Refines`). The readers of the fields are alike in this, so each kind is a
case of the laws of records that come first.
-/

namespace ContentSchema

/-! ### Records that are read alike -/

namespace Record

variable {α : Type} {read read' : Json → Option α} {record record' : Record} {name : String}

/-- A reader that reads all that another one reads finds the same value in a field. -/
theorem required_mono
    (h : Option.Rel (fun tree tree' ↦ ∀ value, read tree = some value → read' tree' = some value)
      (Keyed.find? record name) (Keyed.find? record' name))
    {value : α} (hread : record.required name read = some value) :
    record'.required name read' = some value := by
  obtain ⟨tree, htree, hvalue⟩ := Option.bind_eq_some_iff.1 hread
  rw [htree] at h
  generalize hfind : Keyed.find? record' name = found at h
  cases h with
  | some h => exact required_of_find? hfind (h value hvalue)

theorem map_required_mono {β : Type} {f : α → β}
    (h : Option.Rel (fun tree tree' ↦ ∀ value, read tree = some value → read' tree' = some value)
      (Keyed.find? record name) (Keyed.find? record' name))
    {result : β} (hread : (record.required name read).map f = some result) :
    (record'.required name read').map f = some result := by
  obtain ⟨value, hvalue, rfl⟩ := Option.map_eq_some_iff.1 hread
  exact Option.map_eq_some_iff.2 ⟨value, required_mono h hvalue, rfl⟩

theorem required_congr (h : Keyed.find? record name = Keyed.find? record' name) :
    record.required name read = record'.required name read := by
  rw [required, required, h]

theorem optional_congr (h : Keyed.find? record name = Keyed.find? record' name) :
    record.optional name read = record'.optional name read := by
  rw [optional, optional, h]

theorem defaulted_congr (h : Keyed.find? record name = Keyed.find? record' name) {absent : α} :
    record.defaulted name absent read = record'.defaulted name absent read := by
  rw [defaulted, defaulted, h]

end Record

namespace Shape

/-! ### The fields that hold shapes -/

/-- What a field holds. -/
inductive Holding where
  /-- Plain data. -/
  | data
  /-- One shape. -/
  | one
  /-- A list of shapes. -/
  | list
  /-- Shapes by name. -/
  | keyed

/-- What the fields of a kind hold. -/
def Kind.holds : Kind → String → Holding
  | .object, "shape" => .keyed
  | .variants, "options" | .union, "options" | .tuple, "items" => .list
  | .array, "element" | .record, "value" => .one
  | .optional, "inner" | .nullable, "inner" | .defaulted, "inner" | .effects, "inner" => .one
  | _, _ => .data

/-- Data is the same in two trees, and the shapes that one reader takes from the first of them
another takes from the second. -/
def Holding.Refines (read read' : Json → Option Shape) : Holding → Json → Json → Prop
  | .data, tree, tree' => tree = tree'
  | .one, tree, tree' => ∀ shape, read tree = some shape → read' tree' = some shape
  | .list, tree, tree' =>
    ∀ shapes, tree.asList? read = some shapes → tree'.asList? read' = some shapes
  | .keyed, tree, tree' =>
    ∀ shapes, tree.asKeyed? read = some shapes → tree'.asKeyed? read' = some shapes

theorem eq_of_rel_data {read read' : Json → Option Shape} {found found' : Option Json}
    (h : Option.Rel (Holding.data.Refines read read') found found') : found = found' := by
  cases h with
  | none => rfl
  | some h => exact congrArg some h

/-- A kind takes one shape from any two records whose fields are read alike. -/
theorem ofFields?_mono {read read' : Json → Option Shape} {kind : Kind} {record record' : Record}
    (hfields : ∀ name ∈ kind.fieldNames, Option.Rel ((kind.holds name).Refines read read')
      (Keyed.find? record name) (Keyed.find? record' name))
    {shape : Shape} (h : ofFields? read kind record = some shape) :
    ofFields? read' kind record' = some shape := by
  cases kind with
  | object => exact Record.map_required_mono (hfields "shape" (by decide)) h
  | union => exact Record.map_required_mono (hfields "options" (by decide)) h
  | tuple => exact Record.map_required_mono (hfields "items" (by decide)) h
  | optional | nullable | effects => exact Record.map_required_mono (hfields "inner" (by decide)) h
  | record => exact Record.map_required_mono (hfields "value" (by decide)) h
  | array =>
    obtain ⟨element, hread, h⟩ := Option.bind_eq_some_iff.1 h
    have hread' : record'.required "element" read' = some element :=
      Record.required_mono (hfields "element" (by decide)) hread
    -- a field of data holds no shape, so here the two records agree outright
    have hmin := eq_of_rel_data (hfields "min_items" (by decide))
    have hmax := eq_of_rel_data (hfields "max_items" (by decide))
    rw [Record.optional_congr hmin, Record.optional_congr hmax] at h
    exact Option.bind_eq_some_iff.2 ⟨element, hread', h⟩
  | variants =>
    have hdiscriminator := eq_of_rel_data (hfields "discriminator" (by decide))
    obtain ⟨discriminator, hread, h⟩ := Option.bind_eq_some_iff.1 h
    obtain ⟨options, hoptions, h⟩ := Option.bind_eq_some_iff.1 h
    have hread' : record'.required "discriminator" Json.asString? = some discriminator :=
      Record.required_congr hdiscriminator ▸ hread
    have hoptions' : record'.required "options" (Json.asList? read') = some options :=
      Record.required_mono (hfields "options" (by decide)) hoptions
    exact Option.bind_eq_some_iff.2 ⟨discriminator, hread',
      Option.bind_eq_some_iff.2 ⟨options, hoptions', h⟩⟩
  | defaulted =>
    have hvalue := eq_of_rel_data (hfields "value" (by decide))
    obtain ⟨inner, hread, h⟩ := Option.bind_eq_some_iff.1 h
    have hread' : record'.required "inner" read' = some inner :=
      Record.required_mono (hfields "inner" (by decide)) hread
    rw [Record.defaulted_congr hvalue] at h
    exact Option.bind_eq_some_iff.2 ⟨inner, hread', h⟩
  | literal =>
    have hvalue := eq_of_rel_data (hfields "value" (by decide))
    rwa [ofFields?, Record.defaulted_congr hvalue] at h
  | string =>
    have hformat := eq_of_rel_data (hfields "format" (by decide))
    have hmin := eq_of_rel_data (hfields "min_length" (by decide))
    have hmax := eq_of_rel_data (hfields "max_length" (by decide))
    have hpattern := eq_of_rel_data (hfields "pattern" (by decide))
    rwa [ofFields?, Record.optional_congr hformat, Record.optional_congr hmin,
      Record.optional_congr hmax, Record.optional_congr hpattern] at h
  | number =>
    have hinteger := eq_of_rel_data (hfields "integer" (by decide))
    have hmin := eq_of_rel_data (hfields "minimum" (by decide))
    have hmax := eq_of_rel_data (hfields "maximum" (by decide))
    rwa [ofFields?, Record.defaulted_congr hinteger, Record.optional_congr hmin,
      Record.optional_congr hmax] at h
  | enumeration =>
    have hvalues := eq_of_rel_data (hfields "values" (by decide))
    rwa [ofFields?, Record.required_congr hvalues] at h
  | reference =>
    have hcollection := eq_of_rel_data (hfields "collection" (by decide))
    rwa [ofFields?, Record.required_congr hcollection] at h
  | other =>
    have htype := eq_of_rel_data (hfields "type_name" (by decide))
    rwa [ofFields?, Record.required_congr htype] at h
  | boolean | date | null | any | unrecognized => exact h

/-! ### Opening a tree -/

/-- A tree is of a kind and holds a record of its fields. -/
def Opens (nested : Bool) (tree : Json) (kind : Kind) (record : Record) : Prop :=
  ∃ fields, tagged? nested tree = some (kind, fields) ∧
    Record.of? kind.fieldNames fields = some record

/-- To read a shape is to open a tree as a record of its kind and to read the fields of that kind.
-/
theorem read?_eq_some_iff {nested : Bool} {room : Nat} {tree : Json} {shape : Shape} :
    read? nested (room + 1) tree = some shape ↔
      ∃ kind record, Opens nested tree kind record ∧
        ofFields? (read? true room) kind record = some shape := by
  constructor
  · intro h
    obtain ⟨⟨kind, fields⟩, htagged, h⟩ := Option.bind_eq_some_iff.1 h
    obtain ⟨record, hrecord, h⟩ := Option.bind_eq_some_iff.1 h
    exact ⟨kind, record, ⟨fields, htagged, hrecord⟩, h⟩
  · rintro ⟨kind, record, ⟨fields, htagged, hrecord⟩, h⟩
    exact Option.bind_eq_some_iff.2 ⟨(kind, fields), htagged,
      Option.bind_eq_some_iff.2 ⟨record, hrecord, h⟩⟩

theorem exists_opens_of_read? {nested : Bool} {room : Nat} {tree : Json} {shape : Shape}
    (h : read? nested room tree = some shape) :
    ∃ inner kind record, room = inner + 1 ∧ Opens nested tree kind record ∧
      ofFields? (read? true inner) kind record = some shape := by
  cases room with
  | zero => cases h
  | succ room =>
    obtain ⟨kind, record, h⟩ := read?_eq_some_iff.1 h
    exact ⟨room, kind, record, rfl, h⟩

/-- An object opens as its fields of the kind that its one tag names; other members are passed over.
-/
theorem opens_obj_iff {nested : Bool} {members : List (String × Json)} {kind : Kind}
    {record : Record} :
    Opens nested (.obj members) kind record ↔
      (∃ name tag, members.filter (·.1 == "kind") = [(name, tag)] ∧
        Kind.ofTag? nested tag = some kind) ∧
      members.filter (kind.fieldNames.contains ·.1) = record ∧ Keyed.DistinctKeys record := by
  have hknown : (members.filter (·.1 != "kind")).filter (kind.fieldNames.contains ·.1) =
      members.filter (kind.fieldNames.contains ·.1) := by
    rw [List.filter_filter]
    refine List.filter_congr fun member _ ↦ ?_
    by_cases hname : member.1 = "kind"
    · simp [hname, kind.kind_notMem_fieldNames]
    · simp [hname]
  constructor
  · rintro ⟨fields, htagged, hrecord⟩
    rw [tagged?] at htagged
    split at htagged
    next name tag hfilter =>
      obtain ⟨_, htag, heq⟩ := Option.map_eq_some_iff.1 htagged
      cases heq
      obtain ⟨hkeys, hrecord⟩ := Option.ite_none_right_eq_some.1 hrecord
      obtain rfl := Option.some.inj hrecord
      exact ⟨⟨name, tag, hfilter, htag⟩, hknown.symm, hkeys⟩
    next => cases htagged
  · rintro ⟨⟨name, tag, hfilter, htag⟩, rfl, hkeys⟩
    refine ⟨.obj (members.filter (·.1 != "kind")), ?_, ?_⟩
    · rw [tagged?, hfilter]
      exact Option.map_eq_some_iff.2 ⟨kind, htag, rfl⟩
    · simp only [Record.of?, hknown]
      exact if_pos hkeys

/-- An array opens as the fields of its kind in their order, the tag being the first item. -/
theorem opens_arr_iff {nested : Bool} {items : List Json} {kind : Kind} {record : Record} :
    Opens nested (.arr items) kind record ↔
      ∃ tag places, items = tag :: places ∧ Kind.ofTag? nested tag = some kind ∧
        places.length ≤ kind.fieldNames.length ∧ kind.fieldNames.zip places = record := by
  constructor
  · rintro ⟨fields, htagged, hrecord⟩
    cases items with
    | nil => cases htagged
    | cons tag places =>
      obtain ⟨_, htag, heq⟩ := Option.map_eq_some_iff.1 htagged
      cases heq
      obtain ⟨hlength, hrecord⟩ := Option.ite_none_right_eq_some.1 hrecord
      exact ⟨tag, places, rfl, htag, hlength, Option.some.inj hrecord⟩
  · rintro ⟨tag, places, rfl, htag, hlength, rfl⟩
    refine ⟨.arr places, Option.map_eq_some_iff.2 ⟨kind, htag, rfl⟩, ?_⟩
    exact if_pos hlength

/-- The values of the fields are nested less deep than the tree. -/
theorem Opens.depth_lt {nested : Bool} {tree : Json} {kind : Kind} {record : Record}
    (h : Opens nested tree kind record) {name : String} {value : Json}
    (hvalue : Keyed.find? record name = some value) : value.depth < tree.depth := by
  have hmem : (name, value) ∈ record := Keyed.mem_of_find? hvalue
  cases tree with
  | obj members =>
    obtain ⟨-, rfl, -⟩ := opens_obj_iff.1 h
    have hmember : (name, value) ∈ members := List.mem_of_mem_filter hmem
    exact Json.depth_lt_obj hmember
  | arr items =>
    obtain ⟨tag, places, rfl, -, -, rfl⟩ := opens_arr_iff.1 h
    exact Json.depth_lt_arr (List.mem_cons_of_mem tag (List.of_mem_zip hmem).2)
  | _ =>
    obtain ⟨fields, htagged, -⟩ := h
    cases htagged

/-! ### Room -/

/-- A field is read alike by a reader that reads alike all that is nested no deeper than it. -/
theorem Holding.refines_of_depth_lt {read read' : Json → Option Shape} {depth : Nat}
    (hread : ∀ tree shape, tree.depth < depth → read tree = some shape → read' tree = some shape)
    (holding : Holding) {tree : Json} (hdepth : tree.depth < depth) :
    holding.Refines read read' tree tree := by
  cases holding with
  | data => exact rfl
  | one => exact fun shape ↦ hread tree shape hdepth
  | list =>
    intro shapes h
    cases tree with
    | arr items =>
      refine Json.asList?_mono (List.forall₂_same.2 fun item hitem shape ↦ ?_) h
      exact hread item shape (Nat.lt_trans (Json.depth_lt_arr hitem) hdepth)
    | _ => cases h
  | keyed =>
    intro shapes h
    cases tree with
    | obj members =>
      refine Json.asKeyed?_mono (List.forall₂_same.2 fun member hmember ↦ ⟨rfl, fun shape ↦ ?_⟩) h
      exact hread member.2 shape (Nat.lt_trans (Json.depth_lt_obj hmember) hdepth)
    | _ => cases h

/-- What is read in some room is read in every room above the depth of the tree. -/
theorem read?_of_depth_lt {nested : Bool} {room room' : Nat} {tree : Json} {shape : Shape}
    (h : read? nested room tree = some shape) (hroom : tree.depth < room') :
    read? nested room' tree = some shape := by
  induction room generalizing nested room' tree shape with
  | zero => cases h
  | succ room ih =>
    obtain ⟨room', rfl⟩ : ∃ r, room' = r + 1 := ⟨room' - 1, by omega⟩
    obtain ⟨kind, record, hopens, hshape⟩ := read?_eq_some_iff.1 h
    refine read?_eq_some_iff.2 ⟨kind, record, hopens, ofFields?_mono (fun name _ ↦ ?_) hshape⟩
    cases hfind : Keyed.find? record name with
    | none => exact .none
    | some value =>
      have hdepth : value.depth < tree.depth := hopens.depth_lt hfind
      exact .some <| Holding.refines_of_depth_lt (fun _ _ hlt hread ↦ ih hread hlt) _ (by omega)

end Shape

end ContentSchema
