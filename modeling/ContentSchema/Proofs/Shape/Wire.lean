import ContentSchema.Proofs.Json.Records
import ContentSchema.Proofs.Shape.DistinctFields
/-!
# The wire form of shapes

A written shape is an object: its kind, then its `members` (`Shape.toJson_eq`). The members are fields
of the kind, in order and none of them twice (`Shape.keys_members_sublist`), and an optional one is
left out exactly if it has no value (`Shape.find?_present`). Nothing more is needed of the writer to
say that what it writes describes the shape.

A bound that is not finite has no number, and is the only thing in a shape that is not written as it
is; `Shape.FiniteBounds` leaves it out.
-/

namespace ContentSchema

namespace Shape

/-! ### Kinds and their fields -/

theorem Kind.kind_notMem_fieldNames (kind : Kind) : "kind" ∉ kind.fieldNames := by
  cases kind <;> decide

theorem Kind.nodup_fieldNames (kind : Kind) : kind.fieldNames.Nodup := by
  cases kind <;> decide

/-! ### What is written -/

/-- The members that a shape has on the wire after its kind. -/
def members (shape : Shape) : List (String × Json) :=
  match shape.toJson with
  | .obj (_ :: members) => members
  | _ => []

/-- The wire form is an object that names its kind first. -/
theorem toJson_eq (shape : Shape) : shape.toJson = .obj (shape.kind.member :: shape.members) := by
  cases shape <;> rfl

theorem listToJson_eq (shapes : List Shape) : listToJson shapes = shapes.map toJson := by
  induction shapes with
  | nil => rfl
  | cons shape shapes ih => rw [listToJson, ih, List.map_cons]

theorem fieldsToJson_eq (fields : List (String × Shape)) :
    fieldsToJson fields = Keyed.mapValues toJson fields := by
  induction fields with
  | nil => rfl
  | cons field fields ih => rw [fieldsToJson, ih, Keyed.mapValues, Keyed.mapValues, List.map_cons]

theorem keys_present_sublist {α : Type} (name : String) (value : Option α) (write : α → Json) :
    (Keyed.keys (present name value write)).Sublist [name] := by
  cases value with
  | none => exact List.nil_sublist _
  | some value => exact List.Sublist.refl _

/-- A field that may be left out is found exactly if it has a value. -/
theorem find?_present {α : Type} (name key : String) (value : Option α) (write : α → Json) :
    Keyed.find? (present name value write) key = if name = key then value.map write else none := by
  cases value with
  | none => simp [present]
  | some value => simp [present, Keyed.find?_cons]

/-- The members of a shape are fields of its kind, in order. -/
theorem keys_members_sublist (shape : Shape) :
    (Keyed.keys shape.members).Sublist shape.kind.fieldNames := by
  cases shape with
  | array element minItems maxItems =>
    simp only [members, toJson, List.cons_append, List.nil_append, Keyed.keys_append, Keyed.keys_cons]
    exact .cons_cons _ ((keys_present_sublist _ _ _).append (keys_present_sublist _ _ _))
  | string format minLength maxLength pattern =>
    simp only [members, toJson, List.cons_append, List.nil_append, Keyed.keys_append]
    exact (((keys_present_sublist _ _ _).append (keys_present_sublist _ _ _)).append
      (keys_present_sublist _ _ _)).append (keys_present_sublist _ _ _)
  | number integer minimum maximum =>
    simp only [members, toJson, List.cons_append, List.nil_append, Keyed.keys_append, Keyed.keys_cons]
    exact .cons_cons _ ((keys_present_sublist _ _ _).append (keys_present_sublist _ _ _))
  | _ => exact List.Sublist.refl _

/-- The bounds of a number. -/
def bounds : Shape → List Real64
  | .number _ minimum maximum => minimum.toList ++ maximum.toList
  | _ => []

/-- The bounds of all numbers inside a shape are finite. -/
def FiniteBounds (shape : Shape) : Prop :=
  shape.Everywhere fun part ↦ ∀ bound ∈ part.bounds, ∃ value, bound = .finite value

end Shape

end ContentSchema
