import ContentSchema.Proofs.Keyed
import ContentSchema.Json.Basic
/-!
# Values without repeated members

A JSON value has each member once, however deep; a tree as written need not. `Json.Settled` says it
of every object inside a value, by recursion through `Json.parts`. `Json.settle` makes every tree
such a value (`settled_settle`) and leaves alone what is one (`settle_of_settled`), so the values
that are read are exactly the settled ones.

`Json.parts` serves values of all forms alike, so an induction on `Settled` has one case. Of a value
whose form is written out the simp lemmas say what it comes to: distinct keys, and settled values
inside.
-/

namespace ContentSchema

namespace Json

/-- The values directly inside a value, in order. -/
def parts : Json → List Json
  | .arr items => items
  | .obj members => members.map (·.2)
  | _ => []

/-- No object inside the value has two members of one name. -/
inductive Settled : Json → Prop where
  | intro {value : Json} (hkeys : ∀ members, value = .obj members → Keyed.DistinctKeys members)
      (hparts : ∀ part ∈ value.parts, Settled part) : Settled value

/-- A tree without parts is settled, unless it is an object, whose keys have to be distinct. -/
theorem settled_of_parts_eq_nil {value : Json} (hobj : ∀ members, value ≠ .obj members)
    (hparts : value.parts = []) : value.Settled :=
  .intro (fun members heq ↦ absurd heq (hobj members)) (by simp [hparts])

@[simp] theorem settled_null : Settled .null := settled_of_parts_eq_nil nofun rfl

@[simp] theorem settled_bool (value : Bool) : Settled (.bool value) :=
  settled_of_parts_eq_nil nofun rfl

@[simp] theorem settled_num (value : Number) : Settled (.num value) :=
  settled_of_parts_eq_nil nofun rfl

@[simp] theorem settled_ofNat (n : Nat) : Settled (ofNat n) := settled_num _

@[simp] theorem settled_str (value : String) : Settled (.str value) :=
  settled_of_parts_eq_nil nofun rfl

@[simp] theorem settled_arr {items : List Json} :
    Settled (.arr items) ↔ ∀ item ∈ items, item.Settled := by
  constructor
  · rintro ⟨-, hparts⟩
    exact hparts
  · exact fun h ↦ .intro nofun h

/-- An object is settled if no key stands twice and every value is settled. -/
@[simp] theorem settled_obj {members : List (String × Json)} :
    Settled (.obj members) ↔
      Keyed.DistinctKeys members ∧ ∀ member ∈ members, member.2.Settled := by
  constructor
  · rintro ⟨hkeys, hparts⟩
    exact ⟨hkeys members rfl, List.forall_mem_map.1 hparts⟩
  · rintro ⟨hkeys, hmembers⟩
    exact .intro (fun _ heq ↦ Json.obj.inj heq ▸ hkeys) (List.forall_mem_map.2 hmembers)

mutual

/-- Settling a settled value changes nothing. -/
theorem settle_of_settled : ∀ {value : Json}, value.Settled → value.settle = value
  | .arr items, h => by rw [settle, settleItems_of_settled (settled_arr.1 h)]
  | .obj members, h => by
    obtain ⟨hkeys, hmembers⟩ := settled_obj.1 h
    rw [settle, settleMembers_of_settled hmembers, Keyed.ofList_of_distinctKeys hkeys]
  | .null, _ | .bool _, _ | .num _, _ | .str _, _ => rfl

/-- Settled items are left as they are. -/
theorem settleItems_of_settled : ∀ {items : List Json}, (∀ item ∈ items, item.Settled) →
    settleItems items = items
  | [], _ => rfl
  | item :: items, h => by
    obtain ⟨hitem, hitems⟩ := List.forall_mem_cons.1 h
    rw [settleItems, settle_of_settled hitem, settleItems_of_settled hitems]

/-- The values of settled members are left as they are. -/
theorem settleMembers_of_settled : ∀ {members : List (String × Json)},
    (∀ member ∈ members, member.2.Settled) → settleMembers members = members
  | [], _ => rfl
  | (key, value) :: members, h => by
    obtain ⟨hvalue, hmembers⟩ := List.forall_mem_cons.1 h
    rw [settleMembers, settle_of_settled hvalue, settleMembers_of_settled hmembers]

end

mutual

/-- Every settled tree is a value. -/
theorem settled_settle : ∀ tree : Json, tree.settle.Settled
  | .arr items => by
    rw [settle, settled_arr]
    exact settled_of_mem_settleItems items
  | .obj members => by
    rw [settle, settled_obj]
    exact ⟨Keyed.distinctKeys_ofList _,
      fun member hmember ↦ settled_of_mem_settleMembers members member (Keyed.mem_of_mem_ofList hmember)⟩
  | .null | .bool _ | .num _ | .str _ => by simp [settle]

theorem settled_of_mem_settleItems : ∀ (items : List Json), ∀ item ∈ settleItems items, item.Settled
  | [], _, h => by simp [settleItems] at h
  | first :: items, item, h => by
    rw [settleItems] at h
    rcases List.mem_cons.1 h with rfl | h
    · exact settled_settle first
    · exact settled_of_mem_settleItems items item h

theorem settled_of_mem_settleMembers : ∀ (members : List (String × Json)),
    ∀ member ∈ settleMembers members, member.2.Settled
  | [], _, h => by simp [settleMembers] at h
  | (key, value) :: members, member, h => by
    rw [settleMembers] at h
    rcases List.mem_cons.1 h with rfl | h
    · exact settled_settle value
    · exact settled_of_mem_settleMembers members member h

end

end Json

end ContentSchema
