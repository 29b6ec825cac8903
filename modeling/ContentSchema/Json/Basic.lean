import ContentSchema.Decimal.Binary64
import ContentSchema.Keyed
/-!
# JSON values

A JSON value is a tree whose objects keep the order of their members. Numbers are either integers of
the 64-bit ranges or finite doubles, and the two never equal each other: `1` and `1.0` are different
values here.

`=` compares members in order. `Json.agrees` is the weaker equality of values: objects agree when
they have the same keys with agreeing values in any order, and the two zeros of a double agree.
-/

namespace ContentSchema

/-- A JSON number. -/
inductive Number where
  | int (value : Int)
  | real (value : Binary64)
deriving DecidableEq

/-- A JSON value; the members of an object are in order. -/
inductive Json where
  | null
  | bool (value : Bool)
  | num (value : Number)
  | str (value : String)
  | arr (items : List Json)
  | obj (members : List (String × Json))

namespace Json

instance : Inhabited Json := ⟨.null⟩

/-! ### Decidable equality -/

mutual

/-- Whether two values are equal, members in order. -/
def beq : Json → Json → Bool
  | .null, .null => true
  | .bool a, .bool b => a == b
  | .num a, .num b => decide (a = b)
  | .str a, .str b => a == b
  | .arr as, .arr bs => beqItems as bs
  | .obj as, .obj bs => beqMembers as bs
  | _, _ => false

/-- `beq` item by item. -/
def beqItems : List Json → List Json → Bool
  | [], [] => true
  | a :: as, b :: bs => beq a b && beqItems as bs
  | _, _ => false

/-- `beq` member by member, keys included. -/
def beqMembers : List (String × Json) → List (String × Json) → Bool
  | [], [] => true
  | (k, a) :: as, (l, b) :: bs => k == l && beq a b && beqMembers as bs
  | _, _ => false

end

mutual

theorem beq_iff : ∀ a b : Json, beq a b = true ↔ a = b
  | .null, b => by cases b <;> simp [beq]
  | .bool _, b => by cases b <;> simp [beq]
  | .num _, b => by cases b <;> simp [beq]
  | .str _, b => by cases b <;> simp [beq]
  | .arr as, b => by cases b <;> simp [beq, beqItems_iff as]
  | .obj as, b => by cases b <;> simp [beq, beqMembers_iff as]

theorem beqItems_iff : ∀ as bs : List Json, beqItems as bs = true ↔ as = bs
  | [], bs => by cases bs <;> simp [beqItems]
  | a :: as, bs => by cases bs <;> simp [beqItems, beq_iff a, beqItems_iff as]

theorem beqMembers_iff : ∀ as bs : List (String × Json), beqMembers as bs = true ↔ as = bs
  | [], bs => by cases bs <;> simp [beqMembers]
  | (k, a) :: as, bs => by
    rcases bs with _ | ⟨⟨l, b⟩, bs⟩
    · simp [beqMembers]
    · simp [beqMembers, beq_iff a, beqMembers_iff as, and_assoc]

end

instance : DecidableEq Json := fun a b ↦ decidable_of_iff _ (beq_iff a b)

/-! ### Access -/

/-- The value of a member of an object. -/
def get? (value : Json) (key : String) : Option Json :=
  match value with
  | .obj members => Keyed.find? members key
  | _ => none

/-- The text of a string. -/
def asString? : Json → Option String
  | .str text => some text
  | _ => none

/-- Whether the value is an array or an object. -/
def isContainer : Json → Bool
  | .arr _ | .obj _ => true
  | _ => false

/-- A natural number as a JSON number. -/
def ofNat (n : Nat) : Json := .num (.int n)

/-! ### Agreement -/

mutual

/-- Equality of values, whatever the order of members. -/
def agrees : Json → Json → Bool
  | .null, .null => true
  | .bool a, .bool b => a == b
  | .num (.int a), .num (.int b) => a == b
  | .num (.real a), .num (.real b) => a.equals b
  | .str a, .str b => a == b
  | .arr as, .arr bs => agreesItems as bs
  | .obj as, .obj bs => as.length == bs.length && agreesMembers as bs
  | _, _ => false

/-- Agreement item by item. -/
def agreesItems : List Json → List Json → Bool
  | [], [] => true
  | a :: as, b :: bs => agrees a b && agreesItems as bs
  | _, _ => false

/-- Every member of the first object has an agreeing one of its key in the second. -/
def agreesMembers : List (String × Json) → List (String × Json) → Bool
  | [], _ => true
  | (key, a) :: as, bs =>
    (match Keyed.find? bs key with
      | some b => agrees a b
      | none => false) && agreesMembers as bs

end

/-! ### Repeated members -/

mutual

/-- Keeps of repeated members the last, at the place of the first. -/
def settle : Json → Json
  | .arr items => .arr (settleItems items)
  | .obj members => .obj (Keyed.ofList (settleMembers members))
  | value => value

/-- Settles each item. -/
def settleItems : List Json → List Json
  | [] => []
  | item :: items => settle item :: settleItems items

/-- Settles the value of each member. -/
def settleMembers : List (String × Json) → List (String × Json)
  | [] => []
  | (key, value) :: members => (key, settle value) :: settleMembers members

end

/-! ### Nesting -/

mutual

/-- How many arrays and objects nest inside one another. -/
def depth : Json → Nat
  | .arr items => depthItems items + 1
  | .obj members => depthMembers members + 1
  | _ => 0

/-- The depth of the deepest item. -/
def depthItems : List Json → Nat
  | [] => 0
  | item :: items => max (depth item) (depthItems items)

/-- The depth of the deepest member. -/
def depthMembers : List (String × Json) → Nat
  | [] => 0
  | (_, value) :: members => max (depth value) (depthMembers members)

end

end Json

end ContentSchema
