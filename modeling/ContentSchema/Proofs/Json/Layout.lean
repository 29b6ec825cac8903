import ContentSchema.Json.Layout
import ContentSchema.Proofs.Json.Records
import ContentSchema.Proofs.Json.Text
/-!
# Reading a written value under a layout

A reader that passes over what it does not know reads a written value as if it looked at all of it,
if there is nothing in the value that its layout does not look at (`Layout.Keeps`). Together with the
way back from the text this says that a typed reader of texts is its reader of trees, up to the
nesting that it follows (`Layout.read?_pretty`).

To be kept is to be left as it is by pruning, so it goes through a value level by level: an array is
kept if the layout at each place keeps the item there, an object if the layout of each member keeps
its value (`keeps_arr`, `keeps_obj`), and lists, dictionaries and records are cases of these two.
The nesting is a matter of its own: a written value needs no more room than it is deep
(`Written.value?_written`).
-/

namespace ContentSchema

namespace Written

mutual

/-- The tree of a written value is the value, where there is room for it. -/
theorem value?_written : ∀ {value : Json} {room : Nat}, value.depth ≤ room →
    value.written.value? room = some value
  | .null, _, _ | .bool _, _, _ | .num _, _, _ | .str _, _, _ => rfl
  | .arr items, room, h => by
    rw [Json.depth] at h
    obtain _ | room := room
    · omega
    · rw [Json.written, value?, items?_written (by omega), Option.map_some]
  | .obj members, room, h => by
    rw [Json.depth] at h
    obtain _ | room := room
    · omega
    · rw [Json.written, value?, members?_written (by omega), Option.map_some]

/-- The items of a written array are read as themselves in room enough for the deepest of them. -/
theorem items?_written : ∀ {items : List Json} {room : Nat}, Json.depthItems items ≤ room →
    items? room (Json.writtenItems items) = some items
  | [], _, _ => rfl
  | item :: items, room, h => by
    rw [Json.depthItems] at h
    rw [Json.writtenItems, items?, value?_written (by omega), items?_written (by omega)]
    rfl

/-- The members of a written object are read as themselves in room enough for the deepest of them.
-/
theorem members?_written : ∀ {members : List (String × Json)} {room : Nat},
    Json.depthMembers members ≤ room → members? room (Json.writtenMembers members) = some members
  | [], _, _ => rfl
  | (key, value) :: members, room, h => by
    rw [Json.depthMembers] at h
    rw [Json.writtenMembers, members?, value?_written (by omega), members?_written (by omega)]
    rfl

end

end Written

namespace Layout

/-- There is nothing in the value that the layout does not look at. -/
def Keeps (layout : Layout) (value : Json) : Prop := value.written.prune layout = value.written

theorem keeps_arr {layout : Layout} {items : List Json}
    (h : ∀ item ∈ items, ∀ place, (layout.atPlace place).Keeps item) :
    layout.Keeps (.arr items) := by
  have hitems : ∀ place, Written.pruneItems layout place (Json.writtenItems items) =
      Json.writtenItems items := by
    induction items with
    | nil => exact fun _ ↦ rfl
    | cons item items ih =>
      intro place
      obtain ⟨hitem, hitems⟩ := List.forall_mem_cons.1 h
      rw [Json.writtenItems, Written.pruneItems, hitem place, ih hitems]
  show Written.arr (Written.pruneItems layout 0 (Json.writtenItems items)) = _
  rw [hitems, Json.written]

/-- An object is kept if every member has a layout that keeps its value. -/
theorem keeps_obj {layout : Layout} {members : List (String × Json)}
    (h : ∀ member ∈ members, ∃ inner, layout.atMember? member.1 = some inner ∧ inner.Keeps member.2) :
    layout.Keeps (.obj members) := by
  have hmembers : Written.pruneMembers layout (Json.writtenMembers members) =
      Json.writtenMembers members := by
    induction members with
    | nil => rfl
    | cons member members ih =>
      obtain ⟨⟨inner, hinner, hkeeps⟩, hrest⟩ := List.forall_mem_cons.1 h
      rw [Json.writtenMembers, Written.pruneMembers, Option.bind_some, hinner, ih hrest]
      show (_, Written.prune inner member.2.written) :: _ = _
      rw [hkeeps]
  show Written.obj (Written.pruneMembers layout (Json.writtenMembers members)) = _
  rw [hmembers, Json.written]

mutual

/-- The layout without restrictions keeps every tree. -/
theorem keeps_all : ∀ value : Json, Layout.all.Keeps value
  | .arr items => keeps_arr fun item hitem _ ↦ keeps_all_of_mem items item hitem
  | .obj members => keeps_obj fun member hmember ↦
    ⟨.all, rfl, keeps_all_of_mem_members members member hmember⟩
  | .null | .bool _ | .num _ | .str _ => rfl

theorem keeps_all_of_mem : ∀ (items : List Json), ∀ item ∈ items, Layout.all.Keeps item
  | [], _, h => by simp at h
  | first :: items, item, h => by
    rcases List.mem_cons.1 h with h | h
    · exact h ▸ keeps_all first
    · exact keeps_all_of_mem items item h

theorem keeps_all_of_mem_members : ∀ (members : List (String × Json)), ∀ member ∈ members,
    Layout.all.Keeps member.2
  | [], _, h => by simp at h
  | (key, value) :: members, member, h => by
    rcases List.mem_cons.1 h with h | h
    · exact h ▸ keeps_all value
    · exact keeps_all_of_mem_members members member h

end

theorem keeps_null {layout : Layout} : layout.Keeps .null := rfl

theorem keeps_list {layout : Layout} {items : List Json} (h : ∀ item ∈ items, layout.Keeps item) :
    (Layout.list layout).Keeps (.arr items) :=
  keeps_arr fun item hitem _ ↦ h item hitem

theorem keeps_keyed {layout : Layout} {members : List (String × Json)}
    (h : ∀ member ∈ members, layout.Keeps member.2) : (Layout.keyed layout).Keeps (.obj members) :=
  keeps_obj fun member hmember ↦ ⟨layout, rfl, h member hmember⟩

/-- A record is kept if every member is one of its fields and is kept by the layout of that field.
-/
theorem keeps_record {fields : List (String × Layout)} {members : List (String × Json)}
    (h : ∀ member ∈ members, ∃ inner, fields.lookup member.1 = some inner ∧ inner.Keeps member.2) :
    (Layout.record fields).Keeps (.obj members) :=
  keeps_obj h

/-- A record of known fields is kept if the layout of each field keeps what is in it. -/
theorem keeps_of_isRecord {fields : List (String × Layout)} {names : List String}
    {p : Record → Prop} {tree : Json} (h : Json.IsRecord names p tree)
    (hkeeps : ∀ record, p record → ∀ name ∈ names, ∃ inner, fields.lookup name = some inner ∧
      ∀ value, Keyed.find? record name = some value → inner.Keeps value) :
    (Layout.record fields).Keeps tree := by
  let kept (name : String) (value : Json) : Prop :=
    ∃ inner, fields.lookup name = some inner ∧ inner.Keeps value
  obtain ⟨record, rfl, hmembers⟩ := h.exists_forall_mem (q := kept)
    fun record hp name hname value hfind ↦ by
      obtain ⟨inner, hinner, hvalue⟩ := hkeeps record hp name hname
      exact ⟨inner, hinner, hvalue value hfind⟩
  exact keeps_record hmembers

/-- What is read of a text that spells a value is what is read of the value, if the layout keeps all
of the value and the value is not nested deeper than readers follow. -/
theorem read?_of_written {α : Type} {layout : Layout} {ofJson? : Json → Option α} {value : Json}
    {text : String} (htext : Written.read? text = some value.written)
    (hdepth : value.depth ≤ Written.maxDepth) (hkeeps : layout.Keeps value) :
    layout.read? ofJson? text = ofJson? value := by
  have htree : value.written.tree? = some value := Written.value?_written hdepth
  rw [read?, htext, Option.bind_some, hkeeps, htree, Option.bind_some]

/-- In particular of the text that is written of it. -/
theorem read?_pretty {α : Type} {layout : Layout} {ofJson? : Json → Option α} {value : Json}
    (hnumbers : value.NumbersReadBack) (hdepth : value.depth ≤ Written.maxDepth)
    (hkeeps : layout.Keeps value) : layout.read? ofJson? value.pretty = ofJson? value :=
  read?_of_written (Written.read?_pretty hnumbers) hdepth hkeeps

end Layout

end ContentSchema
