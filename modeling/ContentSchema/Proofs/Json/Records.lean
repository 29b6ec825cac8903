import Mathlib.Data.List.Forall2
import ContentSchema.Proofs.Json.Settled
import ContentSchema.Json.Record
/-!
# Reading lists and records

Laws of the readers that lists, dictionaries and records of all types are read with. There are two
of a kind: a reader gives back what its writer wrote (`asList?_map`, `asKeyed?_mapValues`,
`Record.of?_obj`), and a reader that knows more reads what one that knows less has read
(`asList?_mono`, `asKeyed?_mono`).

A record can be written in more than one way: its fields in any order, and an optional one left out
or `null`. `Json.IsRecord` with `Record.Has` and `Record.MayHave` is what all these ways have in
common, and what the readers of fields rest on (`required_of_has`, `optional_of_mayHave`).
-/

namespace ContentSchema

/-- A list is read item by item: there is a result for each item, in order. -/
theorem mapM_eq_some_iff {α β : Type} {f : α → Option β} {xs : List α} {ys : List β} :
    xs.mapM f = some ys ↔ List.Forall₂ (fun x y ↦ f x = some y) xs ys := by
  induction xs generalizing ys with
  | nil => cases ys <;> simp
  | cons x xs ih =>
    rw [List.mapM_cons, List.forall₂_cons_left_iff]
    simp only [Option.pure_def, Option.bind_eq_bind, Option.bind_eq_some_iff, Option.some.injEq, ih]
    constructor
    · rintro ⟨y, hy, rest, hrest, rfl⟩
      exact ⟨y, rest, hy, hrest, rfl⟩
    · rintro ⟨y, rest, hy, hrest, rfl⟩
      exact ⟨y, hy, rest, hrest, rfl⟩

/-- Of two lists that are related place by place, each item of the second has its partner in the
first. -/
theorem exists_mem_of_forall₂ {α β : Type} {r : α → β → Prop} {xs : List α} {ys : List β}
    (h : List.Forall₂ r xs ys) {y : β} (hy : y ∈ ys) : ∃ x ∈ xs, r x y := by
  obtain ⟨hlength, hrel⟩ := List.forall₂_iff_get.1 h
  obtain ⟨place, hplace, rfl⟩ := List.mem_iff_getElem.1 hy
  exact ⟨xs[place], List.getElem_mem _, hrel place (hlength ▸ hplace) hplace⟩

/-- Every result of reading a list is the result of reading an item of it. -/
theorem exists_of_mem_mapM {α β : Type} {f : α → Option β} {xs : List α} {ys : List β}
    (h : xs.mapM f = some ys) {y : β} (hy : y ∈ ys) : ∃ x ∈ xs, f x = some y :=
  exists_mem_of_forall₂ (mapM_eq_some_iff.1 h) hy

/-- What is read one by one is read alike from a list that reads alike place by place. -/
theorem mapM_mono {α α' β : Type} {f : α → Option β} {g : α' → Option β} {xs : List α}
    {xs' : List α'} {ys : List β}
    (h : List.Forall₂ (fun x x' ↦ ∀ y, f x = some y → g x' = some y) xs xs')
    (hread : xs.mapM f = some ys) : xs'.mapM g = some ys := by
  rw [mapM_eq_some_iff] at hread ⊢
  induction h generalizing ys with
  | nil =>
    cases hread
    exact .nil
  | cons hfirst h ih =>
    cases hread with
    | cons hy hread => exact .cons (hfirst _ hy) (ih hread)

/-- What is written item by item and read item by item is the image of what was written. -/
theorem mapM_map_eq_some {α β γ : Type} {read : β → Option γ} {write : α → β} {image : α → γ}
    {xs : List α} (h : ∀ x ∈ xs, read (write x) = some (image x)) :
    (xs.map write).mapM read = some (xs.map image) := by
  rw [mapM_eq_some_iff, List.forall₂_map_left_iff, List.forall₂_map_right_iff]
  exact List.forall₂_same.2 h

namespace Json

/-! ### Nesting -/

theorem depth_le_depthItems {items : List Json} {item : Json} (h : item ∈ items) :
    item.depth ≤ depthItems items := by
  induction items with
  | nil => simp at h
  | cons first items ih =>
    rw [depthItems]
    rcases List.mem_cons.1 h with rfl | h
    · exact Nat.le_max_left _ _
    · exact Nat.le_trans (ih h) (Nat.le_max_right _ _)

theorem depth_le_depthMembers {members : List (String × Json)} {member : String × Json}
    (h : member ∈ members) : member.2.depth ≤ depthMembers members := by
  induction members with
  | nil => simp at h
  | cons first members ih =>
    obtain ⟨key, value⟩ := first
    rw [depthMembers]
    rcases List.mem_cons.1 h with rfl | h
    · exact Nat.le_max_left _ _
    · exact Nat.le_trans (ih h) (Nat.le_max_right _ _)

theorem depth_lt_arr {items : List Json} {item : Json} (h : item ∈ items) :
    item.depth < (arr items).depth := by
  rw [depth]
  exact Nat.lt_succ_of_le (depth_le_depthItems h)

theorem depth_lt_obj {members : List (String × Json)} {member : String × Json}
    (h : member ∈ members) : member.2.depth < (obj members).depth := by
  rw [depth]
  exact Nat.lt_succ_of_le (depth_le_depthMembers h)

/-- An array is one level deeper than the deepest of its items. -/
theorem depth_arr_le_iff {items : List Json} {n : Nat} :
    (arr items).depth ≤ n + 1 ↔ ∀ item ∈ items, item.depth ≤ n := by
  rw [depth, Nat.add_le_add_iff_right]
  induction items with
  | nil => simp [depthItems]
  | cons item items ih => rw [depthItems, Nat.max_le, ih, List.forall_mem_cons]

/-- An object is one level deeper than the deepest of its values. -/
theorem depth_obj_le_iff {members : List (String × Json)} {n : Nat} :
    (obj members).depth ≤ n + 1 ↔ ∀ member ∈ members, member.2.depth ≤ n := by
  rw [depth, Nat.add_le_add_iff_right]
  induction members with
  | nil => simp [depthMembers]
  | cons member members ih => rw [depthMembers, Nat.max_le, ih, List.forall_mem_cons]

/-! ### Lists and dictionaries -/

variable {α β : Type} {read read' : Json → Option α}

/-- A list that was written item by item is read item by item. -/
theorem asList?_map {write : β → Json} {image : β → α} {values : List β}
    (h : ∀ value ∈ values, read (write value) = some (image value)) :
    asList? read (.arr (values.map write)) = some (values.map image) :=
  mapM_map_eq_some h

/-- A dictionary is written value by value, and so it is read. -/
theorem asKeyed?_mapValues {write : β → Json} {image : β → α} {entries : Keyed β}
    (hkeys : entries.DistinctKeys) (h : ∀ entry ∈ entries, read (write entry.2) = some (image entry.2)) :
    asKeyed? read (.obj (entries.mapValues write)) = some (entries.mapValues image) := by
  have hread : (entries.mapValues write).mapM (fun member ↦ (read member.2).map ((member.1, ·))) =
      some (entries.mapValues image) := by
    refine mapM_map_eq_some fun entry hentry ↦ ?_
    rw [h entry hentry]
    rfl
  have hkeys' : (entries.mapValues image).DistinctKeys := by
    rw [Keyed.DistinctKeys, Keyed.keys, Keyed.mapValues, List.map_map]
    exact hkeys
  rw [asKeyed?, hread, Option.map_some, Keyed.ofList_of_distinctKeys hkeys']

/-- What is read where `null` is nothing is read where it may be. -/
theorem asOptional?_of_eq_some {tree : Json} {value : α} (hnull : read .null = none)
    (h : read tree = some value) : tree.asOptional? read = some (some value) := by
  cases tree with
  | null => cases hnull.symm.trans h
  | _ => exact congrArg (Option.map some) h

/-- A reader that reads all that another one reads, item by item, reads the same list. -/
theorem asList?_mono {items items' : List Json} {values : List α}
    (h : List.Forall₂ (fun item item' ↦ ∀ value, read item = some value → read' item' = some value)
      items items')
    (hread : asList? read (.arr items) = some values) :
    asList? read' (.arr items') = some values :=
  mapM_mono h hread

/-- A reader that reads all that another one reads, value by value, reads the same dictionary. -/
theorem asKeyed?_mono {members members' : List (String × Json)} {values : Keyed α}
    (h : List.Forall₂ (fun member member' ↦ member.1 = member'.1 ∧
      ∀ value, read member.2 = some value → read' member'.2 = some value) members members')
    (hread : asKeyed? read (.obj members) = some values) :
    asKeyed? read' (.obj members') = some values := by
  obtain ⟨entries, hentries, rfl⟩ := Option.map_eq_some_iff.1 hread
  refine Option.map_eq_some_iff.2 ⟨entries, mapM_mono (h.imp ?_) hentries, rfl⟩
  rintro member member' ⟨hkey, hvalue⟩ entry hentry
  obtain ⟨value, hfirst, rfl⟩ := Option.map_eq_some_iff.1 hentry
  rw [hvalue value hfirst, hkey]
  rfl

end Json

/-! ### Records -/

namespace Record

theorem required_of_find? {α : Type} {record : Record} {name : String} {read : Json → Option α}
    {tree : Json} {value : α} (hfind : Keyed.find? record name = some tree)
    (hread : read tree = some value) : record.required name read = some value := by
  rw [required, hfind, Option.bind_some, hread]

theorem defaulted_of_find? {α : Type} {record : Record} {name : String} {absent : α}
    {read : Json → Option α} {tree : Json} {value : α} (hfind : Keyed.find? record name = some tree)
    (hread : read tree = some value) : record.defaulted name absent read = some value := by
  rw [defaulted, hfind]
  exact hread

/-- A field that is there exactly if it has a value is read back. -/
theorem optional_of_find? {α : Type} {record : Record} {name : String} {read : Json → Option α}
    (write : α → Json) {value : Option α} (hfind : Keyed.find? record name = value.map write)
    (hread : ∀ inner, value = some inner → (write inner).asOptional? read = some (some inner)) :
    record.optional name read = some value := by
  cases value with
  | none => rw [optional, hfind, Option.map_none]
  | some inner =>
    rw [optional, hfind]
    exact hread inner rfl

theorem optional_asString? {record : Record} {name : String} {value : Option String}
    (hfind : Keyed.find? record name = value.map .str) :
    record.optional name Json.asString? = some value :=
  optional_of_find? Json.str hfind fun _ _ ↦ rfl

/-- A value that may be absent is settled, read or not. -/
theorem settled_of_defaulted {record : Record} {name : String} {value : Json}
    (h : record.defaulted name .null Json.asAny? = some value) : value.Settled := by
  unfold defaulted at h
  split at h
  next => exact Option.some.inj h ▸ Json.settled_null
  next tree _ => exact Option.some.inj h ▸ tree.settled_settle

/-- An object that has no other members than the fields of a record, each once, is the record. -/
theorem of?_obj {names : List String} {members : List (String × Json)}
    (hkeys : Keyed.DistinctKeys members) (hnames : ∀ key ∈ Keyed.keys members, key ∈ names) :
    of? names (.obj members) = some members := by
  have hknown : members.filter (fun member ↦ names.contains member.1) = members := by
    refine List.filter_eq_self.2 fun member hmember ↦ ?_
    exact List.contains_iff_mem.2 (hnames _ (List.mem_map_of_mem hmember))
  simp only [of?, hknown]
  exact if_pos hkeys

/-! ### What records are like -/

/-- A record has a field of this name, and its tree is of this kind. -/
def Has (record : Record) (name : String) (p : Json → Prop) : Prop :=
  ∃ tree, Keyed.find? record name = some tree ∧ p tree

/-- A field of which there is nothing to tell is left out or `null`. -/
def Lacks (record : Record) (name : String) : Prop :=
  ∀ tree, Keyed.find? record name = some tree → tree = .null

/-- A record tells a value in a field of this name, if there is one. -/
def MayHave {α : Type} (record : Record) (name : String) (value : Option α)
    (tells : α → Json → Prop) : Prop :=
  match value with
  | none => record.Lacks name
  | some value => record.Has name (tells value)

section

variable {α : Type} {record : Record} {name : String} {p : Json → Prop} {value : Option α}
  {tells : α → Json → Prop} {tree : Json} {n : Nat}

theorem Has.of_find? (h : record.Has name p) (hfind : Keyed.find? record name = some tree) :
    p tree := by
  obtain ⟨found, hfound, hp⟩ := h
  rw [hfind] at hfound
  exact Option.some.inj hfound ▸ hp

theorem Has.depth_le (h : record.Has name p) (hdepth : ∀ tree, p tree → tree.depth ≤ n)
    (hfind : Keyed.find? record name = some tree) : tree.depth ≤ n :=
  hdepth tree (h.of_find? hfind)

theorem Lacks.depth_le (h : record.Lacks name) (hfind : Keyed.find? record name = some tree) :
    tree.depth ≤ n :=
  h tree hfind ▸ Nat.zero_le n

theorem lacks_of_null (hfind : Keyed.find? record name = some .null) : record.Lacks name :=
  fun _ htree ↦ Option.some.inj (htree.symm.trans hfind)

theorem MayHave.depth_le (h : record.MayHave name value tells)
    (hdepth : ∀ inner tree, value = some inner → tells inner tree → tree.depth ≤ n)
    (hfind : Keyed.find? record name = some tree) : tree.depth ≤ n := by
  cases value with
  | none => exact Lacks.depth_le h hfind
  | some inner => exact Has.depth_le h (hdepth inner · rfl) hfind

/-- A field that is told is read, if its reader reads everything that may be told in it. -/
theorem required_of_has {read : Json → Option α} {value : α} (h : record.Has name p)
    (hread : ∀ tree, p tree → read tree = some value) : record.required name read = some value := by
  obtain ⟨tree, hfind, hp⟩ := h
  exact required_of_find? hfind (hread tree hp)

/-- A field that is told does not fall back to its default. -/
theorem defaulted_of_has {read : Json → Option α} {absent value : α} (h : record.Has name p)
    (hread : ∀ tree, p tree → read tree = some value) :
    record.defaulted name absent read = some value := by
  obtain ⟨tree, hfind, hp⟩ := h
  exact defaulted_of_find? hfind (hread tree hp)

/-- A field without a value is read as none, whether it is left out or `null`. -/
theorem optional_of_lacks {read : Json → Option α} (h : record.Lacks name) :
    record.optional name read = some none := by
  cases hfind : Keyed.find? record name with
  | none => rw [optional, hfind]
  | some tree =>
    rw [optional, hfind, h tree hfind]
    rfl

/-- A field that tells of a value if there is one is read as that value, whichever way it tells that
there is none. -/
theorem optional_of_mayHave {read : Json → Option α} (h : record.MayHave name value tells)
    (hread : ∀ inner tree, value = some inner → tells inner tree →
      tree.asOptional? read = some (some inner)) :
    record.optional name read = some value := by
  cases value with
  | none => exact optional_of_lacks h
  | some inner =>
    obtain ⟨tree, hfind, htells⟩ := h
    rw [optional, hfind]
    exact hread inner tree rfl htells

/-- A field that is left out exactly if there is no value tells of it. -/
theorem mayHave_of_find? (write : α → Json) (hfind : Keyed.find? record name = value.map write)
    (htells : ∀ inner, value = some inner → tells inner (write inner)) :
    record.MayHave name value tells := by
  cases value with
  | none => exact fun tree htree ↦ by simp [hfind] at htree
  | some inner => exact ⟨write inner, hfind, htells inner rfl⟩

end

end Record

/-- An object with some of these members, each at most once, and no others. -/
def Json.IsRecord (names : List String) (p : Record → Prop) (tree : Json) : Prop :=
  ∃ record : Record, tree = .obj record ∧ Keyed.DistinctKeys record ∧
    (∀ key ∈ Keyed.keys record, key ∈ names) ∧ p record

namespace Json.IsRecord

variable {names : List String} {p : Record → Prop} {tree : Json}

/-- A tree that is a record of these fields is read as one, with the property that it has. -/
theorem exists_of? (h : IsRecord names p tree) :
    ∃ record, Record.of? names tree = some record ∧ p record := by
  obtain ⟨record, rfl, hkeys, hnames, hp⟩ := h
  exact ⟨record, Record.of?_obj hkeys hnames, hp⟩

/-- What each of the names finds is what there is in the object. -/
theorem exists_forall_mem {q : String → Json → Prop} (h : IsRecord names p tree)
    (hq : ∀ record, p record → ∀ name ∈ names, ∀ value,
      Keyed.find? record name = some value → q name value) :
    ∃ record, tree = .obj record ∧ ∀ member ∈ record, q member.1 member.2 := by
  obtain ⟨record, rfl, hkeys, hnames, hp⟩ := h
  refine ⟨record, rfl, fun member hmember ↦ ?_⟩
  exact hq record hp _ (hnames _ (List.mem_map_of_mem hmember)) _ (hkeys.find?_eq_of_mem hmember)

/-- A record is at most one level deeper than what its fields hold; it has no other members. -/
theorem depth_le {n : Nat} (h : IsRecord names p tree)
    (hdepth : ∀ record, p record → ∀ name ∈ names, ∀ value,
      Keyed.find? record name = some value → value.depth ≤ n) : tree.depth ≤ n + 1 := by
  obtain ⟨record, rfl, hmembers⟩ := h.exists_forall_mem (q := fun _ value ↦ value.depth ≤ n) hdepth
  exact Json.depth_obj_le_iff.2 hmembers

end Json.IsRecord

end ContentSchema
