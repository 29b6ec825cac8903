import Mathlib.Logic.Relation
import ContentSchema.Proofs.Shape.Description
/-!
# Rearranged wire forms

The order of the members of a shape's object does not matter to its reader, and neither do members
that its kind does not have. `Rearranges` is one such change, at the root of a tree or at any shape
inside it; the members of the object that holds the fields of an object shape, and those of a value
of a literal or a default, are no part of it. A tree that is read is read alike after any number of
such changes (`ofJson?_of_rearranges`).

A change at a shape inside a tree changes one value of one field, and the field is read alike by the
law of the reader inside (`Holding.Replaces.refines`); all other fields are the same, but may be read
in other room.
-/

namespace ContentSchema

theorem rel_imp {α : Type} {r s : α → α → Prop} (h : ∀ a b, r a b → s a b) {found found' : Option α}
    (hfound : Option.Rel r found found') : Option.Rel s found found' := by
  cases hfound with
  | none => exact .none
  | some hr => exact .some (h _ _ hr)

namespace Keyed

variable {α : Type}

/-- In a dictionary with its entries in another order every key finds the same value. -/
theorem find?_eq_of_perm {entries others : Keyed α} (hkeys : entries.DistinctKeys)
    (h : others.Perm entries) (key : String) : others.find? key = entries.find? key := by
  have hkeys' : others.DistinctKeys := (h.map Prod.fst).nodup_iff.2 hkeys
  ext value
  constructor
  · intro hfind
    exact hkeys.find?_eq_of_mem (h.subset (mem_of_find? hfind))
  · intro hfind
    exact hkeys'.find?_eq_of_mem (h.symm.subset (mem_of_find? hfind))

/-- After a value is replaced a key finds what it found before, or the new value in the place of the
old one. -/
theorem rel_find?_replace (before after : Keyed α) (name key : String) (value value' : α) :
    Option.Rel (fun found found' ↦ found = found' ∨ key = name ∧ found = value ∧ found' = value')
      (find? (before ++ (name, value) :: after) key)
      (find? (before ++ (name, value') :: after) key) := by
  have hself : ∀ found : Option α, Option.Rel (fun found found' ↦
      found = found' ∨ key = name ∧ found = value ∧ found' = value') found found := fun found ↦ by
    cases found with
    | none => exact .none
    | some found => exact .some (.inl rfl)
  rw [find?_append, find?_append, find?_cons, find?_cons]
  cases find? before key with
  | some found => exact hself (some found)
  | none =>
    rw [Option.none_or, Option.none_or]
    split
    next hname => exact .some (.inr ⟨hname.symm, rfl, rfl⟩)
    next => exact hself _

end Keyed

namespace Shape

/-! ### Rearranging -/

/-- A field holds a shape's tree `part`, and holds `part'` in its place in the second of two values
that are otherwise the same. -/
inductive Holding.Replaces (part part' : Json) : Holding → Json → Json → Prop where
  | one : Replaces part part' .one part part'
  | list {before after : List Json} :
      Replaces part part' .list (.arr (before ++ part :: after)) (.arr (before ++ part' :: after))
  | keyed {name : String} {before after : List (String × Json)} :
      Replaces part part' .keyed (.obj (before ++ (name, part) :: after))
        (.obj (before ++ (name, part') :: after))

/-- The object of one shape, at the root of a tree or inside it, has its members in another order or
has more members that are no fields of its kind. -/
inductive Rearranges : Bool → Json → Json → Prop where
  /-- The shape at the root. -/
  | members {nested : Bool} {kind : Kind} {fields : Json} {members others extra : List (String × Json)}
      (hkind : tagged? nested (.obj members) = some (kind, fields))
      (hextra : ∀ member ∈ extra, member.1 ≠ "kind" ∧ member.1 ∉ kind.fieldNames)
      (hperm : others.Perm (members ++ extra)) : Rearranges nested (.obj members) (.obj others)
  /-- A shape inside a field of an object. -/
  | member {nested : Bool} {kind : Kind} {fields : Json} {before after : List (String × Json)}
      {name : String} {value value' part part' : Json}
      (hkind : tagged? nested (.obj (before ++ (name, value) :: after)) = some (kind, fields))
      (hplace : (kind.holds name).Replaces part part' value value')
      (hpart : Rearranges true part part') :
      Rearranges nested (.obj (before ++ (name, value) :: after))
        (.obj (before ++ (name, value') :: after))
  /-- A shape inside a field of an array, whose place gives the name of the field. -/
  | item {nested : Bool} {kind : Kind} {tag fields : Json} {before after : List Json}
      {name : String} {value value' part part' : Json}
      (hkind : tagged? nested (.arr (tag :: (before ++ value :: after))) = some (kind, fields))
      (hname : kind.fieldNames[before.length]? = some name)
      (hplace : (kind.holds name).Replaces part part' value value')
      (hpart : Rearranges true part part') :
      Rearranges nested (.arr (tag :: (before ++ value :: after)))
        (.arr (tag :: (before ++ value' :: after)))

/-! ### Fields of a rearranged tree -/

theorem Kind.mem_fieldNames_of_holds {kind : Kind} {name : String}
    (h : kind.holds name ≠ .data) : name ∈ kind.fieldNames := by
  unfold Kind.holds at h
  split at h <;> first | decide | exact absurd rfl h

namespace Holding.Replaces

variable {part part' value value' : Json} {holding : Holding}

theorem ne_data (h : holding.Replaces part part' value value') : holding ≠ .data := by
  cases h <;> exact nofun

theorem depth_le (h : holding.Replaces part part' value value') : part'.depth ≤ value'.depth := by
  cases h with
  | one => exact Nat.le_refl _
  | list => exact Nat.le_of_lt (Json.depth_lt_arr (List.mem_append_right _ List.mem_cons_self))
  | @keyed name before after =>
    have hmem : (name, part') ∈ before ++ (name, part') :: after :=
      List.mem_append_right _ List.mem_cons_self
    exact Nat.le_of_lt (Json.depth_lt_obj hmem)

/-- The field is read alike if the shape's tree in it is, and all that is nested no deeper. -/
theorem refines {read read' : Json → Option Shape} {depth : Nat}
    (h : holding.Replaces part part' value value')
    (hpart : ∀ shape, read part = some shape → read' part' = some shape)
    (hread : ∀ tree shape, tree.depth < depth → read tree = some shape → read' tree = some shape)
    (hdepth : value'.depth < depth) : holding.Refines read read' value value' := by
  cases h with
  | one => exact hpart
  | @list before after =>
    have hitem : ∀ item ∈ before ++ part' :: after, ∀ shape, read item = some shape →
        read' item = some shape := fun item hmem shape ↦
      hread item shape (Nat.lt_trans (Json.depth_lt_arr hmem) hdepth)
    rw [List.forall_mem_append, List.forall_mem_cons] at hitem
    intro shapes h
    refine Json.asList?_mono ?_ h
    exact List.rel_append (List.forall₂_same.2 hitem.1)
      (.cons hpart (List.forall₂_same.2 hitem.2.2))
  | @keyed name before after =>
    have hmember : ∀ member ∈ before ++ (name, part') :: after, member.1 = member.1 ∧
        ∀ shape, read member.2 = some shape → read' member.2 = some shape := fun member hmem ↦
      ⟨rfl, fun shape ↦ hread member.2 shape (Nat.lt_trans (Json.depth_lt_obj hmem) hdepth)⟩
    rw [List.forall_mem_append, List.forall_mem_cons] at hmember
    intro shapes h
    refine Json.asKeyed?_mono ?_ h
    exact List.rel_append (List.forall₂_same.2 hmember.1)
      (.cons ⟨rfl, hpart⟩ (List.forall₂_same.2 hmember.2.2))

end Holding.Replaces

namespace Opens

variable {nested : Bool} {kind : Kind} {record : Record}

theorem eq_of_tagged? {tree fields : Json} {kind' : Kind}
    (htagged : tagged? nested tree = some (kind', fields)) (h : Opens nested tree kind record) :
    kind = kind' := by
  obtain ⟨fields', htagged', -⟩ := h
  rw [htagged'] at htagged
  exact congrArg Prod.fst (Option.some.inj htagged)

/-- An object with its members in another order, and with more of them, holds the same fields. -/
theorem of_perm {members others extra : List (String × Json)}
    (h : Opens nested (.obj members) kind record)
    (hextra : ∀ member ∈ extra, member.1 ≠ "kind" ∧ member.1 ∉ kind.fieldNames)
    (hperm : others.Perm (members ++ extra)) :
    ∃ record', Opens nested (.obj others) kind record' ∧
      ∀ name, Keyed.find? record' name = Keyed.find? record name := by
  obtain ⟨⟨name, tag, hfilter, htag⟩, rfl, hkeys⟩ := opens_obj_iff.1 h
  have hkind : (others.filter (·.1 == "kind")).Perm [(name, tag)] := by
    -- what is added is neither the tag nor a field, so both filters drop it
    have hnone : extra.filter (·.1 == "kind") = [] :=
      List.filter_eq_nil_iff.2 fun member hmem ↦ by simpa using (hextra member hmem).1
    have hfiltered := hperm.filter (·.1 == "kind")
    rwa [List.filter_append, hfilter, hnone, List.append_nil] at hfiltered
  have hfields : (others.filter (kind.fieldNames.contains ·.1)).Perm
      (members.filter (kind.fieldNames.contains ·.1)) := by
    have hnone : extra.filter (kind.fieldNames.contains ·.1) = [] :=
      List.filter_eq_nil_iff.2 fun member hmem ↦ by simpa using (hextra member hmem).2
    have hfiltered := hperm.filter (kind.fieldNames.contains ·.1)
    rwa [List.filter_append, hnone, List.append_nil] at hfiltered
  refine ⟨_, opens_obj_iff.2 ⟨⟨name, tag, hkind.eq_singleton, htag⟩, rfl, ?_⟩, fun name ↦ ?_⟩
  · exact (hfields.map Prod.fst).nodup_iff.2 hkeys
  · exact Keyed.find?_eq_of_perm hkeys hfields name

/-- An object with another value for a field holds the same fields but for that value. -/
theorem of_member {before after : List (String × Json)} {name : String} {value value' : Json}
    (h : Opens nested (.obj (before ++ (name, value) :: after)) kind record)
    (hname : name ∈ kind.fieldNames) :
    ∃ record', Opens nested (.obj (before ++ (name, value') :: after)) kind record' ∧
      ∀ key, Option.Rel (fun found found' ↦ found = found' ∨
        key = name ∧ found = value ∧ found' = value') (Keyed.find? record key)
        (Keyed.find? record' key) := by
  have hne : name ≠ "kind" := fun heq ↦ kind.kind_notMem_fieldNames (heq ▸ hname)
  have hkind : ∀ value : Json, (before ++ (name, value) :: after).filter (·.1 == "kind") =
      before.filter (·.1 == "kind") ++ after.filter (·.1 == "kind") := fun value ↦ by
    rw [List.filter_append, List.filter_cons_of_neg (by simpa using hne)]
  have hfields : ∀ value : Json,
      (before ++ (name, value) :: after).filter (kind.fieldNames.contains ·.1) =
        before.filter (kind.fieldNames.contains ·.1) ++
          (name, value) :: after.filter (kind.fieldNames.contains ·.1) := fun value ↦ by
    rw [List.filter_append, List.filter_cons_of_pos (by simpa using hname)]
  obtain ⟨⟨key, tag, hfilter, htag⟩, rfl, hkeys⟩ := opens_obj_iff.1 h
  rw [hkind] at hfilter
  rw [hfields] at hkeys ⊢
  refine ⟨_, opens_obj_iff.2 ⟨⟨key, tag, (hkind value').trans hfilter, htag⟩, hfields value', ?_⟩,
    fun key ↦ Keyed.rel_find?_replace _ _ name key value value'⟩
  rw [Keyed.DistinctKeys, Keyed.keys_append, Keyed.keys_cons] at hkeys ⊢
  exact hkeys

/-- The same of an array, where the place gives the name of the field. -/
theorem of_item {tag : Json} {before after : List Json} {name : String} {value value' : Json}
    (h : Opens nested (.arr (tag :: (before ++ value :: after))) kind record)
    (hname : kind.fieldNames[before.length]? = some name) :
    ∃ record', Opens nested (.arr (tag :: (before ++ value' :: after))) kind record' ∧
      ∀ key, Option.Rel (fun found found' ↦ found = found' ∨
        key = name ∧ found = value ∧ found' = value') (Keyed.find? record key)
        (Keyed.find? record' key) := by
  have hzip : ∀ value : Json, kind.fieldNames.zip (before ++ value :: after) =
      (kind.fieldNames.take before.length).zip before ++
        (name, value) :: (kind.fieldNames.drop (before.length + 1)).zip after := fun value ↦ by
    obtain ⟨hlt, hget⟩ := List.getElem?_eq_some_iff.1 hname
    -- the names before, the one at the place of the value, and the names after
    have hnames : kind.fieldNames = kind.fieldNames.take before.length ++
        name :: kind.fieldNames.drop (before.length + 1) := by
      rw [← hget, List.getElem_cons_drop, List.take_append_drop]
    have hlength : (kind.fieldNames.take before.length).length = before.length :=
      List.length_take_of_le (Nat.le_of_lt hlt)
    conv_lhs => rw [hnames]
    rw [List.zip_append hlength, List.zip_cons_cons]
  obtain ⟨_, _, hcons, htag, hlength, rfl⟩ := opens_arr_iff.1 h
  obtain ⟨rfl, rfl⟩ := List.cons.inj hcons
  rw [hzip]
  refine ⟨_, opens_arr_iff.2 ⟨tag, _, rfl, htag, ?_, hzip value'⟩,
    fun key ↦ Keyed.rel_find?_replace _ _ name key value value'⟩
  simpa using hlength

end Opens

/-! ### Reading a rearranged tree -/

/-- A tree that opens into the same kind is read alike if its fields are. -/
theorem read?_of_opens {nested : Bool} {room room' : Nat} {tree' : Json} {kind : Kind}
    {record record' : Record} {shape : Shape}
    (hshape : ofFields? (read? true room) kind record = some shape)
    (hopens : Opens nested tree' kind record') (hroom : tree'.depth < room' + 1)
    (hfields : ∀ name, Option.Rel (fun value value' ↦ value = value' ∨
      (kind.holds name).Refines (read? true room) (read? true room') value value')
      (Keyed.find? record name) (Keyed.find? record' name)) :
    read? nested (room' + 1) tree' = some shape := by
  refine read?_eq_some_iff.2 ⟨kind, record', hopens, ofFields?_mono (fun name _ ↦ ?_) hshape⟩
  have hname := hfields name
  generalize hfound : Keyed.find? record name = found at hname ⊢
  generalize hfound' : Keyed.find? record' name = found' at hname ⊢
  cases hname with
  | none => exact .none
  | some h =>
    refine .some ?_
    rcases h with rfl | h
    · have hdepth := hopens.depth_lt hfound'
      exact Holding.refines_of_depth_lt (fun _ _ hlt hread ↦ read?_of_depth_lt hread hlt) _ (by omega)
    · exact h

/-- In particular if they are the same but for one field, in which one shape's tree is replaced by
one that is read alike. -/
theorem read?_of_replaces {nested : Bool} {room room' : Nat} {tree' : Json} {kind : Kind}
    {record record' : Record} {shape : Shape} {name : String} {value value' part part' : Json}
    (hshape : ofFields? (read? true room) kind record = some shape)
    (hopens : Opens nested tree' kind record') (hroom : tree'.depth < room' + 1)
    (hfind : ∀ key, Option.Rel (fun found found' ↦ found = found' ∨
      key = name ∧ found = value ∧ found' = value') (Keyed.find? record key)
      (Keyed.find? record' key))
    (hdepth : value'.depth < tree'.depth) (hplace : (kind.holds name).Replaces part part' value value')
    (hpart : part'.depth < room' → ∀ shape, read? true room part = some shape →
      read? true room' part' = some shape) :
    read? nested (room' + 1) tree' = some shape := by
  have hvalue : value'.depth < room' := by omega
  have hplaced : part'.depth < room' := Nat.lt_of_le_of_lt hplace.depth_le hvalue
  refine read?_of_opens hshape hopens hroom fun key ↦ rel_imp (fun found found' h ↦ ?_) (hfind key)
  refine h.imp_right ?_
  rintro ⟨rfl, rfl, rfl⟩
  exact hplace.refines (hpart hplaced) (fun _ _ hlt hread ↦ read?_of_depth_lt hread hlt) hvalue

/-- A rearranged tree is read alike, in every room above its depth. -/
theorem Rearranges.read?_eq {nested : Bool} {tree tree' : Json} (h : Rearranges nested tree tree')
    {room room' : Nat} {shape : Shape} (hread : read? nested room tree = some shape)
    (hroom : tree'.depth < room') : read? nested room' tree' = some shape := by
  induction h generalizing room room' shape with
  | members hkind hextra hperm =>
    obtain ⟨room, kind, record, rfl, hopens, hshape⟩ := exists_opens_of_read? hread
    obtain ⟨room', rfl⟩ : ∃ r, room' = r + 1 := ⟨room' - 1, by omega⟩
    obtain rfl := hopens.eq_of_tagged? hkind
    obtain ⟨record', hopens', hfind⟩ := hopens.of_perm hextra hperm
    refine read?_of_opens hshape hopens' hroom fun name ↦ ?_
    rw [hfind]
    cases Keyed.find? record name with
    | none => exact .none
    | some value => exact .some (.inl rfl)
  | @member _ _ _ before after name _ value' _ _ hkind hplace hpart ih =>
    obtain ⟨room, kind, record, rfl, hopens, hshape⟩ := exists_opens_of_read? hread
    obtain ⟨room', rfl⟩ : ∃ r, room' = r + 1 := ⟨room' - 1, by omega⟩
    obtain rfl := hopens.eq_of_tagged? hkind
    have hmem : (name, value') ∈ before ++ (name, value') :: after :=
      List.mem_append_right _ List.mem_cons_self
    obtain ⟨record', hopens', hfind⟩ :=
      hopens.of_member (Kind.mem_fieldNames_of_holds hplace.ne_data)
    exact read?_of_replaces hshape hopens' hroom hfind (Json.depth_lt_obj hmem) hplace
      fun hdepth _ hread ↦ ih hread hdepth
  | @item _ _ tag _ before after name _ value' _ _ hkind hname hplace hpart ih =>
    obtain ⟨room, kind, record, rfl, hopens, hshape⟩ := exists_opens_of_read? hread
    obtain ⟨room', rfl⟩ : ∃ r, room' = r + 1 := ⟨room' - 1, by omega⟩
    obtain rfl := hopens.eq_of_tagged? hkind
    have hmem : value' ∈ tag :: (before ++ value' :: after) :=
      List.mem_cons_of_mem _ (List.mem_append_right _ List.mem_cons_self)
    obtain ⟨record', hopens', hfind⟩ := hopens.of_item hname
    exact read?_of_replaces hshape hopens' hroom hfind (Json.depth_lt_arr hmem) hplace
      fun hdepth _ hread ↦ ih hread hdepth

/-- However often a tree is rearranged, it is read as the same shape. -/
theorem ofJson?_of_rearranges {tree other : Json} {shape : Shape} (hread : ofJson? tree = some shape)
    (h : Relation.ReflTransGen (Rearranges false) tree other) : ofJson? other = some shape := by
  induction h with
  | refl => exact hread
  | tail _ hstep ih => exact hstep.read?_eq ih (Nat.lt_succ_self _)

/-! ### The wire form -/

/-- The wire form of a shape holds the shape, and every tree that is read as a shape may have the
objects of its shapes rearranged. -/
theorem wire_form_reads_back :
    (∀ shape : Shape, shape.Settled → shape.FiniteBounds → ofJson? shape.toJson = some shape) ∧
      ∀ (tree other : Json) (shape : Shape), ofJson? tree = some shape →
        Relation.ReflTransGen (Rearranges false) tree other → ofJson? other = some shape :=
  ⟨fun _ h hbounds ↦ ofJson?_toJson h hbounds, fun _ _ _ hread h ↦ ofJson?_of_rearranges hread h⟩

/-- A price with a lower bound, and tags that have a default. -/
def product : Shape :=
  .object [("price", .number false (some (.finite .zero)) none),
    ("tags", .defaulted (.array .any (some 1) none) (.arr []))]

/-- Its wire form with the members of the product and of the price in another order, and with a
comment on the price. -/
def rearrangedProduct : Json :=
  .obj [("shape", .obj [
      ("price", .obj [("minimum", .num (.real .zero)), ("comment", .null), ("integer", .bool false),
        Kind.number.member]),
      ("tags", .obj [Kind.defaulted.member, ("inner", .obj [Kind.array.member,
        ("element", .obj [Kind.any.member]), ("min_items", Json.ofNat 1)]), ("value", .arr [])])]),
    Kind.object.member]

theorem wire_form_reads_back_product :
    ofJson? product.toJson = some product ∧ ofJson? rearrangedProduct = some product := by
  have hsettled : product.Settled := settled_of_ofJson? (show ofJson? product.toJson = _ from rfl)
  have hprice : (number false (some (.finite .zero)) none).FiniteBounds :=
    .intro (by simp [bounds]) nofun
  have hany : Shape.any.FiniteBounds := .intro (by simp [bounds]) (by simp [parts])
  have htags : (defaulted (.array .any (some 1) none) (.arr [])).FiniteBounds :=
    .intro (by simp [bounds]) (List.forall_mem_singleton.2
      (.intro (by simp [bounds]) (List.forall_mem_singleton.2 hany)))
  have hbounds : product.FiniteBounds :=
    .intro (by simp [product, bounds])
      (List.forall_mem_cons.2 ⟨hprice, List.forall_mem_singleton.2 htags⟩)
  have hwire : ofJson? product.toJson = some product := wire_form_reads_back.1 _ hsettled hbounds
  refine ⟨hwire, wire_form_reads_back.2 _ _ _ hwire ?_⟩
  refine .tail (.single (@Rearranges.members _ _ _ _ _ [] rfl (by simp) (.swap _ _ _))) ?_
  refine @Rearranges.member _ _ _ [] [Kind.object.member] _ _ _ _ _ rfl
    (@Holding.Replaces.keyed _ _ _ [] _) ?_
  exact @Rearranges.members _ _ _ _ _ [("comment", .null)] rfl (by decide) (by decide)

end Shape

end ContentSchema
