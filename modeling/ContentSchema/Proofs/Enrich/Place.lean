import ContentSchema.Proofs.Keyed
import ContentSchema.Collection.Enrich
/-!
# Places in documents

A path is followed in a document by keys: `properties` and the name for a field, `items` for array
items, and nothing for a last hop into items. `Path.place` is this list of keys, and reading or
changing a document at a path is reading or changing it at the path's place
(`resolve?_eq_at?`, `modifyAt_eq_modifyPlace`). So a place is what tells one node of a document from
another: two paths lead to one node exactly when they have one place.

Places have one recursion and no special case, which is why the laws of reading after changing are
stated about them. Two places are `Apart` when neither lies on the way to the other, and a change at
one is then invisible at the other. Enriching a document at places that are pairwise apart is
therefore attaching each union to its own node (`resolve?_enrich`).
-/

namespace ContentSchema

namespace Json

/-- The value that a list of keys leads to. -/
def at? : List String → Json → Option Json
  | [], doc => some doc
  | key :: rest, doc => (doc.get? key).bind (at? rest)

/-- Applies `f` where a list of keys leads in a document; nothing changes if it leads nowhere. -/
def modifyPlace (f : Json → Json) : List String → Json → Json
  | [], doc => f doc
  | key :: rest, doc => modifyMember key (modifyPlace f rest) doc

end Json

namespace Path

/-- The keys by which a path is followed in a document. -/
def place : Path → List String
  | [] => []
  | [.items] => []
  | .items :: rest => "items" :: place rest
  | .field name :: rest => "properties" :: name :: place rest

/-- A hop into items is a key of its own unless it is the last one. -/
theorem place_items_cons {path : Path} (hne : path ≠ []) :
    place (.items :: path) = "items" :: place path := by
  cases path with
  | nil => exact absurd rfl hne
  | cons hop rest => rfl

end Path

namespace Json

theorem resolve?_items_cons {path : Path} (hne : path ≠ []) (doc : Json) :
    resolve? (.items :: path) doc = (doc.get? "items").bind (resolve? path) := by
  cases path with
  | nil => exact absurd rfl hne
  | cons hop rest => rfl

theorem modifyAt_items_cons (f : Json → Json) {path : Path} (hne : path ≠ []) :
    modifyAt f (.items :: path) = modifyMember "items" (modifyAt f path) := by
  cases path with
  | nil => exact absurd rfl hne
  | cons hop rest => rfl

/-- To resolve a path is to go through the keys of its place. -/
theorem resolve?_eq_at? (path : Path) : resolve? path = at? path.place := by
  funext doc
  induction path using Path.place.induct generalizing doc with
  | case1 => rfl
  | case2 => rfl
  | case3 rest hne ih =>
    rw [resolve?_items_cons hne, Path.place_items_cons hne, funext ih]
    rfl
  | case4 name rest ih =>
    rw [resolve?, Path.place, funext ih]
    rfl

example : Path.place [.field "items", .items, .items] = ["properties", "items", "items"] := rfl

/-- To change what a path leads to is to change what is at its place. -/
theorem modifyAt_eq_modifyPlace (f : Json → Json) (path : Path) :
    modifyAt f path = modifyPlace f path.place := by
  funext doc
  induction path using Path.place.induct generalizing doc with
  | case1 => rfl
  | case2 => rfl
  | case3 rest hne ih =>
    rw [modifyAt_items_cons f hne, Path.place_items_cons hne, funext ih]
    rfl
  | case4 name rest ih =>
    rw [modifyAt, Path.place, funext ih]
    rfl

/-! ### Longer places -/

/-- The way through two stretches of keys goes through the one and then the other. -/
theorem at?_append (place rest : List String) (doc : Json) :
    doc.at? (place ++ rest) = (doc.at? place).bind (at? rest) := by
  induction place generalizing doc with
  | nil => rfl
  | cons key place ih =>
    rw [List.cons_append, at?, at?, Option.bind_assoc]
    exact congrArg _ (funext ih)

theorem modifyPlace_append (f : Json → Json) (place rest : List String) :
    modifyPlace f (place ++ rest) = modifyPlace (modifyPlace f rest) place := by
  funext doc
  induction place generalizing doc with
  | nil => rfl
  | cons key place ih =>
    rw [List.cons_append, modifyPlace, modifyPlace, funext ih]

/-! ### Reading after changing -/

/-- A change of one member is seen under its key only. -/
theorem get?_modifyMember (key other : String) (f : Json → Json) (doc : Json) :
    (modifyMember key f doc).get? other =
      if key = other then (doc.get? other).map f else doc.get? other := by
  cases doc with
  | obj members => exact Keyed.find?_modify members key other f
  | _ => simp [modifyMember, get?]

/-- What stands at a changed place is the change of what stood there. -/
theorem at?_modifyPlace (f : Json → Json) (place : List String) (doc : Json) :
    (modifyPlace f place doc).at? place = (doc.at? place).map f := by
  induction place generalizing doc with
  | nil => rfl
  | cons key rest ih =>
    rw [modifyPlace, at?, at?, get?_modifyMember, if_pos rfl]
    cases doc.get? key with
    | none => rfl
    | some value => exact ih value

/-- A change that leaves the value of a member as it is leaves the document as it is. -/
theorem modifyMember_of_fixed {key : String} {f : Json → Json} {doc : Json}
    (hfixed : ∀ value, doc.get? key = some value → f value = value) :
    modifyMember key f doc = doc := by
  cases doc with
  | obj members => exact congrArg Json.obj (Keyed.modify_of_fixed hfixed)
  | _ => rfl

/-- A change that leaves alone what stands at a place leaves the document alone. -/
theorem modifyPlace_of_fixed {f : Json → Json} {place : List String} {doc : Json}
    (hfixed : ∀ node, doc.at? place = some node → f node = node) :
    modifyPlace f place doc = doc := by
  induction place generalizing doc with
  | nil => exact hfixed doc rfl
  | cons key rest ih =>
    refine modifyMember_of_fixed fun value hvalue ↦ ih fun node hnode ↦ hfixed node ?_
    rw [at?, hvalue]
    exact hnode

end Json

/-- Neither of two places lies on the way to the other. -/
def Apart (place other : List String) : Prop := ¬ place <+: other ∧ ¬ other <+: place

namespace Apart

variable {place other : List String}

theorem symm (h : Apart place other) : Apart other place := ⟨h.2, h.1⟩

theorem ne (h : Apart place other) : place ≠ other := fun heq ↦ h.1 (heq ▸ List.prefix_refl place)

theorem not_nil_left : ¬ Apart [] other := fun h ↦ h.1 List.nil_prefix

theorem not_nil_right : ¬ Apart place [] := fun h ↦ h.2 List.nil_prefix

/-- Two places are apart if they part at the first key or behind it. -/
theorem cons_cons_iff {key key' : String} :
    Apart (key :: place) (key' :: other) ↔ key ≠ key' ∨ Apart place other := by
  simp only [Apart, List.cons_prefix_cons]
  by_cases hkey : key = key'
  · simp [hkey]
  · simp [hkey, Ne.symm hkey]

end Apart

namespace Json

/-- A change at one place cannot be seen at a place apart from it. -/
theorem at?_modifyPlace_of_apart {place other : List String} (h : Apart place other)
    (f : Json → Json) (doc : Json) : (modifyPlace f other doc).at? place = doc.at? place := by
  induction place generalizing other doc with
  | nil => exact absurd h Apart.not_nil_left
  | cons key rest ih =>
    cases other with
    | nil => exact absurd h Apart.not_nil_right
    | cons key' rest' =>
      rw [modifyPlace, at?, at?, get?_modifyMember]
      by_cases hkey : key' = key
      · have hrest : Apart rest rest' :=
          (Apart.cons_cons_iff.1 h).resolve_left fun hne ↦ hne hkey.symm
        rw [if_pos hkey]
        cases doc.get? key with
        | none => rfl
        | some value => exact ih hrest value
      · rw [if_neg hkey]

/-! ### Enriching -/

/-- The first union is attached first, at its place. -/
theorem enrich_cons (doc : Json) (union : VariantUnion) (unions : List VariantUnion) :
    doc.enrich (union :: unions) =
      (modifyPlace union.attach union.path.place doc).enrich unions := by
  rw [← modifyAt_eq_modifyPlace]
  rfl

/-- Enriching with some unions and then with others is enriching with all of them in turn. -/
theorem enrich_append (doc : Json) (unions others : List VariantUnion) :
    doc.enrich (unions ++ others) = (doc.enrich unions).enrich others :=
  List.foldl_append

/-- The last union is attached last, to what the others made of the document. -/
theorem enrich_concat (doc : Json) (unions : List VariantUnion) (union : VariantUnion) :
    doc.enrich (unions ++ [union]) =
      modifyPlace union.attach union.path.place (doc.enrich unions) := by
  rw [← modifyAt_eq_modifyPlace, enrich, List.foldl_append]
  rfl

/-- Enriching cannot be seen at a place that is apart from those of all unions. -/
theorem at?_enrich_of_apart {place : List String} {unions : List VariantUnion}
    (h : ∀ union ∈ unions, Apart place union.path.place) (doc : Json) :
    (doc.enrich unions).at? place = doc.at? place := by
  induction unions generalizing doc with
  | nil => rfl
  | cons first rest ih =>
    rw [enrich_cons, ih fun union hunion ↦ h union (List.mem_cons_of_mem first hunion)]
    exact at?_modifyPlace_of_apart (h first List.mem_cons_self) first.attach doc

/-- Where the places of all unions are pairwise apart, enriching attaches each union to the node
that its path leads to. -/
theorem resolve?_enrich {unions : List VariantUnion}
    (hapart : unions.Pairwise fun union other ↦ Apart union.path.place other.path.place)
    {union : VariantUnion} (hunion : union ∈ unions) (doc : Json) :
    resolve? union.path (doc.enrich unions) = (resolve? union.path doc).map union.attach := by
  rw [resolve?_eq_at?]
  induction unions generalizing doc with
  | nil => simp at hunion
  | cons first rest ih =>
    obtain ⟨hfirst, hrest⟩ := List.pairwise_cons.1 hapart
    rw [enrich_cons]
    rcases List.mem_cons.1 hunion with rfl | hunion
    · rw [at?_enrich_of_apart hfirst, at?_modifyPlace]
    · have hpart : Apart union.path.place first.path.place := (hfirst union hunion).symm
      rw [ih hrest hunion, at?_modifyPlace_of_apart hpart]

end Json

end ContentSchema
