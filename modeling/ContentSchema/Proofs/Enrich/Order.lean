import ContentSchema.Collection.Set
import ContentSchema.Proofs.Enrich.BlockTypes
/-!
# Enriching in any order

Unions are attached one after another to the document that is being changed, so a union could in
principle find its node moved, or no longer an array, because of one that came before. It cannot: a
path goes on from a node through `properties` or `items` (`Path.key_of_place_eq_append`), while
attaching writes `blockTypes` there and reads `type`. So attaching at two places can be done in
either order (`enrich_swap`), and of two unions at one place only the second counts
(`enrich_cons_of_later`). Everything said here about whole lists of unions follows from these two:
enriching twice is enriching once, and the order of the unions matters at each node by itself
(`enrich_once_in_any_order`).
-/

namespace ContentSchema

/-! ### How places go on -/

namespace Path

/-- The place of a path begins with one of two keywords. -/
theorem key_of_place_eq_cons {path : Path} {key : String} {rest : List String}
    (h : path.place = key :: rest) : key = "items" ∨ key = "properties" := by
  match path with
  | [] | [.items] => simp [place] at h
  | .items :: _ :: _ => exact .inl (List.cons.inj h).1.symm
  | .field _ :: _ => exact .inr (List.cons.inj h).1.symm

/-- Behind an `items` key the place of a path is again the place of a path. -/
theorem exists_place_of_items {path : Path} {rest : List String}
    (h : path.place = "items" :: rest) : ∃ inner : Path, inner.place = rest := by
  match path with
  | [] | [.items] => simp [place] at h
  | .items :: hop :: path => exact ⟨hop :: path, (List.cons.inj h).2⟩
  | .field _ :: _ => simp [place] at h

/-- Behind the keys of a field the place of a path is again the place of a path. -/
theorem exists_place_of_properties {path : Path} {name : String} {rest : List String}
    (h : path.place = "properties" :: name :: rest) : ∃ inner : Path, inner.place = rest := by
  match path with
  | [] | [.items] => simp [place] at h
  | .items :: _ :: _ => simp [place] at h
  | .field _ :: path => exact ⟨path, (List.cons.inj (List.cons.inj h).2).2⟩

/-- The keys of a path can be told apart from the left, since a field takes two keys and items one.
So where one place goes on from the place of another path, it does so at a node, and with a key that
a path steps through. -/
theorem key_of_place_eq_append {path other : Path} {key : String} {rest : List String}
    (h : other.place = path.place ++ key :: rest) : key = "items" ∨ key = "properties" := by
  induction path using Path.place.induct generalizing other with
  | case1 => exact key_of_place_eq_cons h
  | case2 => exact key_of_place_eq_cons h
  | case3 path hne ih =>
    rw [place_items_cons hne] at h
    obtain ⟨inner, hinner⟩ := exists_place_of_items h
    exact ih hinner
  | case4 name path ih =>
    obtain ⟨inner, hinner⟩ := exists_place_of_properties h
    exact ih hinner

/-- No place of a path leads through another keyword than these two. -/
theorem not_append_prefix_place {path other : Path} {key : String} (hitems : key ≠ "items")
    (hproperties : key ≠ "properties") : ¬ path.place ++ [key] <+: other.place := by
  rintro ⟨rest, hrest⟩
  rw [List.append_assoc] at hrest
  exact (key_of_place_eq_append hrest.symm).elim hitems hproperties

/-- Members of nodes that no path steps through lie below one another only if they are the same. -/
theorem eq_of_append_prefix_append {path other : Path} {key key' : String} (hitems : key ≠ "items")
    (hproperties : key ≠ "properties") (h : path.place ++ [key] <+: other.place ++ [key']) :
    path.place = other.place ∧ key = key' := by
  rcases List.prefix_concat_iff.1 h with heq | h
  · obtain ⟨hplace, hkey⟩ := List.append_inj' heq rfl
    exact ⟨hplace, List.head_eq_of_cons_eq hkey⟩
  · exact absurd h (not_append_prefix_place hitems hproperties)

end Path

/-! ### Attaching -/

namespace Json

/-- Two changes of one member are one change after the other. -/
theorem modifyMember_modifyMember (key : String) (f g : Json → Json) (doc : Json) :
    modifyMember key g (modifyMember key f doc) =
      modifyMember key (fun value ↦ g (f value)) doc := by
  cases doc with
  | obj members => exact congrArg Json.obj (Keyed.modify_modify members key f g)
  | _ => rfl

/-- Changes of two members do not get into each other's way. -/
theorem modifyMember_comm {key other : String} (hne : key ≠ other) (f g : Json → Json)
    (doc : Json) : modifyMember other g (modifyMember key f doc) =
      modifyMember key f (modifyMember other g doc) := by
  cases doc with
  | obj members => exact congrArg Json.obj (Keyed.modify_comm hne members f g)
  | _ => rfl

theorem namesType_congr {doc doc' : Json} (h : doc.get? "type" = doc'.get? "type") (type : String) :
    doc.NamesType type ↔ doc'.NamesType type := by
  rw [NamesType, NamesType, h]

end Json

namespace VariantUnion

variable (union other : VariantUnion)

/-- Attaching changes nothing but the block types. -/
theorem get?_attach {key : String} (hkey : key ≠ "blockTypes") (node : Json) :
    (union.attach node).get? key = node.get? key := by
  cases node with
  | obj members =>
    rw [attach]
    split
    · exact (Keyed.find?_insert members _ _ _).trans (if_neg hkey.symm)
    · rfl
  | _ => rfl

/-- Attaching leaves the type of a node as it is. -/
theorem namesType_attach (node : Json) (type : String) :
    (union.attach node).NamesType type ↔ node.NamesType type :=
  Json.namesType_congr (union.get?_attach (by decide) node) type

/-- Nothing is attached to a node that is no array. -/
theorem attach_of_not_namesType {node : Json} (h : ¬ node.NamesType "array") :
    union.attach node = node := by
  cases node with
  | obj members => exact if_neg fun harray ↦ h (Json.isArraySchema_iff.1 harray)
  | _ => rfl

/-- The second of two unions at a node replaces the first. -/
theorem attach_attach (node : Json) : union.attach (other.attach node) = union.attach node := by
  by_cases harray : node.NamesType "array"
  · have harray' := (other.namesType_attach node "array").2 harray
    obtain ⟨members, rfl⟩ := harray.exists_members
    rw [other.attach_of_namesType harray] at harray' ⊢
    rw [union.attach_of_namesType harray', union.attach_of_namesType harray, Keyed.insert_insert]
  · rw [other.attach_of_not_namesType harray]

/-- Attaching neither reads nor writes the members through which paths go on. -/
theorem attach_modifyMember {key : String} (htype : key ≠ "type") (hblocks : key ≠ "blockTypes")
    (f : Json → Json) (node : Json) :
    union.attach (Json.modifyMember key f node) = Json.modifyMember key f (union.attach node) := by
  have hsame : (Json.modifyMember key f node).NamesType "array" ↔ node.NamesType "array" :=
    Json.namesType_congr ((Json.get?_modifyMember key "type" f node).trans (if_neg htype)) "array"
  by_cases harray : node.NamesType "array"
  · obtain ⟨members, rfl⟩ := harray.exists_members
    have hmodify := Keyed.modify_insert hblocks.symm members (.obj union.blockTypes) f
    rw [union.attach_of_namesType harray, Json.modifyMember, Json.modifyMember, hmodify]
    exact union.attach_of_namesType (hsame.2 harray)
  · rw [union.attach_of_not_namesType harray,
      union.attach_of_not_namesType fun harray' ↦ harray (hsame.1 harray')]

end VariantUnion

namespace Json

/-- Two changes at one place are one change after the other. -/
theorem modifyPlace_modifyPlace (f g : Json → Json) (place : List String) (doc : Json) :
    modifyPlace g place (modifyPlace f place doc) =
      modifyPlace (fun value ↦ g (f value)) place doc := by
  induction place generalizing doc with
  | nil => rfl
  | cons key rest ih =>
    rw [modifyPlace, modifyPlace, modifyMember_modifyMember, modifyPlace, funext ih]

/-- Unions can be attached at two places in either order, if neither place goes on from the other
with a key that attaching reads or writes. -/
theorem modifyPlace_attach_comm (union other : VariantUnion) {place place' : List String}
    (hne : place ≠ place')
    (hright : ∀ key rest, place' = place ++ key :: rest → key ≠ "type" ∧ key ≠ "blockTypes")
    (hleft : ∀ key rest, place = place' ++ key :: rest → key ≠ "type" ∧ key ≠ "blockTypes")
    (doc : Json) :
    modifyPlace union.attach place (modifyPlace other.attach place' doc) =
      modifyPlace other.attach place' (modifyPlace union.attach place doc) := by
  induction place generalizing place' doc with
  | nil =>
    cases place' with
    | nil => exact absurd rfl hne
    | cons key rest =>
      -- one node lies inside the other, by a member that attaching neither reads nor writes
      obtain ⟨htype, hblocks⟩ := hright key rest rfl
      exact union.attach_modifyMember htype hblocks _ doc
  | cons key rest ih =>
    cases place' with
    | nil =>
      obtain ⟨htype, hblocks⟩ := hleft key rest rfl
      exact (other.attach_modifyMember htype hblocks _ doc).symm
    | cons key' rest' =>
      by_cases hkey : key = key'
      · subst hkey
        simp only [modifyPlace, modifyMember_modifyMember]
        congr 1
        funext value
        refine ih (fun heq ↦ hne (heq ▸ rfl)) (fun next rest heq ↦ ?_)
          (fun next rest heq ↦ ?_) value
        · exact hright next rest (heq ▸ rfl)
        · exact hleft next rest (heq ▸ rfl)
      · exact modifyMember_comm (Ne.symm hkey) _ _ doc

/-! ### Arrays that paths lead to -/

/-- A path leads to an array in a document. -/
def LeadsToArray (path : Path) (doc : Json) : Prop :=
  ∃ node, resolve? path doc = some node ∧ node.NamesType "array"

theorem leadsToArray_iff_any {path : Path} {doc : Json} :
    LeadsToArray path doc ↔ (resolve? path doc).any isArraySchema = true := by
  simp [LeadsToArray, Option.any_eq_true, isArraySchema_iff]

instance (path : Path) (doc : Json) : Decidable (LeadsToArray path doc) :=
  decidable_of_iff _ leadsToArray_iff_any.symm

/-- Whether a path leads to an array schema depends on its place only. -/
theorem leadsToArray_congr {path other : Path} (hplace : path.place = other.place) (doc : Json) :
    LeadsToArray path doc ↔ LeadsToArray other doc := by
  rw [LeadsToArray, LeadsToArray, resolve?_eq_at?, resolve?_eq_at?, hplace]

/-- Whether a path leads to an array is seen at the type of the node. -/
theorem leadsToArray_iff_at?_type {path : Path} {doc : Json} :
    LeadsToArray path doc ↔ doc.at? (path.place ++ ["type"]) = some (.str "array") ∨
      ∃ types, doc.at? (path.place ++ ["type"]) = some (.arr types) ∧ .str "array" ∈ types := by
  rw [LeadsToArray, resolve?_eq_at?, at?_append]
  cases doc.at? path.place with
  | none => simp
  | some node =>
    have htype : node.at? ["type"] = node.get? "type" := Option.bind_fun_some _
    simp [NamesType, htype]

/-- What stands neither on the way to a node nor below its block types does not change when a union
is attached to the node. -/
theorem at?_modifyPlace_attach (union : VariantUnion) {place other : List String}
    (hdown : ¬ other <+: place) (hup : ¬ place ++ ["blockTypes"] <+: other) (doc : Json) :
    (modifyPlace union.attach place doc).at? other = doc.at? other := by
  by_cases hprefix : place <+: other
  · obtain ⟨_ | ⟨key, rest⟩, rfl⟩ := hprefix
    · simp at hdown
    · have hkey : key ≠ "blockTypes" := by
        rintro rfl
        exact hup ⟨rest, by simp⟩
      rw [at?_append, at?_append, at?_modifyPlace, Option.bind_map]
      refine congrArg _ (funext fun node ↦ ?_)
      rw [Function.comp_apply, at?, at?, union.get?_attach hkey]
  · exact at?_modifyPlace_of_apart ⟨hdown, hprefix⟩ _ doc

/-- Attaching a union takes no path to or from an array schema: it adds a key that no path goes
through, and leaves every type as it was. -/
theorem leadsToArray_modifyPlace (union : VariantUnion) (path : Path) (doc : Json) :
    LeadsToArray path (modifyPlace union.attach union.path.place doc) ↔ LeadsToArray path doc := by
  have htype : (modifyPlace union.attach union.path.place doc).at? (path.place ++ ["type"]) =
      doc.at? (path.place ++ ["type"]) := by
    refine at?_modifyPlace_attach union (Path.not_append_prefix_place (by decide) (by decide))
      (fun h ↦ ?_) doc
    exact absurd (Path.eq_of_append_prefix_append (by decide) (by decide) h).2 (by decide)
  rw [leadsToArray_iff_at?_type, htype, ← leadsToArray_iff_at?_type]

/-- No union makes or unmakes an array for the others. -/
theorem leadsToArray_enrich (path : Path) (doc : Json) (unions : List VariantUnion) :
    LeadsToArray path (doc.enrich unions) ↔ LeadsToArray path doc := by
  induction unions generalizing doc with
  | nil => rfl
  | cons union unions ih => rw [enrich_cons, ih, leadsToArray_modifyPlace]

/-! ### Two unions -/

section Enrich

variable {union : VariantUnion} {unions : List VariantUnion}

/-- A union that leads to no array can be left out. -/
theorem enrich_cons_of_not_leadsToArray {doc : Json} (h : ¬ LeadsToArray union.path doc) :
    doc.enrich (union :: unions) = doc.enrich unions := by
  rw [enrich_cons, modifyPlace_of_fixed]
  intro node hnode
  rw [← resolve?_eq_at?] at hnode
  exact union.attach_of_not_namesType fun harray ↦ h ⟨node, hnode, harray⟩

/-- Unions that lead to different places can be attached in either order. -/
theorem enrich_swap {other : VariantUnion} (hne : union.path.place ≠ other.path.place)
    (doc : Json) : doc.enrich (union :: other :: unions) = doc.enrich (other :: union :: unions) := by
  have hkey : ∀ {path path' : Path} (key : String) (rest : List String),
      path'.place = path.place ++ key :: rest → key ≠ "type" ∧ key ≠ "blockTypes" := by
    intro path path' key rest h
    rcases Path.key_of_place_eq_append h with rfl | rfl <;> decide
  rw [enrich_cons, enrich_cons, enrich_cons, enrich_cons,
    modifyPlace_attach_comm other union hne.symm hkey hkey]

/-- A union can be left out if a later one leads to the same place. -/
theorem enrich_cons_of_later {later : VariantUnion} (hlater : later ∈ unions)
    (hplace : later.path.place = union.path.place) (doc : Json) :
    doc.enrich (union :: unions) = doc.enrich unions := by
  induction unions generalizing doc with
  | nil => cases hlater
  | cons next rest ih =>
    by_cases hnext : next.path.place = union.path.place
    · rw [enrich_cons, enrich_cons, enrich_cons, hnext, modifyPlace_modifyPlace,
        funext (next.attach_attach union)]
    · have hrest : later ∈ rest :=
        (List.mem_cons.1 hlater).resolve_left fun heq ↦ hnext (heq ▸ hplace)
      -- the next union lies elsewhere, so the two change places, and the later one is still to come
      rw [enrich_swap (Ne.symm hnext), enrich_cons, ih hrest, ← enrich_cons]

/-! ### Lists of unions -/

/-- What is attached again later might as well not have been attached before. -/
theorem enrich_append_of_subset {before : List VariantUnion} (hsub : before ⊆ unions) (doc : Json) :
    doc.enrich (before ++ unions) = doc.enrich unions := by
  induction before with
  | nil => rfl
  | cons first before ih =>
    obtain ⟨hfirst, hbefore⟩ := List.cons_subset.1 hsub
    have hlater : first ∈ before ++ unions := List.mem_append_right before hfirst
    rw [List.cons_append, enrich_cons_of_later hlater rfl, ih hbefore]

/-- Enriching a document again with the same unions changes nothing. -/
theorem enrich_enrich (doc : Json) (unions : List VariantUnion) :
    (doc.enrich unions).enrich unions = doc.enrich unions := by
  rw [← enrich_append, enrich_append_of_subset (List.Subset.refl unions)]

/-- A union can be brought to the front past unions that lead to other places. -/
theorem enrich_middle {before after : List VariantUnion}
    (hbefore : ∀ other ∈ before, other.path.place ≠ union.path.place) (doc : Json) :
    doc.enrich (before ++ union :: after) = doc.enrich (union :: (before ++ after)) := by
  induction before generalizing doc with
  | nil => rfl
  | cons first before ih =>
    obtain ⟨hfirst, hbefore⟩ := List.forall_mem_cons.1 hbefore
    rw [List.cons_append, enrich_cons, ih hbefore, ← enrich_cons, enrich_swap hfirst,
      List.cons_append]

/-- Unions none of which leads to an array schema leave the document as it is. -/
theorem enrich_eq_self {doc : Json} (h : ∀ union ∈ unions, ¬ LeadsToArray union.path doc) :
    doc.enrich unions = doc := by
  induction unions with
  | nil => rfl
  | cons union unions ih =>
    obtain ⟨hunion, hunions⟩ := List.forall_mem_cons.1 h
    rw [enrich_cons_of_not_leadsToArray hunion, ih hunions]

/-- The result depends only on the unions that each array gets, in their order. -/
theorem enrich_congr {unions' : List VariantUnion} {doc : Json}
    (h : ∀ path, LeadsToArray path doc → unions'.filter (·.path.place = path.place) =
      unions.filter (·.path.place = path.place)) : doc.enrich unions' = doc.enrich unions := by
  induction unions generalizing unions' doc with
  | nil =>
    refine enrich_eq_self fun union hunion harray ↦ ?_
    have hfilter := List.filter_eq_nil_iff.1 (h union.path harray) union hunion
    simp at hfilter
  | cons union rest ih =>
    by_cases harray : LeadsToArray union.path doc
    · -- the first union is the first of the other list that leads to its place
      have hfilter := h union.path harray
      rw [List.filter_cons_of_pos (by simp)] at hfilter
      obtain ⟨before, after, rfl, hbefore, -, hafter⟩ := List.filter_eq_cons_iff.1 hfilter
      simp only [decide_eq_true_eq] at hbefore
      rw [enrich_middle hbefore, enrich_cons, enrich_cons]
      refine ih fun path hpath ↦ ?_
      have hrest := h path ((leadsToArray_modifyPlace union path doc).1 hpath)
      by_cases hplace : union.path.place = path.place
      · have hnone : before.filter (·.path.place = path.place) = [] := by
          simpa [List.filter_eq_nil_iff, hplace] using hbefore
        rw [List.filter_append, hnone, ← hplace]
        exact hafter
      · simpa [hplace] using hrest
    · rw [enrich_cons_of_not_leadsToArray harray]
      refine ih fun path hpath ↦ ?_
      have hplace : union.path.place ≠ path.place :=
        fun heq ↦ harray ((leadsToArray_congr heq doc).2 hpath)
      simpa [hplace] using h path hpath

end Enrich

end Json

/-- Enriching a collection again changes nothing. -/
theorem Collection.enriched_enriched (collection : Collection) :
    collection.enriched.enriched = collection.enriched := by
  rw [enriched, enriched, Json.enrich_enrich]

/-! ### The order of unions -/

/-- Reordering a list in which the elements of a kind keep their order leaves the list of these
elements as it is. -/
theorem filter_map_get_of_order {α : Type} {xs : List α} {order : List (Fin xs.length)}
    (hperm : order.Perm (List.finRange xs.length)) {p : α → Bool}
    (hkeep : order.Pairwise fun i j ↦ p (xs.get i) → p (xs.get j) → i < j) :
    (order.map xs.get).filter p = xs.filter p := by
  have horder : (order.filter fun i ↦ p (xs.get i)).Pairwise (· < ·) := List.pairwise_filter.2 hkeep
  have hrange : ((List.finRange xs.length).filter fun i ↦ p (xs.get i)).Pairwise (· < ·) :=
    (List.pairwise_lt_finRange xs.length).filter _
  have hindices : order.filter (fun i ↦ p (xs.get i)) =
      (List.finRange xs.length).filter fun i ↦ p (xs.get i) :=
    List.Perm.eq_of_pairwise (fun _ _ _ _ hlt hgt ↦ absurd hgt (Nat.lt_asymm hlt)) horder hrange
      (hperm.filter _)
  calc (order.map xs.get).filter p
      = (order.filter fun i ↦ p (xs.get i)).map xs.get := List.filter_map
    _ = ((List.finRange xs.length).filter fun i ↦ p (xs.get i)).map xs.get := by rw [hindices]
    _ = ((List.finRange xs.length).map xs.get).filter p := List.filter_map.symm
    _ = xs.filter p := by rw [List.map_get_finRange]

/-- Two paths lead to one node of a document. -/
def Json.SameNode (doc : Json) (path other : Path) : Prop :=
  (Json.resolve? path doc).isSome ∧ path.place = other.place

instance (doc : Json) (path other : Path) : Decidable (doc.SameNode path other) :=
  inferInstanceAs (Decidable (_ ∧ _))

/-- The set with `schema` in the place of every schema: what a set says besides its schemas. -/
def SchemaSet.withSchema (set : SchemaSet) (schema : Json) : SchemaSet :=
  { set with collections := set.collections.mapValues fun collection ↦ { collection with schema } }

/-- **Enriching once is enough, and the order of unions matters at each node by itself.**

* To enrich an enriched document with the same unions changes nothing, not even the order of keys.
* The unions can be put in any order in which those that lead to one node of the document keep
  theirs.
* To enrich an enriched set changes nothing. The first time it changes the schemas of collections
  and nothing else, and the schema under each name becomes the one that is asked for by it. -/
theorem enrich_once_in_any_order :
    (∀ (doc : Json) (unions : List VariantUnion),
      (doc.enrich unions).enrich unions = doc.enrich unions) ∧
    (∀ (doc : Json) (unions : List VariantUnion) (order : List (Fin unions.length)),
      order.Perm (List.finRange unions.length) →
      (order.Pairwise fun i j ↦ doc.SameNode (unions.get i).path (unions.get j).path → i < j) →
      doc.enrich (order.map unions.get) = doc.enrich unions) ∧
    ∀ set : SchemaSet, set.enriched.enriched = set.enriched ∧
      (∀ schema, set.enriched.withSchema schema = set.withSchema schema) ∧
      ∀ name, (set.enriched.find? name).map (·.schema) = set.enrichedSchema? name := by
  refine ⟨Json.enrich_enrich, fun doc unions order hperm hkeep ↦ ?_, fun set ↦ ⟨?_, ?_, ?_⟩⟩
  · refine Json.enrich_congr fun path hpath ↦ filter_map_get_of_order hperm ?_
    refine hkeep.imp fun {i j} hlt hi hj ↦ hlt ?_
    simp only [decide_eq_true_eq] at hi hj
    obtain ⟨node, hnode, -⟩ := (Json.leadsToArray_congr hi doc).2 hpath
    exact ⟨by rw [hnode]; rfl, hi.trans hj.symm⟩
  · simp only [SchemaSet.enriched, Keyed.mapValues_mapValues, Collection.enriched_enriched]
  · intro schema
    simp only [SchemaSet.withSchema, SchemaSet.enriched, Keyed.mapValues_mapValues]
    rfl
  · intro name
    rw [SchemaSet.find?, SchemaSet.enriched, Keyed.find?_mapValues, Option.map_map]
    rfl

/-- A page of sections that have blocks. -/
def sectionPage : Json :=
  .obj [("type", .str "object"), ("properties", .obj [
    ("sections", .obj [("type", .str "array"), ("items", .obj [("properties", .obj [
      ("blocks", .obj [("type", .arr [.str "array", .str "null"])])])])])])]

/-- Two unions that lead to the sections by different paths, and between them one that leads to the
blocks of a section. -/
def sectionUnions : List VariantUnion := [
  ⟨[.field "sections", .items], "kind", [⟨.str "text", "Text", .obj []⟩]⟩,
  ⟨[.field "sections", .items, .field "blocks", .items], "kind", [⟨.num (.int 1), "1", .obj []⟩]⟩,
  ⟨[.field "sections"], "kind", [⟨.str "image", "Image", .obj []⟩]⟩]

/-- The blocks before the sections. -/
def sectionOrder : List (Fin sectionUnions.length) :=
  [⟨1, by decide⟩, ⟨0, by decide⟩, ⟨2, by decide⟩]

theorem enrich_once_in_any_order_sections :
    sectionOrder.Perm (List.finRange sectionUnions.length) ∧
    (sectionOrder.Pairwise fun i j ↦
      sectionPage.SameNode (sectionUnions.get i).path (sectionUnions.get j).path → i < j) ∧
    sectionPage.enrich (sectionOrder.map sectionUnions.get) =
      sectionPage.enrich sectionUnions ∧
    (sectionPage.enrich sectionUnions).enrich sectionUnions = sectionPage.enrich sectionUnions := by
  have hperm : sectionOrder.Perm (List.finRange sectionUnions.length) := by decide
  have hkeep : sectionOrder.Pairwise fun i j ↦
      sectionPage.SameNode (sectionUnions.get i).path (sectionUnions.get j).path → i < j := by
    decide
  obtain ⟨htwice, horder, -⟩ := enrich_once_in_any_order
  exact ⟨hperm, hkeep, horder sectionPage sectionUnions sectionOrder hperm hkeep,
    htwice sectionPage sectionUnions⟩

end ContentSchema
