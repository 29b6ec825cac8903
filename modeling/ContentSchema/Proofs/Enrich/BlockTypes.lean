import ContentSchema.Proofs.Enrich.Route
/-!
# Block types of a walk

A walk's document and its unions agree: every union whose path ends in array items leads to an array
of that document, to one that no other union leads to, and enriching puts the union's block types on
it and changes nothing else there. Every other union leads to a node without a type, where enriching
attaches nothing (`blockTypes_of_walk`).

The proof rests on two facts about the paths of a walk. Each has a route in the document
(`leads_of_mem_unions`), and any two part at two fields of one object (`diverge_unions`). The second
is where distinct field names are needed: with two fields of one name, both unions would be attached
to the node of the first.
-/

namespace ContentSchema

/-! ### Paths that part at a field -/

namespace Path

/-- Two paths go together and then part at two fields of one object. -/
inductive Diverge : Path → Path → Prop where
  | fields {name other : String} (hne : name ≠ other) (path path' : Path) :
      Diverge (.field name :: path) (.field other :: path')
  | cons (hop : Hop) {path path' : Path} (h : Diverge path path') :
      Diverge (hop :: path) (hop :: path')

namespace Diverge

variable {path path' : Path}

/-- Paths that diverge still do behind a common start. -/
theorem append (start : Path) (h : Diverge path path') :
    Diverge (start ++ path) (start ++ path') := by
  induction start with
  | nil => exact h
  | cons hop start ih => exact ih.cons hop

theorem ne_nil_left (h : Diverge path path') : path ≠ [] := by
  cases h <;> exact List.cons_ne_nil _ _

theorem ne_nil_right (h : Diverge path path') : path' ≠ [] := by
  cases h <;> exact List.cons_ne_nil _ _

/-- The places of two such paths are apart, since a path that goes on after array items steps into
them. -/
theorem apart_place (h : Diverge path path') : Apart path.place path'.place := by
  induction h with
  | fields hne =>
    rw [place, place, Apart.cons_cons_iff, Apart.cons_cons_iff]
    exact .inr (.inl hne)
  | @cons hop path path' h ih =>
    cases hop with
    | field name =>
      rw [place, place, Apart.cons_cons_iff, Apart.cons_cons_iff]
      exact .inr (.inr ih)
    | items =>
      rw [place_items_cons h.ne_nil_left, place_items_cons h.ne_nil_right, Apart.cons_cons_iff]
      exact .inr ih

end Diverge

end Path

/-! ### The unions of a walk -/

namespace Shape

mutual

/-- Any two unions that are found part at a field. -/
theorem diverge_unionSites : ∀ (shape : Shape) (path : Path), shape.DistinctFields →
    (shape.unionSites path).Pairwise fun site other ↦ Path.Diverge site.path other.path
  | .variants discriminator options, path, _ => List.pairwise_singleton _ _
  | .object fields, path, hdistinct => by
    obtain ⟨hkeys, hshapes⟩ := distinctFields_object.1 hdistinct
    exact diverge_fieldSites fields path hkeys hshapes
  | .array element _ _, path, hdistinct =>
    diverge_unionSites element (path ++ [.items]) (hdistinct.of_mem_parts List.mem_cons_self)
  | .optional inner, path, hdistinct | .nullable inner, path, hdistinct
  | .defaulted inner _, path, hdistinct | .effects inner, path, hdistinct =>
    diverge_unionSites inner path (hdistinct.of_mem_parts List.mem_cons_self)
  | .union _, _, _ | .literal _, _, _ | .string .., _, _ | .number .., _, _ | .boolean, _, _
  | .date, _, _ | .null, _, _ | .any, _, _ | .enumeration _, _, _ | .record _, _, _ | .tuple _, _, _
  | .reference _, _, _ | .other _, _, _ | .unrecognized, _, _ => List.Pairwise.nil

/-- Any two unions found in the fields of an object part at a field. -/
theorem diverge_fieldSites : ∀ (fields : List (String × Shape)) (path : Path),
    Keyed.DistinctKeys fields → (∀ field ∈ fields, field.2.DistinctFields) →
    (fieldSites path fields).Pairwise fun site other ↦ Path.Diverge site.path other.path
  | [], _, _, _ => List.Pairwise.nil
  | (name, shape) :: fields, path, hkeys, hshapes => by
    obtain ⟨hname, hkeys⟩ := (Keyed.distinctKeys_cons (name, shape) fields).1 hkeys
    refine List.pairwise_append.2 ⟨?_, ?_, fun site hsite other hother ↦ ?_⟩
    · exact diverge_unionSites shape (path ++ [.field name]) (hshapes _ List.mem_cons_self)
    · exact diverge_fieldSites fields path hkeys fun field hfield ↦
        hshapes field (List.mem_cons_of_mem _ hfield)
    · -- one below the first field and one below a later field, whose name is another
      obtain ⟨rest, hpath, -⟩ := leadsTo_of_mem_unionSites shape (path ++ [.field name]) hsite
      obtain ⟨name', inner, rest', hinner, hpath', -⟩ :=
        leadsTo_of_mem_fieldSites fields path hother
      have hne : name ≠ name' := fun heq ↦ hname (heq ▸ Keyed.mem_keys_of_mem hinner)
      rw [hpath, hpath', List.append_assoc]
      exact (Path.Diverge.fields hne rest rest').append path

end

end Shape

/-- The walk finds a union at the path of each site. -/
theorem map_path_extractUnions (converter : Converter) (warnings : List Warning)
    (sites : List UnionSite) :
    (extractUnions converter warnings sites).1.map (·.path) = sites.map (·.path) := by
  induction sites generalizing warnings with
  | nil => rfl
  | cons site sites ih => simp only [extractUnions, List.map_cons, ih]

namespace Shape

/-- The unions of a walk have the paths at which they were found, in order. -/
theorem map_path_unions (converter : Converter) (shape : Shape) :
    (shape.walk converter).unions.map (·.path) = (shape.unionSites []).map (·.path) :=
  map_path_extractUnions converter _ _

/-- The path of every union of a walk has a route in the walk's document. -/
theorem leads_of_mem_unions {shape : Shape} (hdistinct : shape.DistinctFields)
    {union : VariantUnion} (hunion : union ∈ (shape.walk .draft).unions) :
    Json.Leads union.path (shape.walk .draft).schema := by
  have hpath : union.path ∈ (shape.unionSites []).map (·.path) :=
    map_path_unions .draft shape ▸ List.mem_map_of_mem hunion
  obtain ⟨site, hsite, heq⟩ := List.mem_map.1 hpath
  obtain ⟨rest, hrest, h⟩ := leadsTo_of_mem_unionSites shape [] hsite
  have hleads := h.leads hdistinct (fun place ↦ by simp only [draftLenient]; rfl) []
  rw [← heq, hrest]
  exact hleads

/-- Any two unions of a walk part at a field. -/
theorem diverge_unions (converter : Converter) {shape : Shape} (hdistinct : shape.DistinctFields) :
    (shape.walk converter).unions.Pairwise fun union other ↦
      Path.Diverge union.path other.path := by
  have hsites := List.pairwise_map.2 (diverge_unionSites shape [] hdistinct)
  rw [← map_path_unions converter shape] at hsites
  exact List.pairwise_map.1 hsites

/-- The places of the unions of a shape with distinct fields are pairwise apart: no union lies at or
under another, so attaching one leaves the others' places alone. -/
theorem apart_unions (converter : Converter) {shape : Shape} (hdistinct : shape.DistinctFields) :
    (shape.walk converter).unions.Pairwise fun union other ↦
      Apart union.path.place other.path.place :=
  (diverge_unions converter hdistinct).imp Path.Diverge.apart_place

end Shape

/-! ### Attaching -/

/-- Places that are apart belong to different unions only. -/
theorem index_eq_of_place_eq {unions : List VariantUnion}
    (hapart : unions.Pairwise fun union other ↦ Apart union.path.place other.path.place) {i j : Nat}
    {union other : VariantUnion} (hunion : unions[i]? = some union)
    (hother : unions[j]? = some other) (hplace : other.path.place = union.path.place) : j = i := by
  have hnodup : (unions.map (·.path.place)).Nodup := List.pairwise_map.2 (hapart.imp Apart.ne)
  have hj : j < (unions.map (·.path.place)).length := by
    rw [List.length_map]
    exact (List.getElem?_eq_some_iff.1 hother).1
  refine (List.getElem?_inj hj hnodup).1 ?_
  rw [List.getElem?_map, List.getElem?_map, hother, hunion, Option.map_some, Option.map_some,
    hplace]

namespace VariantUnion

/-- Block types are attached to an array node. -/
theorem attach_of_namesType (union : VariantUnion) {members : List (String × Json)}
    (h : Json.NamesType (.obj members) "array") :
    union.attach (.obj members) =
      .obj (Keyed.insert members "blockTypes" (.obj union.blockTypes)) :=
  if_pos (Json.isArraySchema_iff.2 h)

/-- A node without a type is left alone. -/
theorem attach_of_get?_type_eq_none (union : VariantUnion) {node : Json}
    (h : node.get? "type" = none) : union.attach node = node := by
  cases node with
  | obj members =>
    refine if_neg fun harray ↦ ?_
    rcases Json.isArraySchema_iff.1 harray with htype | ⟨types, htype, -⟩ <;> simp [h] at htype
  | _ => rfl

/-- The block types stand at the keys of the options, each at its first place. -/
theorem keys_blockTypes (union : VariantUnion) :
    union.blockTypes.keys = (union.options.map Variant.key).eraseDups := by
  rw [blockTypes, Keyed.keys_ofList, List.map_map]
  rfl

/-- Of two options with one key the last one has the say. -/
theorem find?_blockTypes (union : VariantUnion) (key : String) :
    union.blockTypes.find? key =
      ((union.options.filter (·.key = key)).getLast?).map (·.schema) := by
  rw [blockTypes, Keyed.find?_ofList, List.filter_map, List.getLast?_map, Option.map_map]
  rfl

end VariantUnion

namespace Shape

/-- **Block types land on arrays of their own.** In the document of a walk, for every shape whose
objects are dictionaries, as all shapes that are read are (`distinctFields_of_ofJson?`):

* a union whose path ends in array items leads to an array, no other union leads to that place, and
  in the enriched document the array has gained `blockTypes`: the keys of the union's options in
  the order in which they first occur, each with the schema of the last option of that key;
* any other union leaves the document as it is when its turn comes. -/
theorem blockTypes_of_walk {shape : Shape} (hdistinct : shape.DistinctFields) :
    (∀ (i : Nat) (union : VariantUnion), (shape.walk .draft).unions[i]? = some union →
      union.path.getLast? = some .items →
      ∃ members types,
        Json.resolve? union.path (shape.walk .draft).schema = some (.obj members) ∧
        Json.NamesType (.obj members) "array" ∧
        (∀ (j : Nat) (other : VariantUnion), (shape.walk .draft).unions[j]? = some other →
          other.path.place = union.path.place → j = i) ∧
        Json.resolve? union.path ((shape.walk .draft).schema.enrich (shape.walk .draft).unions) =
          some (.obj (Keyed.insert members "blockTypes" (.obj types))) ∧
        Keyed.keys types = (union.options.map Variant.key).eraseDups ∧
        ∀ key, Keyed.find? types key =
          ((union.options.filter (·.key = key)).getLast?).map (·.schema)) ∧
    ∀ before (union : VariantUnion) after, (shape.walk .draft).unions = before ++ union :: after →
      union.path.getLast? ≠ some .items →
      (shape.walk .draft).schema.enrich (before ++ [union]) =
        (shape.walk .draft).schema.enrich before := by
  have hapart := apart_unions .draft hdistinct
  refine ⟨fun i union hunion hlast ↦ ?_, fun before union after hsplit hlast ↦ ?_⟩
  · have hmem : union ∈ (shape.walk .draft).unions := List.mem_of_getElem? hunion
    have hleads := leads_of_mem_unions hdistinct hmem
    obtain ⟨members, hresolve, harray⟩ := hleads.resolve?_of_getLast?_eq_items hlast
    refine ⟨members, union.blockTypes, hresolve, harray, fun j other hother hplace ↦ ?_, ?_,
      union.keys_blockTypes, union.find?_blockTypes⟩
    · exact index_eq_of_place_eq hapart hunion hother hplace
    · rw [Json.resolve?_enrich hapart hmem, hresolve, Option.map_some,
        union.attach_of_namesType harray]
  · have hmem : union ∈ (shape.walk .draft).unions :=
      hsplit ▸ List.mem_append_right _ List.mem_cons_self
    have hleads := leads_of_mem_unions hdistinct hmem
    obtain ⟨node, hresolve, htype⟩ := hleads.resolve?_of_getLast?_ne_items hlast
    rw [hsplit] at hapart
    have hbefore : ∀ earlier ∈ before, Apart union.path.place earlier.path.place :=
      fun earlier hearlier ↦
        ((List.pairwise_append.1 hapart).2.2 earlier hearlier union List.mem_cons_self).symm
    rw [Json.enrich_concat]
    refine Json.modifyPlace_of_fixed fun found hfound ↦ ?_
    -- the unions before are attached elsewhere, so what stands here is still the walk's own node
    rw [Json.at?_enrich_of_apart hbefore, ← Json.resolve?_eq_at?, hresolve] at hfound
    exact Option.some.inj hfound ▸ union.attach_of_get?_type_eq_none htype

/-- A page with blocks two arrays deep, below wrappers and below fields named like keywords of a
document. A kind without a document stands beside them and another one among the options, and two
options have one key. -/
def gallery : Shape :=
  .object [
    ("cache", .other "Map"),
    ("properties", .nullable (.object [
      ("items", .defaulted (.array (.nullable (.array (.variants "kind" [
        .object [("kind", .literal (.str "text")), ("body", .string none none none none)],
        .object [("kind", .literal (.str "image")), ("sizes", .enumeration [])],
        .object [("kind", .literal (.str "text")), ("lines", .array .boolean none none)]])
        none none)) none (some 3)) (.arr []))])),
    ("hero", .variants "kind" [.object [("kind", .literal (.num (.int 1)))]])]

theorem blockTypes_of_walk_gallery :
    gallery.DistinctFields ∧
    (∃ members types,
      Json.resolve? [.field "properties", .field "items", .items, .items]
          (gallery.walk .draft).schema =
        some (.obj members) ∧
      Json.NamesType (.obj members) "array" ∧
      Json.resolve? [.field "properties", .field "items", .items, .items]
          ((gallery.walk .draft).schema.enrich (gallery.walk .draft).unions) =
        some (.obj (Keyed.insert members "blockTypes" (.obj types))) ∧
      Keyed.keys types = ["text", "image"] ∧
      Keyed.find? types "text" = some (Draft.object
        [("kind", .obj [("type", .str "string"), ("const", .str "text")]),
          ("lines", Draft.array (Draft.typed "boolean") none none)]
        ["kind", "lines"])) ∧
    (gallery.walk .draft).schema.enrich (gallery.walk .draft).unions =
      (gallery.walk .draft).schema.enrich ((gallery.walk .draft).unions.take 1) := by
  have hdistinct : gallery.DistinctFields :=
    distinctFields_of_ofJson? (show ofJson? gallery.toJson = some gallery from rfl)
  obtain ⟨hitems, hothers⟩ := blockTypes_of_walk hdistinct
  obtain ⟨members, types, hresolve, harray, -, henriched, hkeys, hvalues⟩ := hitems 0 _ rfl rfl
  have hsplit : (gallery.walk .draft).unions = (gallery.walk .draft).unions.take 1 ++
      [⟨[.field "hero"], "kind", [⟨.num (.int 1), (Json.num (.int 1)).literalLabel,
        Draft.object [("kind", .obj [("type", .str "number"), ("const", .num (.int 1))])]
          ["kind"]⟩]⟩] :=
    rfl
  have hhero := hothers _ _ [] hsplit (by decide)
  rw [← hsplit] at hhero
  exact ⟨hdistinct, ⟨members, types, hresolve, harray, henriched, hkeys, hvalues "text"⟩, hhero⟩

end Shape

end ContentSchema
