import ContentSchema.Proofs.Enrich.Place
import ContentSchema.Proofs.Shape.DistinctFields
import ContentSchema.Collection.Walk
/-!
# Routes to unions

Three recursions have to agree on where a discriminated union stands: the conversion of a shape,
the search for unions in it, and the resolution of a path in a document. Each is related here to a
route of its own, so that none has to be unfolded against another.

* `Shape.LeadsTo` is the route in a shape, through fields, array items and wrappers. Whatever
  `unionSites` finds has one (`leadsTo_of_mem_unionSites`).
* `Json.Leads` is the route in a document: at each hop the node names the type that the hop needs,
  and the route ends at a node without a type, as unions have.
* `Shape.LeadsTo.leads` takes the first to the second, whatever shapes beside the route were
  replaced by the fallback document.

That a node on a route *names* its type is the part of the invariant that wrappers need: `nullable`
rewrites the type of such a node in place, but puts a node without a type inside a union, where no
path reaches it. At the end of a route that is harmless, since the new union has no type either.
-/

namespace ContentSchema

/-! ### Types of documents -/

namespace Json

/-- The type of a document is `type`, alone or in a list. -/
def NamesType (doc : Json) (type : String) : Prop :=
  doc.get? "type" = some (.str type) ∨
    ∃ types, doc.get? "type" = some (.arr types) ∧ .str type ∈ types

theorem isArraySchema_iff {doc : Json} : doc.isArraySchema = true ↔ doc.NamesType "array" := by
  unfold isArraySchema NamesType
  split
  next type htype => simp [htype]
  next types htype => simp [htype]
  next hstr harr =>
    simp only [Bool.false_eq_true, false_iff, not_or, not_exists, not_and]
    exact ⟨hstr "array", fun types htype ↦ absurd htype (harr types)⟩

/-- Only an object names its type. -/
theorem NamesType.exists_members {doc : Json} {type : String} (h : doc.NamesType type) :
    ∃ members, doc = .obj members := by
  cases doc with
  | obj members => exact ⟨members, rfl⟩
  | _ => simp [NamesType, get?] at h

end Json

namespace Draft

/-- A default adds the key `default` and no other. -/
theorem get?_withDefault {key : String} (hkey : key ≠ "default") (doc value : Json) :
    (withDefault doc value).get? key = doc.get? key := by
  cases doc with
  | obj members => exact (Keyed.find?_insert members "default" key value).trans (if_neg hkey.symm)
  | _ => rfl

/-- Admitting null adds to the type of a document that has one, and keeps every other member. -/
theorem nullable_of_namesType {doc : Json} {type : String} (h : doc.NamesType type) :
    (nullable doc).NamesType type ∧
      ∀ key, key ≠ "type" → (nullable doc).get? key = doc.get? key := by
  obtain ⟨members, rfl⟩ := h.exists_members
  -- unless null is there already, the type is written anew as a list
  have hinsert : ∀ (types : List Json), .str type ∈ types →
      (Json.obj (Keyed.insert members "type" (.arr types))).NamesType type ∧
        ∀ key, key ≠ "type" →
          (Json.obj (Keyed.insert members "type" (.arr types))).get? key =
            Json.get? (.obj members) key := by
    intro types hmem
    refine ⟨.inr ⟨types, ?_, hmem⟩, fun key hkey ↦ ?_⟩
    · exact (Keyed.find?_insert members "type" "type" _).trans (if_pos rfl)
    · exact (Keyed.find?_insert members "type" key _).trans (if_neg hkey.symm)
  rcases h with htype | ⟨types, htype, hmem⟩
  · rw [nullable, show Keyed.find? members "type" = some (.str type) from htype]
    exact hinsert _ List.mem_cons_self
  · rw [nullable, show Keyed.find? members "type" = some (.arr types) from htype]
    dsimp only
    split
    · exact ⟨.inr ⟨types, htype, hmem⟩, fun _ _ ↦ rfl⟩
    · exact hinsert _ (List.mem_append_left _ hmem)

/-- A document without a type becomes another one without a type. -/
theorem get?_type_nullable {doc : Json} (h : doc.get? "type" = none) :
    (nullable doc).get? "type" = none := by
  cases doc with
  | obj members =>
    rw [nullable, show Keyed.find? members "type" = none from h]
    rfl
  | _ => rfl

end Draft

/-! ### Routes in documents -/

namespace Json

/-- A path leads in a document to a node without a type, and every node on the way names the type
that the next hop needs. -/
inductive Leads : Path → Json → Prop where
  | here {doc : Json} (htype : doc.get? "type" = none) : Leads [] doc
  | items {path : Path} {doc inner : Json} (htype : doc.NamesType "array")
      (hinner : doc.get? "items" = some inner) (h : Leads path inner) : Leads (.items :: path) doc
  | field {name : String} {path : Path} {doc properties inner : Json}
      (htype : doc.NamesType "object") (hproperties : doc.get? "properties" = some properties)
      (hinner : properties.get? name = some inner) (h : Leads path inner) :
      Leads (.field name :: path) doc

namespace Leads

variable {path : Path} {doc : Json}

/-- A path leads through the document of a nullable to where it led before; an alternative to null
is passed through. -/
theorem nullable (h : Leads path doc) : Leads path (Draft.nullable doc) := by
  cases h with
  | here htype => exact .here (Draft.get?_type_nullable htype)
  | items htype hinner h =>
    obtain ⟨htype', hget⟩ := Draft.nullable_of_namesType htype
    exact .items htype' ((hget "items" (by decide)).trans hinner) h
  | field htype hproperties hinner h =>
    obtain ⟨htype', hget⟩ := Draft.nullable_of_namesType htype
    exact .field htype' ((hget "properties" (by decide)).trans hproperties) hinner h

/-- A default does not stand in the way of a path. -/
theorem withDefault (h : Leads path doc) (value : Json) :
    Leads path (Draft.withDefault doc value) := by
  have hget : ∀ {key : String}, key ≠ "default" →
      (Draft.withDefault doc value).get? key = doc.get? key :=
    fun hkey ↦ Draft.get?_withDefault hkey doc value
  cases h with
  | here htype => exact .here ((hget (by decide)).trans htype)
  | items htype hinner h =>
    refine .items ?_ ((hget (by decide)).trans hinner) h
    rwa [NamesType, hget (by decide)]
  | field htype hproperties hinner h =>
    refine .field ?_ ((hget (by decide)).trans hproperties) hinner h
    rwa [NamesType, hget (by decide)]

/-- A route that ends in array items ends in the items of an array. -/
theorem resolve?_of_getLast?_eq_items (h : Leads path doc) (hlast : path.getLast? = some .items) :
    ∃ members, resolve? path doc = some (.obj members) ∧ NamesType (.obj members) "array" := by
  induction h with
  | here htype => simp at hlast
  | @items path doc inner htype hinner h ih =>
    cases path with
    | nil =>
      -- a last hop into items stays at the array
      obtain ⟨members, rfl⟩ := htype.exists_members
      exact ⟨members, rfl, htype⟩
    | cons hop rest =>
      rw [resolve?_items_cons (List.cons_ne_nil hop rest), hinner]
      exact ih (List.getLast?_cons_cons ▸ hlast)
  | @field name path doc properties inner htype hproperties hinner h ih =>
    cases path with
    | nil => simp at hlast
    | cons hop rest =>
      rw [resolve?, hproperties, Option.bind_some, hinner]
      exact ih (List.getLast?_cons_cons ▸ hlast)

/-- A route that ends elsewhere ends at a node without a type. -/
theorem resolve?_of_getLast?_ne_items (h : Leads path doc) (hlast : path.getLast? ≠ some .items) :
    ∃ node, resolve? path doc = some node ∧ node.get? "type" = none := by
  induction h with
  | @here doc htype => exact ⟨doc, rfl, htype⟩
  | @items path doc inner htype hinner h ih =>
    cases path with
    | nil => exact absurd rfl hlast
    | cons hop rest =>
      rw [resolve?_items_cons (List.cons_ne_nil hop rest), hinner]
      exact ih (List.getLast?_cons_cons ▸ hlast)
  | @field name path doc properties inner htype hproperties hinner h ih =>
    rw [resolve?, hproperties, Option.bind_some, hinner]
    refine ih fun hpath ↦ hlast ?_
    rw [List.getLast?_cons, hpath]
    rfl

end Leads

end Json

/-! ### Routes in shapes -/

namespace Shape

/-- A path leads from one shape to another inside it, through fields, array items and wrappers. -/
inductive LeadsTo : Shape → Path → Shape → Prop where
  | here {shape : Shape} : LeadsTo shape [] shape
  | field {fields : List (String × Shape)} {name : String} {inner target : Shape} {path : Path}
      (hinner : (name, inner) ∈ fields) (h : LeadsTo inner path target) :
      LeadsTo (.object fields) (.field name :: path) target
  | items {element target : Shape} {minItems maxItems : Option Nat} {path : Path}
      (h : LeadsTo element path target) :
      LeadsTo (.array element minItems maxItems) (.items :: path) target
  | wrapped {shape inner target : Shape} {path : Path} (hinner : shape.wrapped? = some inner)
      (h : LeadsTo inner path target) : LeadsTo shape path target

mutual

/-- Every union that is found stands at the end of a route. -/
theorem leadsTo_of_mem_unionSites {site : UnionSite} : ∀ (shape : Shape) (path : Path),
    site ∈ shape.unionSites path →
      ∃ rest, site.path = path ++ rest ∧
        shape.LeadsTo rest (.variants site.discriminator site.options)
  | .variants discriminator options, path, hsite => by
    obtain rfl := List.mem_singleton.1 hsite
    exact ⟨[], (List.append_nil path).symm, .here⟩
  | .object fields, path, hsite => by
    obtain ⟨name, inner, rest, hinner, hpath, h⟩ := leadsTo_of_mem_fieldSites fields path hsite
    exact ⟨.field name :: rest, hpath, .field hinner h⟩
  | .array element _ _, path, hsite => by
    obtain ⟨rest, hpath, h⟩ := leadsTo_of_mem_unionSites element (path ++ [.items]) hsite
    exact ⟨.items :: rest, by rw [hpath, List.append_assoc]; rfl, .items h⟩
  | .optional inner, path, hsite | .nullable inner, path, hsite | .defaulted inner _, path, hsite
  | .effects inner, path, hsite => by
    obtain ⟨rest, hpath, h⟩ := leadsTo_of_mem_unionSites inner path hsite
    exact ⟨rest, hpath, .wrapped rfl h⟩
  | .union _, _, hsite | .literal _, _, hsite | .string .., _, hsite | .number .., _, hsite
  | .boolean, _, hsite | .date, _, hsite | .null, _, hsite | .any, _, hsite
  | .enumeration _, _, hsite | .record _, _, hsite | .tuple _, _, hsite | .reference _, _, hsite
  | .other _, _, hsite | .unrecognized, _, hsite => by simp [unionSites] at hsite

/-- Every union found in the fields of an object stands at the end of a route through a field. -/
theorem leadsTo_of_mem_fieldSites {site : UnionSite} :
    ∀ (fields : List (String × Shape)) (path : Path), site ∈ fieldSites path fields →
      ∃ name inner rest, (name, inner) ∈ fields ∧ site.path = path ++ .field name :: rest ∧
        inner.LeadsTo rest (.variants site.discriminator site.options)
  | [], _, hsite => by simp [fieldSites] at hsite
  | (name, inner) :: fields, path, hsite => by
    rcases List.mem_append.1 hsite with hsite | hsite
    · obtain ⟨rest, hpath, h⟩ := leadsTo_of_mem_unionSites inner (path ++ [.field name]) hsite
      exact ⟨name, inner, rest, List.mem_cons_self, by rw [hpath, List.append_assoc]; rfl, h⟩
    · obtain ⟨name', inner', rest, hinner, hpath, h⟩ := leadsTo_of_mem_fieldSites fields path hsite
      exact ⟨name', inner', rest, List.mem_cons_of_mem _ hinner, hpath, h⟩

end

/-- The document of a field is what its own shape gives, at the path of the field. -/
theorem find?_draftFieldsLenient (place : Path) (fields : List (String × Shape)) (name : String) :
    Keyed.find? (draftFieldsLenient place fields).1 name =
      (Keyed.find? fields name).map fun shape ↦
        (draftLenient (place ++ [.field name]) shape).doc := by
  induction fields with
  | nil => simp [draftFieldsLenient]
  | cons field fields ih =>
    obtain ⟨first, shape⟩ := field
    simp only [draftFieldsLenient, Keyed.find?_cons]
    by_cases hfirst : first = name
    · simp [hfirst]
    · simp [hfirst, ih]

/-- The document of a shape has the route that the shape has. -/
theorem LeadsTo.leads {shape target : Shape} {path : Path} (h : shape.LeadsTo path target)
    (hdistinct : shape.DistinctFields)
    (htarget : ∀ place, (target.draftLenient place).doc.get? "type" = none) (place : Path) :
    Json.Leads path (shape.draftLenient place).doc := by
  induction h generalizing place with
  | here => exact .here (htarget place)
  | @field fields name inner target path hinner h ih =>
    obtain ⟨hkeys, hshapes⟩ := distinctFields_object.1 hdistinct
    have hdoc : (draftLenient place (.object fields)).doc =
        Draft.object (draftFieldsLenient place fields).1 (requiredNames fields) := by
      simp only [draftLenient]
    rw [hdoc]
    refine .field (.inl rfl) rfl ?_ (ih (hshapes _ hinner) htarget (place ++ [.field name]))
    -- the field on the route is the first one of its name, since it is the only one
    rw [Json.get?, find?_draftFieldsLenient, hkeys.find?_eq_of_mem hinner]
    rfl
  | @items element target minItems maxItems path h ih =>
    have helement : element.DistinctFields := hdistinct.of_mem_parts List.mem_cons_self
    exact .items (.inl rfl) rfl (ih helement htarget (place ++ [.items]))
  | @wrapped shape inner target path hinner h ih =>
    have hleads := ih (hdistinct.of_mem_parts (mem_parts_of_wrapped? hinner)) htarget place
    cases shape with
    | optional _ | effects _ =>
      obtain rfl := Option.some.inj hinner
      exact hleads
    | nullable _ =>
      obtain rfl := Option.some.inj hinner
      exact hleads.nullable
    | defaulted _ value =>
      obtain rfl := Option.some.inj hinner
      exact hleads.withDefault value
    | _ => simp [wrapped?] at hinner

end Shape

end ContentSchema
