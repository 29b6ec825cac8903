import ContentSchema.Proofs.Enrich.BlockTypes
/-!
# Where unions stand

`Shape.unionSites` lists the discriminated unions of a shape, and this module says which list that
is without the recursion that makes it. `Shape.follow?` takes a path through a shape, out of its
wrappers at every hop; a union is listed exactly if its path leads to it (`mem_unionSites_iff`), so
nothing inside an option, a record or a tuple is. `Shape.Precedes` is depth-first declaration order
on paths, and the list is in it (`pairwise_precedes_unionSites`).

Both rest on the route `Shape.LeadsTo`, which takes one step at a time where `follow?` takes a hop
and all wrappers before it (`follow?_eq_some_iff`). Only there are distinct field names needed: a
path cannot tell two fields of one name apart.
-/

namespace ContentSchema

namespace Shape

/-! ### Following a path -/

/-- The shape inside all the wrappers around it. -/
def core : Shape → Shape
  | .optional inner => core inner
  | .nullable inner => core inner
  | .defaulted inner _ => core inner
  | .effects inner => core inner
  | shape => shape

/-- Where a path leads in a shape, out of the wrappers at every hop and at the end. -/
def follow? : Path → Shape → Option Shape
  | [], shape => some shape.core
  | .field name :: path, shape =>
    match shape.core with
    | .object fields => (Keyed.find? fields name).bind (follow? path)
    | _ => none
  | .items :: path, shape =>
    match shape.core with
    | .array element _ _ => follow? path element
    | _ => none

theorem core_of_wrapped? {shape inner : Shape} (h : shape.wrapped? = some inner) :
    shape.core = inner.core := by
  cases shape with
  | optional _ | nullable _ | defaulted _ _ | effects _ =>
    obtain rfl := Option.some.inj h
    rfl
  | _ => simp [wrapped?] at h

/-- A route that begins inside the wrappers goes on from the outermost one. -/
theorem LeadsTo.of_core : ∀ {shape target : Shape} {path : Path},
    shape.core.LeadsTo path target → shape.LeadsTo path target
  | .optional _, _, _, h | .nullable _, _, _, h | .defaulted _ _, _, _, h | .effects _, _, _, h =>
    .wrapped rfl (LeadsTo.of_core h)
  | .object _, _, _, h | .array .., _, _, h | .variants _ _, _, _, h | .union _, _, _, h
  | .literal _, _, _, h | .string .., _, _, h | .number .., _, _, h | .boolean, _, _, h
  | .date, _, _, h | .null, _, _, h | .any, _, _, h | .enumeration _, _, _, h | .record _, _, _, h
  | .tuple _, _, _, h | .reference _, _, _, h | .other _, _, _, h | .unrecognized, _, _, h => h

theorem leadsTo_of_follow? {shape target : Shape} {path : Path}
    (h : shape.follow? path = some target) : shape.LeadsTo path target := by
  induction path generalizing shape with
  | nil =>
    obtain rfl := Option.some.inj h
    exact .of_core .here
  | cons hop path ih =>
    refine .of_core ?_
    cases hop with
    | field name =>
      rw [follow?] at h
      split at h
      next fields hcore =>
        obtain ⟨inner, hinner, h⟩ := Option.bind_eq_some_iff.1 h
        exact hcore ▸ .field (Keyed.mem_of_find? hinner) (ih h)
      next => cases h
    | items =>
      rw [follow?] at h
      split at h
      next element minItems maxItems hcore => exact hcore ▸ .items (ih h)
      next => cases h

theorem LeadsTo.follow? {shape target : Shape} {path : Path} (h : shape.LeadsTo path target)
    (hdistinct : shape.DistinctFields) : shape.follow? path = some target.core := by
  induction h with
  | here => rfl
  | @field fields name inner target path hinner h ih =>
    obtain ⟨hkeys, hshapes⟩ := distinctFields_object.1 hdistinct
    -- of all fields of that name there is only this one
    show (Keyed.find? fields name).bind (Shape.follow? path) = some target.core
    rw [hkeys.find?_eq_of_mem hinner]
    exact ih (hshapes _ hinner)
  | items h ih => exact ih (hdistinct.of_mem_parts List.mem_cons_self)
  | @wrapped shape inner target path hinner h ih =>
    have hfollow := ih (hdistinct.of_mem_parts (mem_parts_of_wrapped? hinner))
    rw [← hfollow]
    cases path with
    | nil => exact congrArg some (core_of_wrapped? hinner)
    | cons hop rest => cases hop <;> simp only [Shape.follow?, core_of_wrapped? hinner]

/-- The shapes inside a shape with distinct fields have distinct fields too. -/
theorem LeadsTo.distinctFields {shape target : Shape} {path : Path} (h : shape.LeadsTo path target)
    (hdistinct : shape.DistinctFields) : target.DistinctFields := by
  induction h with
  | here => exact hdistinct
  | field hinner h ih => exact ih ((distinctFields_object.1 hdistinct).2 _ hinner)
  | items h ih => exact ih (hdistinct.of_mem_parts List.mem_cons_self)
  | wrapped hinner h ih => exact ih (hdistinct.of_mem_parts (mem_parts_of_wrapped? hinner))

/-- What holds everywhere inside a shape holds everywhere inside what a route leads to. -/
theorem LeadsTo.everywhere {p : Shape → Prop} {shape target : Shape} {path : Path}
    (h : shape.LeadsTo path target) (hshape : shape.Everywhere p) : target.Everywhere p := by
  induction h with
  | here => exact hshape
  | field hinner h ih => exact ih (hshape.of_mem_parts (List.mem_map_of_mem hinner))
  | items h ih => exact ih (hshape.of_mem_parts List.mem_cons_self)
  | wrapped hinner h ih => exact ih (hshape.of_mem_parts (mem_parts_of_wrapped? hinner))

/-- A path leads to a union exactly if there is a route to it. -/
theorem follow?_eq_some_iff {shape : Shape} (hdistinct : shape.DistinctFields) {path : Path}
    {discriminator : String} {options : List Shape} :
    shape.follow? path = some (.variants discriminator options) ↔
      shape.LeadsTo path (.variants discriminator options) :=
  ⟨leadsTo_of_follow?, fun h ↦ h.follow? hdistinct⟩

/-! ### The unions that are listed -/

/-- What lies in a field of an object lies in the object. -/
theorem mem_fieldSites {fields : List (String × Shape)} {name : String} {inner : Shape}
    (hinner : (name, inner) ∈ fields) {path : Path} {site : UnionSite}
    (hsite : site ∈ inner.unionSites (path ++ [.field name])) : site ∈ fieldSites path fields := by
  induction fields with
  | nil => simp at hinner
  | cons field fields ih =>
    obtain ⟨first, shape⟩ := field
    rw [fieldSites]
    rcases List.mem_cons.1 hinner with hfirst | hrest
    · cases hfirst
      exact List.mem_append_left _ hsite
    · exact List.mem_append_right _ (ih hrest)

/-- Every union at the end of a route is listed. -/
theorem LeadsTo.mem_unionSites {shape target : Shape} {rest : Path} (h : shape.LeadsTo rest target)
    {discriminator : String} {options : List Shape} (htarget : target = .variants discriminator options)
    (path : Path) : ⟨path ++ rest, discriminator, options⟩ ∈ shape.unionSites path := by
  induction h generalizing path with
  | here =>
    subst htarget
    simp [unionSites]
  | @field fields name inner target rest hinner h ih =>
    rw [unionSites]
    have hsite := ih htarget (path ++ [.field name])
    rw [List.append_assoc] at hsite
    exact mem_fieldSites hinner hsite
  | @items element target minItems maxItems rest h ih =>
    rw [unionSites]
    have hsite := ih htarget (path ++ [.items])
    rwa [List.append_assoc] at hsite
  | @wrapped shape inner target rest hinner h ih =>
    cases shape with
    | optional _ | nullable _ | defaulted _ _ | effects _ =>
      obtain rfl := Option.some.inj hinner
      exact ih htarget path
    | _ => simp [wrapped?] at hinner

/-- A union is listed exactly if its path leads to it. -/
theorem mem_unionSites_iff {shape : Shape} (hdistinct : shape.DistinctFields) {site : UnionSite} :
    site ∈ shape.unionSites [] ↔
      shape.follow? site.path = some (.variants site.discriminator site.options) := by
  rw [follow?_eq_some_iff hdistinct]
  constructor
  · intro hsite
    obtain ⟨rest, hpath, h⟩ := leadsTo_of_mem_unionSites shape [] hsite
    exact hpath ▸ h
  · intro h
    exact h.mem_unionSites rfl []

/-! ### Their order -/

/-- Depth-first declaration order: two paths go together and then part at two fields of one object,
and the field of the first path is declared first. -/
inductive Precedes : Shape → Path → Path → Prop where
  | fields {fields : List (String × Shape)} {field other : String × Shape}
      (hdeclared : [field, other].Sublist fields) (path path' : Path) :
      Precedes (.object fields) (.field field.1 :: path) (.field other.1 :: path')
  | field {fields : List (String × Shape)} {name : String} {inner : Shape} {path path' : Path}
      (hinner : (name, inner) ∈ fields) (h : Precedes inner path path') :
      Precedes (.object fields) (.field name :: path) (.field name :: path')
  | items {element : Shape} {minItems maxItems : Option Nat} {path path' : Path}
      (h : Precedes element path path') :
      Precedes (.array element minItems maxItems) (.items :: path) (.items :: path')
  | wrapped {shape inner : Shape} {path path' : Path} (hinner : shape.wrapped? = some inner)
      (h : Precedes inner path path') : Precedes shape path path'

/-- What is declared before the fields of an object does not change their order. -/
theorem Precedes.cons_field {fields : List (String × Shape)} {path path' : Path}
    (h : Precedes (.object fields) path path') (field : String × Shape) :
    Precedes (.object (field :: fields)) path path' := by
  cases h with
  | fields hdeclared path path' => exact .fields (hdeclared.cons field) path path'
  | field hinner h => exact .field (List.mem_cons_of_mem field hinner) h
  | wrapped hinner h => simp [wrapped?] at hinner

/-- Two sites below `path` whose further paths are in declaration order. -/
def Ordered (shape : Shape) (path : Path) (site other : UnionSite) : Prop :=
  ∃ rest rest', site.path = path ++ rest ∧ other.path = path ++ rest' ∧ shape.Precedes rest rest'

mutual

/-- Any two sites of a shape stand in declaration order below its path, by induction on the shape and
its fields together. -/
theorem pairwise_ordered_unionSites : ∀ (shape : Shape) (path : Path),
    (shape.unionSites path).Pairwise (shape.Ordered path)
  | .variants discriminator options, path => List.pairwise_singleton _ _
  | .object fields, path => pairwise_ordered_fieldSites fields path
  | .array element _ _, path => by
    refine (pairwise_ordered_unionSites element (path ++ [.items])).imp ?_
    rintro site other ⟨rest, rest', hpath, hpath', h⟩
    rw [List.append_assoc] at hpath hpath'
    exact ⟨.items :: rest, .items :: rest', hpath, hpath', .items h⟩
  | .optional inner, path | .nullable inner, path | .defaulted inner _, path
  | .effects inner, path => by
    refine (pairwise_ordered_unionSites inner path).imp ?_
    rintro site other ⟨rest, rest', hpath, hpath', h⟩
    exact ⟨rest, rest', hpath, hpath', .wrapped rfl h⟩
  | .union _, _ | .literal _, _ | .string .., _ | .number .., _ | .boolean, _ | .date, _ | .null, _
  | .any, _ | .enumeration _, _ | .record _, _ | .tuple _, _ | .reference _, _ | .other _, _
  | .unrecognized, _ => List.Pairwise.nil

theorem pairwise_ordered_fieldSites : ∀ (fields : List (String × Shape)) (path : Path),
    (fieldSites path fields).Pairwise ((Shape.object fields).Ordered path)
  | [], _ => List.Pairwise.nil
  | (name, shape) :: fields, path => by
    rw [fieldSites]
    refine List.pairwise_append.2 ⟨?_, ?_, fun site hsite other hother ↦ ?_⟩
    · refine (pairwise_ordered_unionSites shape (path ++ [.field name])).imp ?_
      rintro site other ⟨rest, rest', hpath, hpath', h⟩
      rw [List.append_assoc] at hpath hpath'
      exact ⟨.field name :: rest, .field name :: rest', hpath, hpath', .field List.mem_cons_self h⟩
    · refine (pairwise_ordered_fieldSites fields path).imp ?_
      rintro site other ⟨rest, rest', hpath, hpath', h⟩
      exact ⟨rest, rest', hpath, hpath', h.cons_field (name, shape)⟩
    · -- one below the first field and one below a field declared after it
      obtain ⟨rest, hpath, -⟩ := leadsTo_of_mem_unionSites shape (path ++ [.field name]) hsite
      obtain ⟨name', inner, rest', hinner, hpath', -⟩ :=
        leadsTo_of_mem_fieldSites fields path hother
      have hdeclared : [(name, shape), (name', inner)].Sublist ((name, shape) :: fields) :=
        (List.singleton_sublist.2 hinner).cons_cons (name, shape)
      rw [List.append_assoc] at hpath
      exact ⟨.field name :: rest, .field name' :: rest', hpath, hpath',
        .fields hdeclared rest rest'⟩

end

/-- The unions are listed in depth-first declaration order. -/
theorem pairwise_precedes_unionSites (shape : Shape) :
    (shape.unionSites []).Pairwise fun site other ↦ shape.Precedes site.path other.path := by
  refine (pairwise_ordered_unionSites shape []).imp ?_
  rintro site other ⟨rest, rest', hpath, hpath', h⟩
  exact hpath ▸ hpath' ▸ h

end Shape

end ContentSchema
