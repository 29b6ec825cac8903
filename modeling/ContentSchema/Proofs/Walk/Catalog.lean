import ContentSchema.Proofs.Draft.Settled
import ContentSchema.Proofs.Draft.Wrappers
import ContentSchema.Proofs.Walk.Unions
/-!
# Unions and the document

A walk converts the options of its unions twice: inside the document of the whole shape, and once more
each on its own. With the lenient conversion of drafts the two agree (`options_of_walk`): where the
path of a union leads in the document there is a list of branches, one for each option, and the
variants of the union have the documents that stand in that list.

A path is followed in a shape as far as the wrappers of what it leads to (`Shape.reach?`), and in the
document hop by hop (`Path.steps`), and the two go together (`at?_draftLenient`). On the way wrappers
only rewrite types and defaults, because objects and arrays name a type (`get?_draftLenient_core`).
A union names none, so that each nullable around it puts it into the first branch of a union of two
(`branches?_draftLenient`).
-/

namespace ContentSchema

/-! ### Following a path to its end -/

/-- The keys by which a hop is made in a document. -/
def Hop.steps : Hop → List String
  | .field name => ["properties", name]
  | .items => ["items"]

/-- The keys by which all hops of a path are made. Other than `Path.place`, a last hop into array items
goes into them. -/
def Path.steps (path : Path) : List String := path.flatMap Hop.steps

namespace Json

/-- The document that is reached by going into the first branch of a union `count` times. -/
def firstBranch? : Nat → Json → Option Json
  | 0, doc => some doc
  | count + 1, doc =>
    match doc.get? "anyOf" with
    | some (.arr (branch :: _)) => firstBranch? count branch
    | _ => none

/-- The branches of the union that is reached by going into first branches `count` times. -/
def branches? (count : Nat) (doc : Json) : Option Json :=
  (firstBranch? count doc).bind (·.get? "anyOf")

/-- What else a document says does not change its branches. -/
theorem branches?_congr {doc other : Json} (h : doc.get? "anyOf" = other.get? "anyOf") (count : Nat) :
    branches? count doc = branches? count other := by
  cases count with
  | zero => exact h
  | succ count => rw [branches?, branches?, firstBranch?, firstBranch?, h]

/-- Admitting null puts a document without a type one branch deeper. -/
theorem branches?_nullable {doc : Json} (h : doc.get? "type" = none) (count : Nat) :
    branches? (count + 1) (Draft.nullable doc) = branches? count doc := by
  cases doc with
  | obj members =>
    rw [Draft.nullable_untyped h]
    rfl
  | _ => rfl

end Json

namespace Shape

/-- Where a path leads in a shape, out of the wrappers at every hop but not at the end. -/
def reach? : Path → Shape → Option Shape
  | [], shape => some shape
  | .field name :: path, shape =>
    match shape.core with
    | .object fields => (Keyed.find? fields name).bind (reach? path)
    | _ => none
  | .items :: path, shape =>
    match shape.core with
    | .array element _ _ => reach? path element
    | _ => none

/-- Following a path is reaching a shape by it and then looking through its wrappers. -/
theorem follow?_eq_map_reach? (path : Path) (shape : Shape) :
    shape.follow? path = (shape.reach? path).map core := by
  induction path generalizing shape with
  | nil => rfl
  | cons hop path ih =>
    cases hop with
    | field name =>
      rw [follow?, reach?]
      cases shape.core with
      | object fields =>
        show (Keyed.find? fields name).bind (follow? path) =
          ((Keyed.find? fields name).bind (reach? path)).map core
        rw [Option.map_bind]
        exact congrArg _ (funext ih)
      | _ => rfl
    | items =>
      rw [follow?, reach?]
      cases shape.core with
      | array element minItems maxItems => exact ih element
      | _ => rfl

/-! ### Documents of wrapped shapes -/

/-- If the document inside all wrappers names a type, then the wrappers keep that type and everything
else but the default. -/
theorem get?_draftLenient_core (place : Path) {type : String} : ∀ (shape : Shape),
    (shape.core.draftLenient place).doc.NamesType type →
      (shape.draftLenient place).doc.NamesType type ∧
      ∀ key, key ≠ "type" → key ≠ "default" →
        (shape.draftLenient place).doc.get? key = (shape.core.draftLenient place).doc.get? key
  | .optional inner, h | .effects inner, h => get?_draftLenient_core place inner h
  | .nullable inner, h => by
    obtain ⟨htype, hget⟩ := get?_draftLenient_core place inner h
    obtain ⟨htype', hget'⟩ := Draft.nullable_of_namesType htype
    exact ⟨htype', fun key hkey hdefault ↦ (hget' key hkey).trans (hget key hkey hdefault)⟩
  | .defaulted inner value, h => by
    obtain ⟨htype, hget⟩ := get?_draftLenient_core place inner h
    have hget' : ∀ key, key ≠ "default" →
        ((defaulted inner value).draftLenient place).doc.get? key =
          (inner.draftLenient place).doc.get? key :=
      fun key hkey ↦ Draft.get?_withDefault hkey _ value
    refine ⟨?_, fun key hkey hdefault ↦ (hget' key hdefault).trans (hget key hkey hdefault)⟩
    rwa [Json.NamesType, hget' "type" (by decide)]
  | .object _, h | .array .., h | .variants _ _, h | .union _, h | .literal _, h | .string .., h
  | .number .., h | .boolean, h | .date, h | .null, h | .any, h | .enumeration _, h | .record _, h
  | .tuple _, h | .reference _, h | .other _, h | .unrecognized, h => ⟨h, fun _ _ _ ↦ rfl⟩

/-- The document of a wrapped object has the properties of the object. -/
theorem get?_properties_draftLenient {shape : Shape} {fields : List (String × Shape)}
    (h : shape.core = .object fields) (place : Path) :
    (shape.draftLenient place).doc.get? "properties" =
      some (.obj (draftFieldsLenient place fields).1) := by
  have htype : (shape.core.draftLenient place).doc.NamesType "object" := by
    rw [h, draftLenient]
    exact .inl rfl
  rw [(get?_draftLenient_core place shape htype).2 "properties" (by decide) (by decide), h,
    draftLenient]
  rfl

/-- The document of a wrapped array has the items of the array. -/
theorem get?_items_draftLenient {shape element : Shape} {minItems maxItems : Option Nat}
    (h : shape.core = .array element minItems maxItems) (place : Path) :
    (shape.draftLenient place).doc.get? "items" =
      some (element.draftLenient (place ++ [.items])).doc := by
  have htype : (shape.core.draftLenient place).doc.NamesType "array" := by
    rw [h, draftLenient]
    exact .inl rfl
  rw [(get?_draftLenient_core place shape htype).2 "items" (by decide) (by decide), h, draftLenient]
  rfl

/-- Where a path leads in the document of a shape stands the document of what it leads to in the
shape. -/
theorem at?_draftLenient {shape target : Shape} {path : Path} (h : shape.reach? path = some target)
    (place : Path) :
    (shape.draftLenient place).doc.at? path.steps =
      some (target.draftLenient (place ++ path)).doc := by
  induction path generalizing shape place with
  | nil =>
    obtain rfl := Option.some.inj h
    rw [List.append_nil]
    rfl
  | cons hop path ih =>
    cases hop with
    | field name =>
      rw [reach?] at h
      split at h
      next fields hcore =>
        obtain ⟨inner, hinner, h⟩ := Option.bind_eq_some_iff.1 h
        show ((shape.draftLenient place).doc.get? "properties").bind
          (fun doc ↦ (doc.get? name).bind (Json.at? (Path.steps path))) = _
        rw [get?_properties_draftLenient hcore, Option.bind_some, Json.get?,
          find?_draftFieldsLenient, hinner]
        have htarget := ih h (place ++ [.field name])
        rwa [List.append_assoc] at htarget
      next => cases h
    | items =>
      rw [reach?] at h
      split at h
      next element minItems maxItems hcore =>
        show ((shape.draftLenient place).doc.get? "items").bind (Json.at? (Path.steps path)) = _
        rw [get?_items_draftLenient hcore, Option.bind_some]
        have htarget := ih h (place ++ [.items])
        rwa [List.append_assoc] at htarget
      next => cases h

/-- The document of a wrapped union names no type, and has the documents of its options as many first
branches deep as there are nullables around it. -/
theorem branches?_draftLenient (place : Path) {discriminator : String} {options : List Shape} :
    ∀ (shape : Shape), shape.core = .variants discriminator options →
      (shape.draftLenient place).doc.get? "type" = none ∧
      (shape.draftLenient place).doc.branches? (shape.wrappers.count .nullable) =
        some (.arr (options.map fun option ↦ (option.draftLenient place).doc))
  | .variants _ _, h => by
    cases h
    rw [← draftAllLenient_fst]
    simp only [draftLenient]
    exact ⟨rfl, rfl⟩
  | .optional inner, h | .effects inner, h => branches?_draftLenient place inner h
  | .nullable inner, h => by
    obtain ⟨htype, hbranches⟩ := branches?_draftLenient place inner h
    refine ⟨Draft.get?_type_nullable htype, ?_⟩
    rw [wrappers, List.count_cons_self]
    exact (Json.branches?_nullable htype _).trans hbranches
  | .defaulted inner value, h => by
    obtain ⟨htype, hbranches⟩ := branches?_draftLenient place inner h
    refine ⟨(Draft.get?_withDefault (by decide) _ value).trans htype, ?_⟩
    exact (Json.branches?_congr (Draft.get?_withDefault (by decide) _ value) _).trans hbranches
  | .object _, h | .array .., h | .union _, h | .literal _, h | .string .., h | .number .., h
  | .boolean, h | .date, h | .null, h | .any, h | .enumeration _, h | .record _, h | .tuple _, h
  | .reference _, h | .other _, h | .unrecognized, h => nomatch h

/-! ### The variants of a union -/

/-- **The unions of a walk match its document.** For every shape whose objects are dictionaries and
every union that a walk finds in it with the lenient conversion of drafts:

* the path of the union leads in the shape to the union and the wrappers directly around it;
* the path leads in the document, by `properties` and the name for a field and by `items` for array
  items, to a document from which as many steps into the first branch as there are nullables directly
  around the union lead to one whose `anyOf` has one branch for each option;
* the variants of the union are its usable options, in order, each with its literal, the label of
  that, and the branch at the option's own place. -/
theorem options_of_walk {shape : Shape} (hdistinct : shape.DistinctFields) {union : VariantUnion}
    (hunion : union ∈ (shape.walk .draft).unions) :
    ∃ target options, shape.reach? union.path = some target ∧
      target.core = .variants union.discriminator options ∧
      ∃ doc node branches, (shape.walk .draft).schema.at? union.path.steps = some doc ∧
        doc.firstBranch? (target.wrappers.count .nullable) = some node ∧
        node.get? "anyOf" = some (.arr branches) ∧ branches.length = options.length ∧
        union.options = (options.zip branches).filterMap fun (option, branch) ↦
          match option.discriminatorValue union.discriminator with
          | .ok value => some ⟨value, value.literalLabel, branch⟩
          | .error _ => none := by
  rw [unions_walk] at hunion
  obtain ⟨site, hsite, rfl⟩ := List.mem_map.1 hunion
  have hfollow := (mem_unionSites_iff hdistinct).1 hsite
  rw [follow?_eq_map_reach?] at hfollow
  obtain ⟨target, htarget, hcore⟩ := Option.map_eq_some_iff.1 hfollow
  obtain ⟨node, hnode, hbranches⟩ :=
    Option.bind_eq_some_iff.1 (branches?_draftLenient site.path target hcore).2
  refine ⟨target, site.options, htarget, hcore, _, node, _, at?_draftLenient htarget [], hnode,
    hbranches, List.length_map _, ?_⟩
  have hzip : site.options.zip (site.options.map fun option ↦ (option.draftLenient site.path).doc) =
      site.options.map fun option ↦ (option, (option.draftLenient site.path).doc) := by
    simpa using @List.zip_map' _ _ _ id (fun option ↦ (draftLenient site.path option).doc) site.options
  show _ = (site.options.zip (site.options.map _)).filterMap _
  rw [hzip, List.filterMap_map]
  rfl

/-- Three blocks, of which the second is no object and the source of the third does not convert. -/
def blocks : List Shape := [
  .object [("kind", .literal (.str "text"))],
  .boolean,
  .object [("kind", .literal (.str "image")), ("source", .other "Blob")]]

/-- A newsletter with a list of blocks that may be null. So may each block, in two ways that have a
default between them. -/
def newsletter : Shape :=
  .object [("issue", .optional (.object [("blocks", .nullable (.array
    (.nullable (.defaulted (.nullable (.variants "kind" blocks)) .null)) none none))]))]

theorem options_of_walk_newsletter :
    newsletter.DistinctFields ∧ ∃ union ∈ (newsletter.walk .draft).unions,
      union.path = [.field "issue", .field "blocks", .items] ∧
      ∃ doc node text boolean image,
        (newsletter.walk .draft).schema.at?
          ["properties", "issue", "properties", "blocks", "items"] = some doc ∧
        doc.firstBranch? 2 = some node ∧ node.get? "anyOf" = some (.arr [text, boolean, image]) ∧
        union.options = [⟨.str "text", (Json.str "text").literalLabel, text⟩,
          ⟨.str "image", (Json.str "image").literalLabel, image⟩] := by
  have hdistinct : newsletter.DistinctFields :=
    distinctFields_of_ofJson? (show ofJson? newsletter.toJson = some newsletter from rfl)
  have hunion : UnionSite.union .draft
      ⟨[.field "issue", .field "blocks", .items], "kind", blocks⟩ ∈
        (newsletter.walk .draft).unions := by
    rw [unions_walk]
    exact List.mem_cons_self
  obtain ⟨target, options, htarget, hcore, doc, node, branches, hdoc, hnode, hbranches, hlength,
    hoptions⟩ := options_of_walk hdistinct hunion
  obtain rfl := Option.some.inj htarget
  obtain rfl := (variants.inj hcore).2
  obtain ⟨text, boolean, image, rfl⟩ := List.length_eq_three.1 hlength
  exact ⟨hdistinct, _, hunion, rfl, doc, node, text, boolean, image, hdoc, hnode, hbranches, hoptions⟩

end Shape

end ContentSchema
