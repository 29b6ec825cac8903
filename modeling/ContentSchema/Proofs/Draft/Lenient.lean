import ContentSchema.Proofs.Enrich.Route
/-!
# Strict and lenient conversion

The two conversions of a shape differ only in what they make of a leaf without a document: the
strict one stops there, the lenient one puts the fallback document in its place and goes on.

`Shape.leaves` lists the leaves of a shape with the hops that lead to each, depth first in
declaration order, and `Shape.defect?` says what a leaf lacks, without a conversion. The relation of
the two conversions has two halves that do not use each other:

* `draft_eq_unlessFailed`: the strict result is the lenient one if nothing failed, and else the
  error of the first failure;
* `failures_draftLenient`: the failures are the defects of the leaves, in order.

Everything that is said about both at once follows from them (`strict_lenient_agree`). A walk
converts the options of its unions once more on their own; their leaves are leaves of the whole
shape (`LeadsTo.mem_leaves`), so in a shape that converts nothing is left that could fail there.
-/

namespace ContentSchema

/-! ### Leaves and what they lack -/

/-- Why a bound has no document: it is not a number. -/
def Real64.defect? : Real64 → Option ConversionError
  | .finite _ => none
  | bound => some (.invalid "number" ("bound " ++ bound.display ++ " is not a finite number"))

/-- A leaf of a shape, with the hops that lead to it. -/
structure Leaf where
  path : Path
  shape : Shape

/-- A leaf seen from one hop further up. -/
def Leaf.under (hop : Hop) (leaf : Leaf) : Leaf := { leaf with path := hop :: leaf.path }

namespace Shape

/-- Why a leaf has no document; every other shape has one if the shapes inside it have. -/
def defect? : Shape → Option ConversionError
  | .other typeName => some (.unsupported typeName)
  | .unrecognized => some (.unsupported Kind.unrecognized.name)
  | .enumeration values => if values = [] then some (.invalid "enum" "no values") else none
  | .literal value =>
    if value.isContainer then
      some (.invalid "literal" "literal value must be a string, number, boolean or null")
    else none
  | .number _ minimum maximum => (minimum.bind Real64.defect?).or (maximum.bind Real64.defect?)
  | _ => none

mutual

/-- The leaves of a shape, depth first in declaration order. Options of unions, values of records
and wrappers add no hop. -/
def leaves : Shape → List Leaf
  | .object fields => leavesOfFields fields
  | .array element _ _ => (leaves element).map (.under .items)
  | .tuple items => (leavesOfAll items).map (.under .items)
  | .variants _ options => leavesOfAll options
  | .union options => leavesOfAll options
  | .optional inner => leaves inner
  | .nullable inner => leaves inner
  | .defaulted inner _ => leaves inner
  | .effects inner => leaves inner
  | .record value => leaves value
  | leaf => [⟨[], leaf⟩]

/-- The leaves of a list of shapes, one shape after the other. -/
def leavesOfAll : List Shape → List Leaf
  | [] => []
  | shape :: shapes => leaves shape ++ leavesOfAll shapes

/-- The leaves of the fields of an object, each under the name of its field. -/
def leavesOfFields : List (String × Shape) → List Leaf
  | [] => []
  | (name, shape) :: fields => (leaves shape).map (.under (.field name)) ++ leavesOfFields fields

end

end Shape

/-- The failure of a leaf, if it has a defect, inside a shape that stands at `path`. -/
def Leaf.failure? (path : Path) (leaf : Leaf) : Option Failure :=
  leaf.shape.defect?.map fun error ↦ ⟨path ++ leaf.path, error⟩

/-- The hop above a list of leaves may as well end the path of the shape that they are in. -/
theorem filterMap_failure?_under (path : Path) (hop : Hop) (leaves : List Leaf) :
    (leaves.map (Leaf.under hop)).filterMap (Leaf.failure? path) =
      leaves.filterMap (Leaf.failure? (path ++ [hop])) := by
  rw [List.filterMap_map]
  congr 1
  funext leaf
  rw [Function.comp_apply, Leaf.failure?, Leaf.failure?, List.append_assoc]
  rfl

/-! ### Stopping at the first failure -/

/-- A value, or the error of the first failure if there is one. -/
def unlessFailed {α : Type} (failures : List Failure) (value : α) : Except ConversionError α :=
  match failures with
  | [] => .ok value
  | failure :: _ => .error failure.error

section unlessFailed

variable {α β : Type} {failures : List Failure} {value : α}

theorem map_unlessFailed (f : α → β) :
    (unlessFailed failures value).map f = unlessFailed failures (f value) := by
  cases failures <;> rfl

/-- Of two results in turn the failures stand one after the other, and the first one of all counts.
-/
theorem unlessFailed_bind {γ : Type} (rest : List Failure) (other : β) (f : α → β → γ) :
    (do return f (← unlessFailed failures value) (← unlessFailed rest other)) =
      unlessFailed (failures ++ rest) (f value other) := by
  cases failures with
  | nil => cases rest <;> rfl
  | cons => rfl

theorem unlessFailed_eq_ok_iff {result : α} :
    unlessFailed failures value = .ok result ↔ failures = [] ∧ value = result := by
  cases failures <;> simp [unlessFailed]

/-- The error is that of the first failure. -/
theorem unlessFailed_eq_error_iff {error : ConversionError} :
    unlessFailed failures value = .error error ↔ failures.head?.map (·.error) = some error := by
  cases failures <;> simp [unlessFailed]

end unlessFailed

theorem Converted.ofExcept_unlessFailed (path : Path) (result : Except ConversionError Json) :
    result = unlessFailed (ofExcept path result).failures (ofExcept path result).doc := by
  cases result <;> rfl

namespace Shape

mutual

/-- Strict conversion is lenient conversion that stops at the first failure. -/
theorem draft_eq_unlessFailed : ∀ (shape : Shape) (path : Path),
    shape.draft = unlessFailed (shape.draftLenient path).failures (shape.draftLenient path).doc
  | .object fields, path => by
    rw [draft, draftFields_eq_unlessFailed fields path, map_unlessFailed]
    simp only [draftLenient]
  | .array element minItems maxItems, path => by
    rw [draft, draft_eq_unlessFailed element (path ++ [.items]), map_unlessFailed]
    simp only [draftLenient, Converted.map]
  | .variants _ options, path | .union options, path => by
    rw [draft, draftAll_eq_unlessFailed options path, map_unlessFailed]
    simp only [draftLenient]
  | .tuple items, path => by
    rw [draft, draftAll_eq_unlessFailed items (path ++ [.items]), map_unlessFailed]
    simp only [draftLenient]
  | .optional inner, path | .effects inner, path => by
    rw [draft, draft_eq_unlessFailed inner path]
    simp only [draftLenient]
  | .nullable inner, path | .defaulted inner _, path | .record inner, path => by
    rw [draft, draft_eq_unlessFailed inner path, map_unlessFailed]
    simp only [draftLenient, Converted.map]
  | .literal value, path => by
    simp only [draft, draftLenient]
    exact Converted.ofExcept_unlessFailed path _
  | .number integer minimum maximum, path => by
    simp only [draft, draftLenient]
    exact Converted.ofExcept_unlessFailed path _
  | .enumeration values, path => by
    simp only [draft, draftLenient]
    exact Converted.ofExcept_unlessFailed path _
  | .other _, path | .unrecognized, path | .string .., path | .boolean, path | .date, path
  | .null, path | .any, path | .reference _, path => by
    simp only [draft, draftLenient]
    rfl

/-- The strict conversion of a list is the lenient one, unless a failure was met. -/
theorem draftAll_eq_unlessFailed : ∀ (shapes : List Shape) (path : Path),
    draftAll shapes =
      unlessFailed (draftAllLenient path shapes).2 (draftAllLenient path shapes).1
  | [], _ => rfl
  | shape :: shapes, path => by
    rw [draftAll, draft_eq_unlessFailed shape path, draftAll_eq_unlessFailed shapes path]
    simp only [draftAllLenient]
    exact unlessFailed_bind _ _ List.cons

theorem draftFields_eq_unlessFailed : ∀ (fields : List (String × Shape)) (path : Path),
    draftFields fields =
      unlessFailed (draftFieldsLenient path fields).2 (draftFieldsLenient path fields).1
  | [], _ => rfl
  | (name, shape) :: fields, path => by
    rw [draftFields, draft_eq_unlessFailed shape (path ++ [.field name]),
      draftFields_eq_unlessFailed fields path]
    simp only [draftFieldsLenient]
    exact unlessFailed_bind _ _ fun doc docs ↦ (name, doc) :: docs

end

/-! ### Failures are the defects of leaves -/

theorem bound_eq_error_iff {value : Real64} {error : ConversionError} :
    Draft.bound value = .error error ↔ value.defect? = some error := by
  cases value with
  | finite x =>
    rw [Draft.bound]
    repeat' split
    all_goals simp [Real64.defect?]
  | infinite | nan => simp [Draft.bound, Real64.defect?]

/-- A bound fails for what is wrong with its value, and an absent one never does. -/
theorem bounded_eq_error_iff {name : String} {value : Option Real64} {error : ConversionError} :
    Draft.bounded name value = .error error ↔ value.bind Real64.defect? = some error := by
  cases value with
  | none => simp [Draft.bounded]
  | some value =>
    rw [Option.bind_some, ← bound_eq_error_iff, Draft.bounded]
    cases Draft.bound value <;> simp [Except.map]

/-- The least bound is looked at before the greatest. -/
theorem number_eq_error_iff {integer : Bool} {minimum maximum : Option Real64}
    {error : ConversionError} :
    Draft.number integer minimum maximum = .error error ↔
      (Shape.number integer minimum maximum).defect? = some error := by
  have hgreatest : Draft.bounded "maximum" maximum = .error error ↔
      maximum.bind Real64.defect? = some error := bounded_eq_error_iff
  rw [defect?, Option.or_eq_some_iff, ← hgreatest, Draft.number]
  cases hleast : Draft.bounded "minimum" minimum with
  | error first =>
    have hfirst : minimum.bind Real64.defect? = some first := bounded_eq_error_iff.1 hleast
    -- whatever the greatest bound is, nobody has looked at it
    show Except.error first = Except.error error ↔ _
    simp [hfirst]
  | ok least =>
    have hnone : minimum.bind Real64.defect? = none := by
      refine Option.eq_none_iff_forall_ne_some.2 fun failed hfailed ↦ ?_
      cases hleast.symm.trans (bounded_eq_error_iff.2 hfailed)
    rw [hnone]
    cases Draft.bounded "maximum" maximum with
    | error second =>
      show Except.error second = Except.error error ↔ _
      simp
    | ok greatest =>
      show Except.ok _ = Except.error error ↔ _
      simp

/-- A literal fails for its defect as a leaf and for nothing else. -/
theorem literal_eq_error_iff {value : Json} {error : ConversionError} :
    Draft.literal value = .error error ↔ (Shape.literal value).defect? = some error := by
  cases value <;> simp [Draft.literal, defect?, Json.isContainer]

theorem enumeration_eq_error_iff {values : List String} {error : ConversionError} :
    Draft.enumeration values = .error error ↔ (Shape.enumeration values).defect? = some error := by
  cases values <;> simp [Draft.enumeration, defect?]

/-- A leaf fails once, at its path, if it has a defect. -/
theorem failures_ofExcept {shape : Shape} {result : Except ConversionError Json} (path : Path)
    (hleaf : shape.leaves = [⟨[], shape⟩])
    (herror : ∀ {error}, result = .error error ↔ shape.defect? = some error) :
    (Converted.ofExcept path result).failures = shape.leaves.filterMap (Leaf.failure? path) := by
  rw [hleaf, List.filterMap_cons, Leaf.failure?, List.append_nil]
  cases result with
  | ok doc =>
    have hnone : shape.defect? = none :=
      Option.eq_none_iff_forall_ne_some.2 fun error hdefect ↦ nomatch herror.2 hdefect
    rw [hnone]
    rfl
  | error error =>
    rw [herror.1 rfl]
    rfl

mutual

/-- The failures of a lenient conversion are the defects of the leaves, in order. -/
theorem failures_draftLenient : ∀ (shape : Shape) (path : Path),
    (shape.draftLenient path).failures = shape.leaves.filterMap (Leaf.failure? path)
  | .object fields, path => by
    rw [leaves, ← failures_draftFieldsLenient fields path]
    simp only [draftLenient]
  | .array element minItems maxItems, path => by
    rw [leaves, filterMap_failure?_under, ← failures_draftLenient element]
    simp only [draftLenient, Converted.map]
  | .tuple items, path => by
    rw [leaves, filterMap_failure?_under, ← failures_draftAllLenient items]
    simp only [draftLenient]
  | .variants _ options, path | .union options, path => by
    rw [leaves, ← failures_draftAllLenient options path]
    simp only [draftLenient]
  | .optional inner, path | .nullable inner, path | .defaulted inner _, path
  | .effects inner, path | .record inner, path => by
    rw [leaves, ← failures_draftLenient inner path]
    simp only [draftLenient, Converted.map]
  | .literal value, path => by
    simpa only [draftLenient] using failures_ofExcept path rfl literal_eq_error_iff
  | .number integer minimum maximum, path => by
    simpa only [draftLenient] using failures_ofExcept path rfl number_eq_error_iff
  | .enumeration values, path => by
    simpa only [draftLenient] using failures_ofExcept path rfl enumeration_eq_error_iff
  | .other _, path | .unrecognized, path => by
    simp [draftLenient, leaves, Leaf.failure?, defect?, Converted.ofExcept]
  | .string .., path | .boolean, path | .date, path | .null, path | .any, path
  | .reference _, path => by
    simp [draftLenient, leaves, Leaf.failure?, defect?]

/-- The failures of a list are those of its leaves, in order. -/
theorem failures_draftAllLenient : ∀ (shapes : List Shape) (path : Path),
    (draftAllLenient path shapes).2 = (leavesOfAll shapes).filterMap (Leaf.failure? path)
  | [], _ => rfl
  | shape :: shapes, path => by
    rw [leavesOfAll, List.filterMap_append, ← failures_draftLenient shape path,
      ← failures_draftAllLenient shapes path]
    simp only [draftAllLenient]

/-- The failures of some fields are those of their leaves, in order. -/
theorem failures_draftFieldsLenient : ∀ (fields : List (String × Shape)) (path : Path),
    (draftFieldsLenient path fields).2 = (leavesOfFields fields).filterMap (Leaf.failure? path)
  | [], _ => rfl
  | (name, shape) :: fields, path => by
    rw [leavesOfFields, List.filterMap_append, filterMap_failure?_under,
      ← failures_draftLenient shape (path ++ [Hop.field name]),
      ← failures_draftFieldsLenient fields path]
    simp only [draftFieldsLenient]

end

/-- A shape converts exactly if none of its leaves has a defect. -/
theorem exists_draft_iff {shape : Shape} :
    (∃ doc, shape.draft = .ok doc) ↔ ∀ leaf ∈ shape.leaves, leaf.shape.defect? = none := by
  have hfailures : (shape.draftLenient []).failures = [] ↔
      ∀ leaf ∈ shape.leaves, leaf.shape.defect? = none := by
    rw [failures_draftLenient, List.filterMap_eq_nil_iff]
    simp only [Leaf.failure?, Option.map_eq_none_iff]
  simp only [draft_eq_unlessFailed shape [], unlessFailed_eq_ok_iff, ← hfailures]
  exact ⟨fun ⟨_, hnone, _⟩ ↦ hnone, fun hnone ↦ ⟨_, hnone, rfl⟩⟩

/-- A shape that converts has one document, whichever way it is converted. -/
theorem draftLenient_of_draft {shape : Shape} {doc : Json} (h : shape.draft = .ok doc)
    (path : Path) : shape.draftLenient path = ⟨doc, []⟩ := by
  rw [draft_eq_unlessFailed shape path, unlessFailed_eq_ok_iff] at h
  obtain ⟨hfailures, hdoc⟩ := h
  rw [← hfailures, ← hdoc]

/-- The first failure is that of the first leaf with a defect. -/
theorem exists_first_of_draft {shape : Shape} {error : ConversionError}
    (h : shape.draft = .error error) :
    ∃ before leaf after, shape.leaves = before ++ leaf :: after ∧
      (∀ earlier ∈ before, earlier.shape.defect? = none) ∧ leaf.shape.defect? = some error := by
  rw [draft_eq_unlessFailed shape [], unlessFailed_eq_error_iff, failures_draftLenient] at h
  obtain ⟨failure, hhead, rfl⟩ := Option.map_eq_some_iff.1 h
  -- the head of the failures comes from the first leaf that `filterMap` keeps
  rw [List.head?_filterMap, List.findSome?_eq_some_iff] at hhead
  obtain ⟨before, leaf, after, hsplit, hleaf, hbefore⟩ := hhead
  obtain ⟨error, hdefect, rfl⟩ := Option.map_eq_some_iff.1 hleaf
  refine ⟨before, leaf, after, hsplit, fun earlier hearlier ↦ ?_, hdefect⟩
  exact Option.map_eq_none_iff.1 (hbefore earlier hearlier)

mutual

/-- A leaf has no leaf but itself. -/
theorem leaves_of_mem_leaves {leaf : Leaf} : ∀ (shape : Shape), leaf ∈ shape.leaves →
    leaf.shape.leaves = [⟨[], leaf.shape⟩]
  | .object fields, h => leaves_of_mem_leavesOfFields fields (by rwa [leaves] at h)
  | .array element _ _, h => by
    rw [leaves] at h
    -- further in it is another leaf, but of the same shape
    obtain ⟨inner, hinner, rfl⟩ := List.mem_map.1 h
    exact @leaves_of_mem_leaves inner element hinner
  | .tuple items, h => by
    rw [leaves] at h
    obtain ⟨inner, hinner, rfl⟩ := List.mem_map.1 h
    exact @leaves_of_mem_leavesOfAll inner items hinner
  | .variants _ options, h | .union options, h =>
    leaves_of_mem_leavesOfAll options (by rwa [leaves] at h)
  | .optional inner, h | .nullable inner, h | .defaulted inner _, h | .effects inner, h
  | .record inner, h => leaves_of_mem_leaves inner (by rwa [leaves] at h)
  | .literal _, h | .string .., h | .number .., h | .boolean, h | .date, h | .null, h | .any, h
  | .enumeration _, h | .reference _, h | .other _, h | .unrecognized, h => by
    rw [leaves] at h
    obtain rfl := List.mem_singleton.1 h
    rfl
    all_goals nofun

/-- What is listed as a leaf is its own only leaf. -/
theorem leaves_of_mem_leavesOfAll {leaf : Leaf} : ∀ (shapes : List Shape),
    leaf ∈ leavesOfAll shapes → leaf.shape.leaves = [⟨[], leaf.shape⟩]
  | [], h => by simp [leavesOfAll] at h
  | shape :: shapes, h => by
    rw [leavesOfAll] at h
    rcases List.mem_append.1 h with h | h
    · exact leaves_of_mem_leaves shape h
    · exact leaves_of_mem_leavesOfAll shapes h

theorem leaves_of_mem_leavesOfFields {leaf : Leaf} : ∀ (fields : List (String × Shape)),
    leaf ∈ leavesOfFields fields → leaf.shape.leaves = [⟨[], leaf.shape⟩]
  | [], h => by simp [leavesOfFields] at h
  | (name, shape) :: fields, h => by
    rw [leavesOfFields] at h
    rcases List.mem_append.1 h with h | h
    · obtain ⟨inner, hinner, rfl⟩ := List.mem_map.1 h
      exact @leaves_of_mem_leaves inner shape hinner
    · exact leaves_of_mem_leavesOfFields fields h

end

/-- A leaf alone fails with its defect. -/
theorem draft_eq_error_iff_of_leaf {leaf : Shape} (hleaf : leaf.leaves = [⟨[], leaf⟩])
    {error : ConversionError} : leaf.draft = .error error ↔ leaf.defect? = some error := by
  rw [draft_eq_unlessFailed leaf [], unlessFailed_eq_error_iff, failures_draftLenient, hleaf,
    List.filterMap_cons, Leaf.failure?]
  cases leaf.defect? <;> simp

/-! ### Walks of shapes that convert -/

theorem mem_leavesOfAll {shapes : List Shape} {shape : Shape} {leaf : Leaf}
    (hshape : shape ∈ shapes) (hleaf : leaf ∈ shape.leaves) : leaf ∈ leavesOfAll shapes := by
  induction shapes with
  | nil => simp at hshape
  | cons first shapes ih =>
    rw [leavesOfAll]
    rcases List.mem_cons.1 hshape with rfl | hshape
    · exact List.mem_append_left _ hleaf
    · exact List.mem_append_right _ (ih hshape)

/-- The leaves of a field are leaves of the object, one step further down. -/
theorem mem_leavesOfFields {fields : List (String × Shape)} {name : String} {shape : Shape}
    {leaf : Leaf} (hfield : (name, shape) ∈ fields) (hleaf : leaf ∈ shape.leaves) :
    leaf.under (.field name) ∈ leavesOfFields fields := by
  induction fields with
  | nil => simp at hfield
  | cons first fields ih =>
    rw [leavesOfFields]
    rcases List.mem_cons.1 hfield with rfl | hfield
    · exact List.mem_append_left _ (List.mem_map_of_mem hleaf)
    · exact List.mem_append_right _ (ih hfield)

/-- The leaves of a shape inside another one are leaves of the other one, at the end of the route. -/
theorem LeadsTo.mem_leaves {shape target : Shape} {path : Path} (h : shape.LeadsTo path target)
    {leaf : Leaf} (hleaf : leaf ∈ target.leaves) :
    (⟨path ++ leaf.path, leaf.shape⟩ : Leaf) ∈ shape.leaves := by
  induction h with
  | here => exact hleaf
  | field hinner h ih =>
    rw [leaves]
    exact mem_leavesOfFields hinner (ih hleaf)
  | items h ih =>
    rw [leaves]
    exact List.mem_map_of_mem (ih hleaf)
  | @wrapped shape inner target path hinner h ih =>
    cases shape with
    | optional _ | nullable _ | defaulted _ _ | effects _ =>
      obtain rfl := Option.some.inj hinner
      rw [leaves]
      exact ih hleaf
    | _ => simp [wrapped?] at hinner

/-- The leaves of an option are leaves of the shape that its union is found in, below the union. -/
theorem mem_leaves_of_mem_options {shape option : Shape} {site : UnionSite} {path : Path}
    (hsite : site ∈ shape.unionSites path) (hoption : option ∈ site.options) :
    ∃ rest, site.path = path ++ rest ∧
      ∀ leaf ∈ option.leaves, (⟨rest ++ leaf.path, leaf.shape⟩ : Leaf) ∈ shape.leaves := by
  obtain ⟨rest, hpath, hroute⟩ := leadsTo_of_mem_unionSites shape path hsite
  refine ⟨rest, hpath, fun leaf hleaf ↦ hroute.mem_leaves ?_⟩
  rw [leaves]
  exact mem_leavesOfAll hoption hleaf

/-- The options of the unions inside a shape that converts convert on their own. -/
theorem exists_draft_of_mem_options {shape option : Shape} {site : UnionSite} {path : Path}
    (h : ∃ doc, shape.draft = .ok doc) (hsite : site ∈ shape.unionSites path)
    (hoption : option ∈ site.options) : ∃ doc, option.draft = .ok doc := by
  obtain ⟨rest, -, hleaves⟩ := mem_leaves_of_mem_options hsite hoption
  exact exists_draft_iff.2 fun leaf hleaf ↦
    exists_draft_iff.1 h ⟨rest ++ leaf.path, leaf.shape⟩ (hleaves leaf hleaf)

end Shape

/-- The options of a union depend on the converter only through the documents of the options. -/
theorem extractOptions_congr {converter other : Converter} {path : Path} {discriminator : String}
    {options : List Shape}
    (h : ∀ option ∈ options, converter.lenient path option = other.lenient path option)
    (index : Nat) (warnings : List Warning) :
    extractOptions converter path discriminator index warnings options =
      extractOptions other path discriminator index warnings options := by
  induction options generalizing index warnings with
  | nil => rfl
  | cons option options ih =>
    have hfirst := h option List.mem_cons_self
    have hrest := ih fun later hlater ↦ h later (List.mem_cons_of_mem _ hlater)
    simp only [extractOptions, hfirst, hrest]

/-- The unions of a shape depend on the converter only through the documents of their options. -/
theorem extractUnions_congr {converter other : Converter} {sites : List UnionSite}
    (h : ∀ site ∈ sites, ∀ option ∈ site.options,
      converter.lenient site.path option = other.lenient site.path option)
    (warnings : List Warning) :
    extractUnions converter warnings sites = extractUnions other warnings sites := by
  induction sites generalizing warnings with
  | nil => rfl
  | cons site sites ih =>
    have hfirst := @extractOptions_congr _ _ _ site.discriminator _ (h site List.mem_cons_self)
    have hrest := ih fun later hlater ↦ h later (List.mem_cons_of_mem _ hlater)
    simp only [extractUnions, hfirst, hrest]

namespace Shape

/-- A walk uses a converter at the root and at the options of the unions, and nowhere else. -/
theorem walk_congr {converter other : Converter} {shape : Shape}
    (hroot : converter.lenient [] shape = other.lenient [] shape)
    (hoptions : ∀ site ∈ shape.unionSites [], ∀ option ∈ site.options,
      converter.lenient site.path option = other.lenient site.path option) :
    shape.walk converter = shape.walk other := by
  simp only [walk, hroot, extractUnions_congr hoptions]

/-- A shape that converts is walked alike by both lenient conversions. -/
theorem walk_draft_eq_walk_whole {shape : Shape} (h : ∃ doc, shape.draft = .ok doc) :
    shape.walk .draft = shape.walk (.whole draft) := by
  have hlenient : ∀ {inner : Shape} (path : Path), (∃ doc, inner.draft = .ok doc) →
      Converter.draft.lenient path inner = (Converter.whole draft).lenient path inner := by
    rintro inner path ⟨doc, hdoc⟩
    show inner.draftLenient path = .ofExcept path inner.draft
    rw [draftLenient_of_draft hdoc, hdoc]
    rfl
  exact walk_congr (hlenient [] h) fun site hsite option hoption ↦
    hlenient site.path (exists_draft_of_mem_options h hsite hoption)

/-- **Strict and lenient conversion agree.** For every shape and every path at which it stands:

* the strict conversion succeeds exactly if no leaf has a defect, and the lenient one then gives the
  same document without failures;
* if it fails, it fails with the defect of the first leaf that has one;
* the lenient conversion records one failure for each leaf with a defect, in the order of the
  leaves: the leaf's defect, at the path followed by the leaf's hops;
* the defect of a leaf is the error with which the leaf alone fails;
* if the strict conversion succeeds, a walk finds the same with either lenient conversion. -/
theorem strict_lenient_agree (shape : Shape) (path : Path) :
    ((∃ doc, shape.draft = .ok doc) ↔ ∀ leaf ∈ shape.leaves, leaf.shape.defect? = none) ∧
    (∀ doc, shape.draft = .ok doc → shape.draftLenient path = ⟨doc, []⟩) ∧
    (∀ error, shape.draft = .error error →
      ∃ before leaf after, shape.leaves = before ++ leaf :: after ∧
        (∀ earlier ∈ before, earlier.shape.defect? = none) ∧ leaf.shape.defect? = some error) ∧
    (shape.draftLenient path).failures = shape.leaves.filterMap (fun leaf ↦
      leaf.shape.defect?.map fun error ↦ ⟨path ++ leaf.path, error⟩) ∧
    (∀ leaf ∈ shape.leaves, ∀ error,
      leaf.shape.defect? = some error ↔ leaf.shape.draft = .error error) ∧
    ((∃ doc, shape.draft = .ok doc) → shape.walk .draft = shape.walk (.whole draft)) :=
  ⟨exists_draft_iff, fun _ hdoc ↦ draftLenient_of_draft hdoc path,
    fun _ herror ↦ exists_first_of_draft herror, failures_draftLenient shape path,
    fun _ hleaf _ ↦ (draft_eq_error_iff_of_leaf (leaves_of_mem_leaves shape hleaf)).symm,
    walk_draft_eq_walk_whole⟩

/-- An article with ratings, and with blocks of two kinds. -/
def article (rating : Shape) (sizes : List String) : Shape :=
  .object [
    ("ratings", .optional (.record rating)),
    ("blocks", .array (.variants "kind" [
      .object [("kind", .literal (.str "text")), ("body", .string none none none none)],
      .object [("kind", .literal (.str "image")),
        ("sizes", .tuple [.boolean, .enumeration sizes])]]) none none)]

/-- A rating from NaN to infinity is one failure and an image without sizes is another, and the
strict conversion stops at the first. With a rating and a size in their places all of it converts. -/
theorem strict_lenient_agree_article :
    (article (.number false (some .nan) (some (.infinite false))) []).draft =
      .error (.invalid "number" "bound NaN is not a finite number") ∧
    (∃ before leaf after,
      (article (.number false (some .nan) (some (.infinite false))) []).leaves =
        before ++ leaf :: after ∧
      (∀ earlier ∈ before, earlier.shape.defect? = none) ∧
      leaf.shape.defect? = some (.invalid "number" "bound NaN is not a finite number")) ∧
    ((article (.number false (some .nan) (some (.infinite false))) []).draftLenient
      [.items]).failures =
        [⟨[.items, .field "ratings"], .invalid "number" "bound NaN is not a finite number"⟩,
          ⟨[.items, .field "blocks", .items, .field "sizes", .items],
            .invalid "enum" "no values"⟩] ∧
    (article .boolean ["small"]).walk .draft = (article .boolean ["small"]).walk (.whole draft) := by
  have herror : (article (.number false (some .nan) (some (.infinite false))) []).draft =
      .error (.invalid "number" "bound NaN is not a finite number") := by rfl
  have hdoc : ∃ doc, (article .boolean ["small"]).draft = .ok doc := ⟨_, rfl⟩
  exact ⟨herror, (strict_lenient_agree _ []).2.2.1 _ herror,
    (strict_lenient_agree _ [.items]).2.2.2.1, (strict_lenient_agree _ []).2.2.2.2.2 hdoc⟩

end Shape

end ContentSchema
