import Mathlib.Data.List.Nodup
import ContentSchema.Proofs.Draft.Wrappers
/-!
# Well-formed documents

`wellFormed_draft_iff` says which documents of shapes are well-formed schemas of draft 7, and that
these are all of them but for two kinds of shapes: a union without options, which makes an empty
`anyOf`, and a nullable around what is null only, which names null twice.

`Draft.Sound` holds the rules for the keywords of one document and `Draft.subschemas` the schemas
directly inside it, as `Shape.parts` has the shapes directly inside a shape. Each kind of document has
one lemma that takes its being well-formed to that of the documents inside it. Wrappers add no part;
what nullable does to the type follows from how documents begin.
-/

namespace ContentSchema

namespace Draft

/-! ### Well-formed schemas -/

/-- A type is named, or several types are, none of them twice. -/
def NamesTypes : Json → Prop
  | .str name => name ∈ typeNames
  | .arr names => names ≠ [] ∧ names.Nodup ∧ ∀ name ∈ names, ∃ type ∈ typeNames, name = .str type
  | _ => False

/-- The rules for the keywords of a document. -/
structure Sound (keywords : List (String × Json)) : Prop where
  type : ∀ types, Keyed.find? keywords "type" = some types → NamesTypes types
  anyOf : ∀ options, Keyed.find? keywords "anyOf" = some options →
    ∃ schemas, options = .arr schemas ∧ schemas ≠ []
  enum : ∀ values, Keyed.find? keywords "enum" = some values →
    ∃ constants, values = .arr constants ∧ constants ≠ []
  required : ∀ required, Keyed.find? keywords "required" = some required →
    ∃ names properties, required = .arr names ∧ names.Nodup ∧
      Keyed.find? keywords "properties" = some (.obj properties) ∧
      ∀ name ∈ names, ∃ key ∈ Keyed.keys properties, name = .str key

/-- The schemas directly inside a document. -/
def subschemas (keywords : List (String × Json)) : List Json :=
  (match Keyed.find? keywords "anyOf" with
    | some (.arr schemas) => schemas
    | _ => []) ++
  (match Keyed.find? keywords "items" with
    | some (.arr schemas) => schemas
    | schema => schema.toList) ++
  (match Keyed.find? keywords "properties" with
    | some (.obj properties) => Keyed.values properties
    | _ => []) ++
  (Keyed.find? keywords "additionalProperties").toList

/-- The rules hold for a schema and for every schema inside it. -/
inductive WellFormed : Json → Prop where
  | bool (admits : Bool) : WellFormed (.bool admits)
  | obj {keywords : List (String × Json)} (here : Sound keywords)
      (inside : ∀ schema ∈ subschemas keywords, WellFormed schema) : WellFormed (.obj keywords)

/-- A document is well-formed if its own keywords are sound and every schema inside it is
well-formed. -/
theorem wellFormed_iff {keywords : List (String × Json)} :
    WellFormed (.obj keywords) ↔
      Sound keywords ∧ ∀ schema ∈ subschemas keywords, WellFormed schema := by
  constructor
  · rintro ⟨⟩
    exact ⟨‹_›, ‹_›⟩
  · rintro ⟨here, inside⟩
    exact .obj here inside

variable {keywords : List (String × Json)} {types value : Json}

/-! ### Keywords that are written -/

/-- Soundness depends on five keywords only. -/
theorem Sound.congr (h : Sound keywords) {others : List (String × Json)}
    (hsame : ∀ name ∈ ["type", "anyOf", "enum", "required", "properties"],
      Keyed.find? others name = Keyed.find? keywords name) : Sound others where
  type := by
    rw [hsame "type" (by decide)]
    exact h.type
  anyOf := by
    rw [hsame "anyOf" (by decide)]
    exact h.anyOf
  enum := by
    rw [hsame "enum" (by decide)]
    exact h.enum
  required := by
    rw [hsame "required" (by decide), hsame "properties" (by decide)]
    exact h.required

/-- A keyword that holds no schemas adds none. -/
theorem subschemas_insert {key : String}
    (hkey : key ∉ ["anyOf", "items", "properties", "additionalProperties"]) :
    subschemas (Keyed.insert keywords key value) = subschemas keywords := by
  simp only [List.mem_cons, List.not_mem_nil, or_false, not_or] at hkey
  obtain ⟨hanyOf, hitems, hproperties, hadditional⟩ := hkey
  simp only [subschemas, Keyed.find?_insert, if_neg hanyOf, if_neg hitems, if_neg hproperties,
    if_neg hadditional]

/-- A default makes no difference to whether a document is well-formed. -/
theorem wellFormed_withDefault :
    WellFormed (withDefault (.obj keywords) value) ↔ WellFormed (.obj keywords) := by
  have hsame : ∀ name ∈ ["type", "anyOf", "enum", "required", "properties"],
      Keyed.find? (Keyed.insert keywords "default" value) name = Keyed.find? keywords name := by
    intro name hname
    rw [Keyed.find?_insert, if_neg]
    rintro rfl
    exact absurd hname (by decide)
  rw [withDefault, wellFormed_iff, wellFormed_iff, subschemas_insert (by decide)]
  exact and_congr_left fun _ ↦
    ⟨fun h ↦ h.congr fun name hname ↦ (hsame name hname).symm, fun h ↦ h.congr hsame⟩

/-- Another type has to follow the rules, and all else stays as it is. -/
theorem wellFormed_insert_type (htype : Keyed.find? keywords "type" = some types)
    (htypes : NamesTypes types) (others : Json) :
    WellFormed (.obj (Keyed.insert keywords "type" others)) ↔
      NamesTypes others ∧ WellFormed (.obj keywords) := by
  have hsound : Sound (Keyed.insert keywords "type" others) ↔ NamesTypes others ∧ Sound keywords := by
    constructor
    · rintro ⟨hothers, hanyOf, henum, hrequired⟩
      simp only [Keyed.find?_insert, String.reduceEq, if_false] at hanyOf henum hrequired
      refine ⟨hothers others (by rw [Keyed.find?_insert, if_pos rfl]), ?_, hanyOf, henum, hrequired⟩
      exact fun _ heq ↦ Option.some.inj (htype.symm.trans heq) ▸ htypes
    · rintro ⟨hothers, -, hanyOf, henum, hrequired⟩
      constructor
      · intro _ heq
        rw [Keyed.find?_insert, if_pos rfl] at heq
        exact Option.some.inj heq ▸ hothers
      all_goals simpa only [Keyed.find?_insert, String.reduceEq, if_false]
  rw [wellFormed_iff, wellFormed_iff, subschemas_insert (by decide), hsound, and_assoc]

/-- A type besides null names two types, unless it is null itself. -/
theorem namesTypes_pair_iff {type : String} (hname : type ∈ typeNames) :
    NamesTypes (.arr [.str type, .str "null"]) ↔ type ≠ "null" := by
  have hnull : "null" ∈ typeNames := by decide
  simp [NamesTypes, hname, hnull]

/-! ### Kinds -/

/-- A document with one type and none of the other keywords that have rules. -/
theorem sound_of_type {type : String} (htype : Keyed.find? keywords "type" = some (.str type))
    (hname : type ∈ typeNames) (hanyOf : Keyed.find? keywords "anyOf" = none)
    (henum : Keyed.find? keywords "enum" = none)
    (hrequired : Keyed.find? keywords "required" = none) : Sound keywords where
  type _ heq := Option.some.inj (htype.symm.trans heq) ▸ hname
  anyOf _ heq := nomatch hanyOf.symm.trans heq
  enum _ heq := nomatch henum.symm.trans heq
  required _ heq := nomatch hrequired.symm.trans heq

theorem wellFormed_typed {type : String} (hname : type ∈ typeNames) : WellFormed (typed type) :=
  .obj (sound_of_type rfl hname rfl rfl rfl) (List.forall_mem_nil _)

theorem wellFormed_any : WellFormed (.obj []) := by
  refine .obj ⟨?_, ?_, ?_, ?_⟩ (List.forall_mem_nil _) <;> simp

theorem wellFormed_reference (collection : String) : WellFormed (reference collection) :=
  .obj (sound_of_type rfl (by decide) rfl rfl rfl) (List.forall_mem_nil _)

theorem wellFormed_string (format : Option String) (minLength maxLength : Option Nat)
    (pattern : Option String) : WellFormed (string format minLength maxLength pattern) := by
  refine .obj (sound_of_type rfl (by decide) ?_ ?_ ?_) ?_ <;> simp [subschemas, Keyed.find?_cons]

theorem wellFormed_number {integer : Bool} {minimum maximum : Option Real64} {doc : Json}
    (h : number integer minimum maximum = .ok doc) : WellFormed doc := by
  obtain ⟨bounds, rfl, hother⟩ := exists_bounds_of_number h
  refine .obj (sound_of_type rfl (by cases integer <;> decide) ?_ ?_ ?_) ?_ <;>
    simp [subschemas, Keyed.find?_cons, hother]

/-- The document of a literal is well-formed: there is a type for its value. -/
theorem wellFormed_literal {constant doc : Json} (h : literal constant = .ok doc) :
    WellFormed doc := by
  cases constant with
  | null =>
    obtain rfl := Except.ok.inj h
    exact wellFormed_typed (by decide)
  | bool _ | num _ | str _ =>
    obtain rfl := Except.ok.inj h
    exact .obj (sound_of_type rfl (by decide) rfl rfl rfl) (List.forall_mem_nil _)
  | _ => cases h

/-- An enumeration has a document only if it has a value. -/
theorem wellFormed_enumeration {values : List String} {doc : Json}
    (h : enumeration values = .ok doc) : WellFormed doc := by
  rw [enumeration] at h
  split at h
  · cases h
  next hvalues =>
    obtain rfl := Except.ok.inj h
    refine .obj ⟨fun types htypes ↦ ?_, ?_, fun constants hconstants ↦ ?_, ?_⟩ (List.forall_mem_nil _)
    · obtain rfl : .str "string" = types := Option.some.inj htypes
      show "string" ∈ typeNames
      decide
    · simp [Keyed.find?_cons]
    · obtain rfl : .arr (values.map .str) = constants := Option.some.inj hconstants
      exact ⟨_, rfl, by simpa using hvalues⟩
    · simp [Keyed.find?_cons]

/-- An object is well-formed if its properties are, whichever of them it requires. -/
theorem wellFormed_object {properties : List (String × Json)} {required : List String}
    (hnodup : required.Nodup) (hrequired : required ⊆ Keyed.keys properties) :
    WellFormed (object properties required) ↔
      ∀ property ∈ properties, WellFormed property.2 := by
  rw [object, wellFormed_iff, and_iff_right]
  · have hinside : subschemas ([("type", .str "object"), ("properties", .obj properties)] ++
        (if required.isEmpty then [] else [("required", .arr (required.map .str))]) ++
        [("additionalProperties", .bool false)]) = Keyed.values properties ++ [.bool false] := by
      cases required <;> simp [subschemas, Keyed.find?_cons]
    rw [hinside, List.forall_mem_append, Keyed.values, List.forall_mem_map]
    exact and_iff_left (List.forall_mem_singleton.2 (.bool false))
  · refine ⟨?_, ?_, ?_, fun names hnames ↦ ?_⟩
    · rintro _ ⟨⟩
      show "object" ∈ typeNames
      decide
    · cases required <;> simp [Keyed.find?_cons]
    · cases required <;> simp [Keyed.find?_cons]
    · obtain rfl : names = .arr (required.map .str) := by
        cases required <;> simp [Keyed.find?_cons] at hnames ⊢
        exact hnames.symm
      refine ⟨_, properties, rfl, List.Nodup.map (fun _ _ ↦ Json.str.inj) hnodup, rfl, ?_⟩
      simpa using fun name hname ↦ hrequired hname

theorem wellFormed_array {items : List (String × Json)} {minItems maxItems : Option Nat} :
    WellFormed (array (.obj items) minItems maxItems) ↔ WellFormed (.obj items) := by
  rw [array, wellFormed_iff, and_iff_right]
  · simp [subschemas, Keyed.find?_cons]
  · apply sound_of_type rfl (by decide) <;> simp [Keyed.find?_cons]

/-- A tuple is well-formed if its items are; that there are none is no harm. -/
theorem wellFormed_tuple {items : List Json} :
    WellFormed (tuple items) ↔ ∀ item ∈ items, WellFormed item := by
  rw [tuple, wellFormed_iff, and_iff_right (sound_of_type rfl (by decide) rfl rfl rfl)]
  simp [subschemas, Keyed.find?_cons]

theorem wellFormed_record {values : Json} : WellFormed (record values) ↔ WellFormed values := by
  rw [record, wellFormed_iff, and_iff_right (sound_of_type rfl (by decide) rfl rfl rfl)]
  simp [subschemas, Keyed.find?_cons]

/-- A union is well-formed if its options are, and if there are any. -/
theorem wellFormed_anyOf {options : List Json} :
    WellFormed (anyOf options) ↔ options ≠ [] ∧ ∀ option ∈ options, WellFormed option := by
  have hsound : Sound [("anyOf", .arr options)] ↔ options ≠ [] := by
    refine ⟨fun h ↦ ?_, fun hoptions ↦ ⟨?_, fun schemas hschemas ↦ ?_, ?_, ?_⟩⟩
    · obtain ⟨schemas, heq, hschemas⟩ := h.anyOf _ rfl
      exact Json.arr.inj heq ▸ hschemas
    · simp [Keyed.find?_cons]
    · exact ⟨options, (Option.some.inj hschemas).symm, hoptions⟩
    · simp [Keyed.find?_cons]
    · simp [Keyed.find?_cons]
  rw [anyOf, wellFormed_iff, hsound]
  simp [subschemas, Keyed.find?_cons]

end Draft

namespace Shape

/-! ### Documents of parts -/

theorem forall_mem_iff_of_forall₂ {α β : Type} {p : α → Prop} {q : β → Prop} {xs : List α}
    {ys : List β} (h : List.Forall₂ (fun x y ↦ q y ↔ p x) xs ys) :
    (∀ y ∈ ys, q y) ↔ ∀ x ∈ xs, p x := by
  induction h with
  | nil => simp
  | cons hfirst h ih => rw [List.forall_mem_cons, List.forall_mem_cons, hfirst, ih]

variable {p : Shape → Prop} {q : Json → Prop}

/-- What a document has if its shape has something, all documents have if all shapes do. -/
theorem forall_mem_iff_of_draftAll {shapes : List Shape} {docs : List Json}
    (hdocs : draftAll shapes = .ok docs)
    (h : ∀ shape ∈ shapes, ∀ {doc}, shape.draft = .ok doc → (q doc ↔ p shape)) :
    (∀ doc ∈ docs, q doc) ↔ ∀ shape ∈ shapes, p shape := by
  have hboth := (List.forall₂_and_left _ _).2 ⟨h, forall₂_of_draftAll hdocs⟩
  exact forall_mem_iff_of_forall₂ (hboth.imp fun shape doc ⟨hshape, hdoc⟩ ↦ hshape hdoc)

theorem forall_mem_iff_of_draftFields {fields : List (String × Shape)} {docs : List (String × Json)}
    (hdocs : draftFields fields = .ok docs)
    (h : ∀ field ∈ fields, ∀ {doc}, field.2.draft = .ok doc → (q doc ↔ p field.2)) :
    (∀ entry ∈ docs, q entry.2) ↔ ∀ field ∈ fields, p field.2 := by
  have hboth := (List.forall₂_and_left _ _).2 ⟨h, forall₂_of_draftFields hdocs⟩
  exact forall_mem_iff_of_forall₂ (hboth.imp fun field entry ⟨hfield, _, hdoc⟩ ↦ hfield hdoc)

/-- The properties of an object have the names of its fields. -/
theorem keys_of_draftFields {fields : List (String × Shape)} {docs : List (String × Json)}
    (h : draftFields fields = .ok docs) : Keyed.keys docs = Keyed.keys fields := by
  have hnames := (forall₂_of_draftFields h).imp fun _ _ ⟨hname, _⟩ ↦ hname
  clear h
  induction hnames with
  | nil => rfl
  | cons hfirst hrest ih => rw [Keyed.keys_cons, Keyed.keys_cons, hfirst, ih]

/-- No name is required twice where no field stands twice. -/
theorem nodup_requiredNames {fields : List (String × Shape)} (hkeys : Keyed.DistinctKeys fields) :
    (requiredNames fields).Nodup :=
  (List.filter_sublist.map Prod.fst).nodup hkeys

/-- Only names of fields are required. -/
theorem requiredNames_subset (fields : List (String × Shape)) :
    requiredNames fields ⊆ Keyed.keys fields :=
  (List.filter_sublist.map Prod.fst).subset

/-! ### Shapes with well-formed documents -/

/-- The shape is no union without options, and no nullable around what is null only. -/
def IsProper : Shape → Prop
  | .variants _ options | .union options => options ≠ []
  | .nullable inner => ¬inner.IsNull
  | _ => True

/-- A nullable is well-formed if what it is around is, and not of null only. -/
theorem wellFormed_nullable {inner : Shape} {doc : Json} (hdoc : inner.draft = .ok doc) :
    Draft.WellFormed (Draft.nullable doc) ↔ ¬inner.IsNull ∧ Draft.WellFormed doc := by
  obtain ⟨keywords, rfl, hbegins⟩ := exists_begins_of_draft inner hdoc
  cases hbegins with
  | untyped htype hconstant hnull =>
    have htyped : Draft.WellFormed (Draft.typed "null") := Draft.wellFormed_typed (by decide)
    rw [Draft.nullable_untyped htype, Draft.wellFormed_anyOf]
    simp [hnull, htyped]
  | typed htype hname hnull hanyOf hconstant =>
    rw [Draft.nullable_typed htype, Draft.wellFormed_insert_type htype hname,
      Draft.namesTypes_pair_iff hname, ← hnull]
  | listed htype hmem hnull hanyOf hconstant =>
    rw [Draft.nullable_listed htype hmem]
    exact (and_iff_right hnull).symm

/-- Around a single part a shape is proper throughout if it is itself and the part is. -/
theorem everywhere_iff_of_part {shape inner : Shape} (hparts : shape.parts = [inner]) :
    shape.Everywhere IsProper ↔ shape.IsProper ∧ inner.Everywhere IsProper := by
  rw [everywhere_iff, hparts, List.forall_mem_singleton]

theorem everywhere_part_iff {shape inner : Shape} (here : shape.IsProper)
    (hparts : shape.parts = [inner]) : inner.Everywhere IsProper ↔ shape.Everywhere IsProper :=
  ((everywhere_iff_of_part hparts).trans (and_iff_right here)).symm

theorem everywhere_of_leaf {shape : Shape} (here : shape.IsProper) (hparts : shape.parts = []) :
    shape.Everywhere IsProper :=
  .intro here (hparts ▸ List.forall_mem_nil _)

/-- **Well-formed documents.** Every document of a shape is a well-formed schema all through, unless
the shape has inside it a union without options or a nullable around what is null only. -/
theorem wellFormed_draft_iff {shape : Shape} (hdistinct : shape.DistinctFields) {doc : Json}
    (hdoc : shape.draft = .ok doc) : Draft.WellFormed doc ↔ shape.Everywhere IsProper := by
  induction hdistinct generalizing doc with
  | @intro shape hfields hparts ih =>
    cases shape with
    | object fields =>
      rw [draft] at hdoc
      obtain ⟨docs, hdocs, rfl⟩ := exists_of_map_eq_ok hdoc
      -- every field has a property, so what is required is declared
      have hrequired : requiredNames fields ⊆ Keyed.keys docs :=
        keys_of_draftFields hdocs ▸ requiredNames_subset fields
      have hinside := forall_mem_iff_of_draftFields hdocs
        fun field hfield ↦ ih field.2 (List.mem_map_of_mem hfield)
      rw [Draft.wellFormed_object (nodup_requiredNames (hfields fields rfl)) hrequired, hinside,
        everywhere_iff, parts, List.forall_mem_map]
      exact (and_iff_right trivial).symm
    | array element minItems maxItems =>
      rw [draft] at hdoc
      obtain ⟨inner, hinner, rfl⟩ := exists_of_map_eq_ok hdoc
      obtain ⟨keywords, rfl⟩ := exists_keywords_of_draft element hinner
      rw [Draft.wellFormed_array, ih element List.mem_cons_self hinner]
      exact everywhere_part_iff trivial rfl
    | variants _ options | union options =>
      rw [draft] at hdoc
      obtain ⟨docs, hdocs, rfl⟩ := exists_of_map_eq_ok hdoc
      have hlength := (forall₂_of_draftAll hdocs).length_eq
      rw [Draft.wellFormed_anyOf, forall_mem_iff_of_draftAll hdocs ih, everywhere_iff,
        ← List.length_pos_iff, ← hlength, List.length_pos_iff]
      rfl
    | tuple items =>
      rw [draft] at hdoc
      obtain ⟨docs, hdocs, rfl⟩ := exists_of_map_eq_ok hdoc
      rw [Draft.wellFormed_tuple, forall_mem_iff_of_draftAll hdocs ih, everywhere_iff]
      exact (and_iff_right trivial).symm
    | record element =>
      rw [draft] at hdoc
      obtain ⟨inner, hinner, rfl⟩ := exists_of_map_eq_ok hdoc
      rw [Draft.wellFormed_record, ih element List.mem_cons_self hinner]
      exact everywhere_part_iff trivial rfl
    | optional inner | effects inner =>
      rw [draft] at hdoc
      rw [ih inner List.mem_cons_self hdoc]
      exact everywhere_part_iff trivial rfl
    | defaulted inner default =>
      rw [draft] at hdoc
      obtain ⟨innerDoc, hinner, rfl⟩ := exists_of_map_eq_ok hdoc
      obtain ⟨keywords, rfl⟩ := exists_keywords_of_draft inner hinner
      rw [Draft.wellFormed_withDefault, ih inner List.mem_cons_self hinner]
      exact everywhere_part_iff trivial rfl
    | nullable inner =>
      rw [draft] at hdoc
      obtain ⟨innerDoc, hinner, rfl⟩ := exists_of_map_eq_ok hdoc
      rw [wellFormed_nullable hinner, ih inner List.mem_cons_self hinner]
      exact Iff.symm (everywhere_iff_of_part rfl)
    | literal constant =>
      exact iff_of_true (Draft.wellFormed_literal hdoc) (everywhere_of_leaf trivial rfl)
    | number integer minimum maximum =>
      exact iff_of_true (Draft.wellFormed_number hdoc) (everywhere_of_leaf trivial rfl)
    | enumeration values =>
      exact iff_of_true (Draft.wellFormed_enumeration hdoc) (everywhere_of_leaf trivial rfl)
    | string format minLength maxLength pattern =>
      obtain rfl := Except.ok.inj hdoc
      exact iff_of_true (Draft.wellFormed_string _ _ _ _) (everywhere_of_leaf trivial rfl)
    | reference collection =>
      obtain rfl := Except.ok.inj hdoc
      exact iff_of_true (Draft.wellFormed_reference _) (everywhere_of_leaf trivial rfl)
    | date =>
      obtain rfl := Except.ok.inj hdoc
      have hstring := Draft.wellFormed_string (some "date-time") none none none
      exact iff_of_true hstring (everywhere_of_leaf trivial rfl)
    | boolean | null =>
      obtain rfl := Except.ok.inj hdoc
      exact iff_of_true (Draft.wellFormed_typed (by decide)) (everywhere_of_leaf trivial rfl)
    | any =>
      obtain rfl := Except.ok.inj hdoc
      exact iff_of_true Draft.wellFormed_any (everywhere_of_leaf trivial rfl)
    | other | unrecognized => cases hdoc

/-- A review, with nullable wrappers around a number, around a union and around one another. -/
def review : Shape :=
  .object [
    ("rating", .optional (.nullable (.nullable (.number true none none)))),
    ("verdict", .nullable (.union [.enumeration ["good", "bad"], .null])),
    ("dates", .defaulted (.tuple [.date, .nullable .date]) (.arr []))]

/-- Gaps, whose shape says twice that they are null. -/
def gaps : Shape := .array (.nullable (.effects .null)) none none

theorem wellFormed_draft_iff_review :
    review.DistinctFields ∧ gaps.DistinctFields ∧
      (∃ doc, review.draft = .ok doc ∧ Draft.WellFormed doc) ∧
      ∃ doc, gaps.draft = .ok doc ∧ ¬Draft.WellFormed doc := by
  have hdistinct : review.DistinctFields :=
    distinctFields_of_ofJson? (show ofJson? review.toJson = some review from rfl)
  have hdistinct' : gaps.DistinctFields :=
    distinctFields_of_ofJson? (show ofJson? gaps.toJson = some gaps from rfl)
  have hproper : review.Everywhere IsProper := by
    -- one shape or one list of parts at a time
    repeat' first
      | exact List.forall_mem_nil _
      | refine List.forall_mem_cons.2 ⟨?_, ?_⟩
      | refine .intro (by simp [IsProper, IsNull, review]) ?_
  refine ⟨hdistinct, hdistinct', ⟨_, rfl, (wellFormed_draft_iff hdistinct rfl).2 hproper⟩, _, rfl,
    fun h ↦ ?_⟩
  have helement := ((wellFormed_draft_iff hdistinct' rfl).1 h).of_mem_parts List.mem_cons_self
  exact (everywhere_iff.1 helement).1 trivial

end Shape

end ContentSchema
