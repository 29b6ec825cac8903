import ContentSchema.Draft.Convert
import ContentSchema.Proofs.Draft.Documents
import ContentSchema.Proofs.Shape.DistinctFields
/-!
# The meaning of shapes

`Shape.Accepts` says which JSON values a shape accepts, by recursion on the shape and without a
document. `valid_iff_accepts` relates the two: a shape without nullable wrappers that converts has a
document against which exactly those values are valid that the shape accepts.

The induction is on `Shape.Everywhere`, which gives the hypothesis for each of the parts of a shape;
`draftAll` and `draftFields` are first turned into lists of documents beside lists of shapes
(`forall₂_of_draftAll`, `exists_draft_of_find?`), so that no second induction is needed inside it.
Nullable wrappers are left out because their documents admit less than the shape does: they change
the type and leave a constant or a list of values as it is.
-/

namespace ContentSchema

namespace Shape

/-! ### Acceptance -/

/-- The kinds of the wrappers around a shape, from the outside in. -/
def wrappers : Shape → List Kind
  | .optional inner => .optional :: wrappers inner
  | .nullable inner => .nullable :: wrappers inner
  | .defaulted inner _ => .defaulted :: wrappers inner
  | .effects inner => .effects :: wrappers inner
  | _ => []

section Acceptance

variable (Matches : String → String → Prop)

mutual

/-- The shape accepts a value. An object accepts no member without a field, and needs a member for
each field that no wrapper around its shape makes optional or gives a default. -/
def Accepts : Shape → Json → Prop
  | .object fields, value => ∃ members, value = .obj members ∧
    (∀ field ∈ fields, .optional ∉ field.2.wrappers → .defaulted ∉ field.2.wrappers →
      field.1 ∈ Keyed.keys members) ∧
    ∀ member ∈ members, AcceptsMember fields member.1 member.2
  | .array element minItems maxItems, value => ∃ items, value = .arr items ∧
    Within minItems maxItems items.length ∧ ∀ item ∈ items, Accepts element item
  | .variants _ options, value | .union options, value => AcceptsSome options value
  | .optional inner, value | .defaulted inner _, value | .effects inner, value =>
    Accepts inner value
  | .nullable inner, value => value = .null ∨ Accepts inner value
  | .literal constant, value => constant.Same value
  | .string _ minLength maxLength pattern, value => ∃ text, value = .str text ∧
    Within minLength maxLength text.length ∧ ∀ expression ∈ pattern, Matches expression text
  | .number integer minimum maximum, value => ∃ n, value = .num n ∧
    (integer → n.value.isInt) ∧ Between minimum maximum n.value
  | .boolean, value => ∃ admits, value = .bool admits
  | .date, value | .reference _, value => ∃ text, value = .str text
  | .null, value => value = .null
  | .any, _ => True
  | .enumeration values, value => ∃ text ∈ values, value = .str text
  | .record element, value => ∃ members, value = .obj members ∧
    ∀ member ∈ members, Accepts element member.2
  | .tuple shapes, value => ∃ items, value = .arr items ∧ AcceptsEach shapes items
  | .other _, _ | .unrecognized, _ => False

/-- The field of a name is there and accepts a value. -/
def AcceptsMember : List (String × Shape) → String → Json → Prop
  | [], _, _ => False
  | (key, shape) :: fields, name, value =>
    if key = name then Accepts shape value else AcceptsMember fields name value

/-- One of the shapes accepts a value. -/
def AcceptsSome : List Shape → Json → Prop
  | [], _ => False
  | shape :: shapes, value => Accepts shape value ∨ AcceptsSome shapes value

/-- There are as many values as shapes, each accepted by the shape at its place. -/
def AcceptsEach : List Shape → List Json → Prop
  | [], [] => True
  | shape :: shapes, value :: values => Accepts shape value ∧ AcceptsEach shapes values
  | _, _ => False

end

end Acceptance

variable {Matches : String → String → Prop}

/-- A member is accepted by the shape of the field of its name. -/
theorem acceptsMember_iff {fields : List (String × Shape)} {name : String} {value : Json} :
    AcceptsMember Matches fields name value ↔
      ∃ shape, Keyed.find? fields name = some shape ∧ shape.Accepts Matches value := by
  induction fields with
  | nil => simp [AcceptsMember]
  | cons field fields ih =>
    obtain ⟨key, shape⟩ := field
    rw [AcceptsMember, Keyed.find?_cons]
    split
    · simp
    · exact ih

/-! ### Shapes all through -/

/-- A shape without nullable shapes inside it has no nullable wrapper. -/
theorem Everywhere.nullable_notMem_wrappers {shape : Shape}
    (h : shape.Everywhere (·.kind ≠ .nullable)) : .nullable ∉ shape.wrappers := by
  induction h with
  | @intro shape hkind hparts ih =>
    cases shape with
    | optional inner | defaulted inner _ | effects inner =>
      have hinner := ih inner List.mem_cons_self
      simpa [wrappers] using hinner
    | nullable inner => exact absurd rfl hkind
    | _ => simp [wrappers]

/-- Where no wrapper is nullable, a field may be absent if some wrapper says so. -/
theorem mayBeAbsent_iff : ∀ {shape : Shape}, .nullable ∉ shape.wrappers →
    (shape.mayBeAbsent ↔ .optional ∈ shape.wrappers ∨ .defaulted ∈ shape.wrappers)
  | .effects inner, h => by
    have hinner : .nullable ∉ inner.wrappers := by simpa [wrappers] using h
    simpa [wrappers, mayBeAbsent] using mayBeAbsent_iff hinner
  | .nullable inner, h => by simp [wrappers] at h
  | .optional _, _ | .defaulted _ _, _ => by simp [wrappers, mayBeAbsent]
  | .object _, _ | .array .., _ | .variants .., _ | .union _, _ | .literal _, _ | .string .., _
  | .number .., _ | .boolean, _ | .date, _ | .null, _ | .any, _ | .enumeration _, _ | .record _, _
  | .tuple _, _ | .reference _, _ | .other _, _ | .unrecognized, _ => by
    simp [wrappers, mayBeAbsent]

/-- Required are the fields that may not be absent. -/
theorem mem_requiredNames {fields : List (String × Shape)} {name : String} :
    name ∈ requiredNames fields ↔ ∃ shape, (name, shape) ∈ fields ∧ ¬shape.mayBeAbsent := by
  simp [requiredNames]

/-! ### Documents of lists and fields -/

/-- The documents of a list belong to its shapes one by one. -/
theorem forall₂_of_draftAll {shapes : List Shape} {docs : List Json}
    (h : draftAll shapes = .ok docs) :
    List.Forall₂ (fun shape doc ↦ shape.draft = .ok doc) shapes docs := by
  induction shapes generalizing docs with
  | nil =>
    obtain rfl := Except.ok.inj h
    exact .nil
  | cons shape shapes ih =>
    rw [draftAll] at h
    obtain ⟨doc, hdoc, h⟩ := exists_of_bind_eq_ok h
    obtain ⟨rest, hrest, h⟩ := exists_of_bind_eq_ok h
    obtain rfl := Except.ok.inj h
    exact .cons hdoc (ih hrest)

/-- The fields and their documents stand under the same names in the same order. -/
theorem forall₂_of_draftFields {fields : List (String × Shape)} {docs : List (String × Json)}
    (h : draftFields fields = .ok docs) :
    List.Forall₂ (fun field entry ↦ field.1 = entry.1 ∧ field.2.draft = .ok entry.2) fields docs := by
  induction fields generalizing docs with
  | nil =>
    obtain rfl := Except.ok.inj h
    exact .nil
  | cons field fields ih =>
    obtain ⟨name, shape⟩ := field
    rw [draftFields] at h
    obtain ⟨doc, hdoc, h⟩ := exists_of_bind_eq_ok h
    obtain ⟨rest, hrest, h⟩ := exists_of_bind_eq_ok h
    obtain rfl := Except.ok.inj h
    exact .cons ⟨rfl, hdoc⟩ (ih hrest)

end Shape

/-- A document without a type becomes a union, every other one gets another type. -/
theorem Draft.exists_keywords_nullable (doc : Json) : ∃ keywords, Draft.nullable doc = .obj keywords := by
  unfold Draft.nullable
  split
  · split
    · exact ⟨_, rfl⟩
    · split <;> exact ⟨_, rfl⟩
    · exact ⟨_, rfl⟩
  · exact ⟨_, rfl⟩

namespace Shape

/-- A document of a shape is an object, so that wrappers find the keywords that they change. -/
theorem exists_keywords_of_draft : ∀ (shape : Shape) {doc : Json}, shape.draft = .ok doc →
    ∃ keywords, doc = .obj keywords
  | .object _, _, h | .array .., _, h | .variants _ _, _, h | .union _, _, h | .record _, _, h
  | .tuple _, _, h => by
    rw [draft] at h
    obtain ⟨_, -, rfl⟩ := exists_of_map_eq_ok h
    exact ⟨_, rfl⟩
  | .optional inner, _, h | .effects inner, _, h => exists_keywords_of_draft inner h
  | .nullable inner, _, h => by
    rw [draft] at h
    obtain ⟨doc, -, rfl⟩ := exists_of_map_eq_ok h
    exact Draft.exists_keywords_nullable doc
  | .defaulted inner _, _, h => by
    rw [draft] at h
    obtain ⟨doc, hdoc, rfl⟩ := exists_of_map_eq_ok h
    obtain ⟨keywords, rfl⟩ := exists_keywords_of_draft inner hdoc
    exact ⟨_, rfl⟩
  | .literal value, _, h => by
    rw [draft] at h
    cases value <;> cases h <;> exact ⟨_, rfl⟩
  | .number .., _, h => by
    rw [draft] at h
    obtain ⟨least, -, h⟩ := exists_of_bind_eq_ok h
    obtain ⟨greatest, -, h⟩ := exists_of_bind_eq_ok h
    exact ⟨_, (Except.ok.inj h).symm⟩
  | .enumeration values, _, h => by
    rw [draft, Draft.enumeration] at h
    split at h
    · cases h
    · exact ⟨_, (Except.ok.inj h).symm⟩
  | .string .., _, h | .boolean, _, h | .date, _, h | .null, _, h | .any, _, h
  | .reference _, _, h => ⟨_, (Except.ok.inj h).symm⟩
  | .other _, _, h | .unrecognized, _, h => nomatch h

/-! ### Conversion preserves meaning -/

/-- The document admits exactly what the shape accepts. -/
def Means (Matches : String → String → Prop) (shape : Shape) (doc : Json) : Prop :=
  ∀ value, Draft.Valid Matches doc value ↔ shape.Accepts Matches value

/-- What documents that are made one by one mean, they mean as a list. -/
theorem forall₂_means {shapes : List Shape} {docs : List Json} (hdocs : draftAll shapes = .ok docs)
    (h : ∀ shape ∈ shapes, ∀ {doc}, shape.draft = .ok doc → shape.Means Matches doc) :
    List.Forall₂ (Means Matches) shapes docs := by
  have hboth := (List.forall₂_and_left _ _).2 ⟨h, forall₂_of_draftAll hdocs⟩
  exact hboth.imp fun shape doc ⟨hmeans, hdoc⟩ ↦ hmeans hdoc

/-- Alternatives mean what their shapes mean. -/
theorem exists_valid_iff_acceptsSome {shapes : List Shape} {docs : List Json}
    (h : List.Forall₂ (Means Matches) shapes docs) (value : Json) :
    (∃ doc ∈ docs, Draft.Valid Matches doc value) ↔ AcceptsSome Matches shapes value := by
  induction h with
  | nil => simp [AcceptsSome]
  | cons hfirst h ih => simp [AcceptsSome, ← ih, hfirst value]

/-- Items by place mean what the shapes at these places mean. -/
theorem forall₂_valid_iff_acceptsEach {shapes : List Shape} {docs : List Json}
    (h : List.Forall₂ (Means Matches) shapes docs) (values : List Json) :
    List.Forall₂ (Draft.Valid Matches) docs values ↔ AcceptsEach Matches shapes values := by
  induction h generalizing values with
  | nil => cases values <;> simp [AcceptsEach]
  | cons hfirst h ih =>
    cases values with
    | nil => simp [AcceptsEach]
    | cons value values => rw [List.forall₂_cons, AcceptsEach, hfirst value, ih values]

/-- The properties of an object document mean what the fields of the shape mean. -/
theorem exists_valid_iff_acceptsMember {fields : List (String × Shape)}
    {docs : List (String × Json)} (hdocs : draftFields fields = .ok docs)
    (h : ∀ field ∈ fields, ∀ {doc}, field.2.draft = .ok doc → field.2.Means Matches doc)
    (name : String) (value : Json) :
    (∃ doc, Keyed.find? docs name = some doc ∧ Draft.Valid Matches doc value) ↔
      AcceptsMember Matches fields name value := by
  -- fields and documents are looked up alike, for their names stand in the same order
  have hboth := (List.forall₂_and_left _ _).2 ⟨h, forall₂_of_draftFields hdocs⟩
  rw [acceptsMember_iff]
  refine (Keyed.exists_find?_iff (hboth.imp ?_) name).symm
  rintro field entry ⟨hmeans, hname, hdoc⟩
  exact ⟨hname, (hmeans hdoc value).symm⟩

/-- The required names are those of the fields that no wrapper lets be absent. -/
theorem forall_requiredNames_iff {fields : List (String × Shape)}
    (h : ∀ field ∈ fields, .nullable ∉ field.2.wrappers) (p : String → Prop) :
    (∀ name ∈ requiredNames fields, p name) ↔ ∀ field ∈ fields,
      .optional ∉ field.2.wrappers → .defaulted ∉ field.2.wrappers → p field.1 := by
  constructor
  · intro hall field hfield hoptional hdefaulted
    refine hall field.1 (mem_requiredNames.2 ⟨field.2, hfield, ?_⟩)
    rw [mayBeAbsent_iff (h field hfield)]
    exact not_or.2 ⟨hoptional, hdefaulted⟩
  · intro hall name hname
    obtain ⟨shape, hfield, hpresent⟩ := mem_requiredNames.1 hname
    rw [mayBeAbsent_iff (h _ hfield)] at hpresent
    obtain ⟨hoptional, hdefaulted⟩ := not_or.1 hpresent
    exact hall (name, shape) hfield hoptional hdefaulted

/-- **Conversion preserves meaning.** The values that are valid against the document of a shape
without nullable wrappers are the values that the shape accepts. -/
theorem valid_iff_accepts {shape : Shape} (h : shape.Everywhere (·.kind ≠ .nullable)) {doc : Json}
    (hdoc : shape.draft = .ok doc) (value : Json) :
    Draft.Valid Matches doc value ↔ shape.Accepts Matches value := by
  induction h generalizing doc value with
  | @intro shape hkind hparts ih =>
    cases shape with
    | object fields =>
      rw [draft] at hdoc
      obtain ⟨docs, hdocs, rfl⟩ := exists_of_map_eq_ok hdoc
      -- members and required names are both read off the fields, so off the parts of the shape
      have hpart : ∀ field ∈ fields, field.2 ∈ (object fields).parts :=
        fun field hfield ↦ List.mem_map_of_mem hfield
      have hmember := exists_valid_iff_acceptsMember hdocs fun field hfield ↦ ih _ (hpart field hfield)
      have hrequired := forall_requiredNames_iff fun field hfield ↦
        (hparts _ (hpart field hfield)).nullable_notMem_wrappers
      rw [Draft.valid_object, Accepts]
      simp only [hmember, hrequired]
    | array element minItems maxItems =>
      rw [draft] at hdoc
      obtain ⟨inner, hinner, rfl⟩ := exists_of_map_eq_ok hdoc
      -- a list in the place of this document would be read item by item
      obtain ⟨keywords, rfl⟩ := exists_keywords_of_draft element hinner
      have helement := ih element List.mem_cons_self hinner
      rw [Draft.valid_array, Accepts]
      simp only [helement]
    | variants _ options | union options =>
      rw [draft] at hdoc
      obtain ⟨docs, hdocs, rfl⟩ := exists_of_map_eq_ok hdoc
      rw [Draft.valid_anyOf, Accepts]
      exact exists_valid_iff_acceptsSome (forall₂_means hdocs ih) value
    | tuple items =>
      rw [draft] at hdoc
      obtain ⟨docs, hdocs, rfl⟩ := exists_of_map_eq_ok hdoc
      have hitems := forall₂_valid_iff_acceptsEach (forall₂_means hdocs ih)
      rw [Draft.valid_tuple, Accepts]
      simp only [hitems]
    | record element =>
      rw [draft] at hdoc
      obtain ⟨inner, hinner, rfl⟩ := exists_of_map_eq_ok hdoc
      have helement := ih element List.mem_cons_self hinner
      rw [Draft.valid_record, Accepts]
      simp only [helement]
    | optional inner | effects inner =>
      rw [draft] at hdoc
      rw [Accepts]
      exact ih inner List.mem_cons_self hdoc value
    | defaulted inner default =>
      rw [draft] at hdoc
      obtain ⟨innerDoc, hinner, rfl⟩ := exists_of_map_eq_ok hdoc
      -- the default goes in among the keywords
      obtain ⟨keywords, rfl⟩ := exists_keywords_of_draft inner hinner
      rw [Draft.valid_withDefault, Accepts]
      exact ih inner List.mem_cons_self hinner value
    | nullable inner => exact absurd rfl hkind
    | literal constant => exact Draft.valid_literal hdoc
    | number integer minimum maximum => exact Draft.valid_number hdoc
    | enumeration values => exact Draft.valid_enumeration hdoc
    | string format minLength maxLength pattern =>
      obtain rfl := Except.ok.inj hdoc
      exact Draft.valid_string
    | reference collection =>
      obtain rfl := Except.ok.inj hdoc
      exact Draft.valid_reference
    | date =>
      obtain rfl := Except.ok.inj hdoc
      have hstring := @Draft.valid_string Matches value (some "date-time") none none none
      rw [Accepts]
      exact hstring.trans (by simp [Within])
    | boolean | null =>
      obtain rfl := Except.ok.inj hdoc
      rw [Draft.valid_typed, Accepts]
      cases value <;> simp [Json.IsOf]
    | any =>
      obtain rfl := Except.ok.inj hdoc
      simp [Draft.valid_any, Accepts]
    | other | unrecognized => cases hdoc

/-- An event: a title that is not blank, a place unless it is secret, and two tags at most. -/
def event : Shape :=
  .object [
    ("title", .string none (some 1) none (some "\\S")),
    ("place", .effects (.optional (.tuple [.boolean, .date]))),
    ("tags", .defaulted (.array (.union [.enumeration ["talk"], .null]) none (some 2)) (.arr []))]

/-- An event may leave out its place and its tags but not its title, and every tag has to be one of
the options. -/
theorem valid_iff_accepts_event :
    event.Everywhere (·.kind ≠ .nullable) ∧ ∃ doc, event.draft = .ok doc ∧
      Draft.Valid (fun _ text ↦ text ≠ " ") doc (.obj [("title", .str "Tea")]) ∧
      Draft.Valid (fun _ text ↦ text ≠ " ") doc (.obj [("tags", .arr [.null, .str "talk"]),
        ("title", .str "Tea"), ("place", .arr [.bool true, .str "today"])]) ∧
      ¬Draft.Valid (fun _ text ↦ text ≠ " ") doc
        (.obj [("title", .str "Tea"), ("tags", .arr [.str "walk"])]) ∧
      ¬Draft.Valid (fun _ text ↦ text ≠ " ") doc (.obj [("tags", .arr [])]) := by
  have hevent : event.Everywhere (·.kind ≠ .nullable) := by
    -- one shape or one list of parts at a time
    repeat' first
      | exact List.forall_mem_nil _
      | refine List.forall_mem_cons.2 ⟨?_, ?_⟩
      | refine .intro (by decide) ?_
  have hlength : 1 ≤ "Tea".length := by decide
  obtain ⟨doc, hdoc⟩ : ∃ doc, event.draft = .ok doc := ⟨_, rfl⟩
  refine ⟨hevent, doc, hdoc, ?_, ?_, ?_, ?_⟩
  all_goals
    rw [valid_iff_accepts hevent hdoc]
    simp [event, Accepts, AcceptsMember, AcceptsSome, AcceptsEach, wrappers, Within, hlength,
      -Prod.forall]

end Shape

end ContentSchema
