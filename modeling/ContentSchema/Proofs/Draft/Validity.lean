import Mathlib.Data.Rat.Floor
import ContentSchema.Draft.Document
import ContentSchema.Proofs.Keyed
/-!
# Validity

When a JSON value is valid against a schema document, by the rules of draft 7 for the keywords that
documents here are written with. What it is for a text to match a pattern is supplied.

`Draft.Satisfies` holds the rules for the value itself and `Draft.Child` says which values inside it
are held to which schemas; together with `anyOf` they make up `Draft.Valid`. A keyword is looked up
by its name alone, so documents that agree on `Draft.vocabulary` are valid for the same values
(`valid_congr`): `format`, `default` and `reference` are not in it and only annotate.

Numbers are compared by their exact values, so an integer may be written either way.
-/

namespace ContentSchema

/-! ### Exact values -/

/-- The exact value of a finite double. -/
def Binary64.value (x : Binary64) : ℚ :=
  (if x.negative then -1 else 1) * ((x.magnitude.1 : ℚ) / x.magnitude.2)

/-- The exact value of a JSON number. -/
def Number.value : Number → ℚ
  | .int n => n
  | .real x => x.value

namespace Json

/-- Equality of JSON values: numbers by their values, objects whatever the order of members. -/
inductive Same : Json → Json → Prop where
  | null : Same .null .null
  | bool (value : Bool) : Same (.bool value) (.bool value)
  | num {a b : Number} (hvalue : a.value = b.value) : Same (.num a) (.num b)
  | str (text : String) : Same (.str text) (.str text)
  | arr {items others : List Json} (hitems : List.Forall₂ Same items others) :
      Same (.arr items) (.arr others)
  | obj {members others : List (String × Json)}
      (hkeys : ∀ key, key ∈ Keyed.keys members ↔ key ∈ Keyed.keys others)
      (hvalues : ∀ key value other, Keyed.find? members key = some value →
        Keyed.find? others key = some other → Same value other) :
      Same (.obj members) (.obj others)

@[simp] theorem null_same {value : Json} : null.Same value ↔ value = .null := by
  constructor
  · rintro ⟨⟩
    rfl
  · rintro rfl
    exact .null

@[simp] theorem same_null {value : Json} : value.Same .null ↔ value = .null := by
  constructor
  · rintro ⟨⟩
    rfl
  · rintro rfl
    exact .null

@[simp] theorem bool_same {admits : Bool} {value : Json} :
    (bool admits).Same value ↔ value = .bool admits := by
  constructor
  · rintro ⟨⟩
    rfl
  · rintro rfl
    exact .bool admits

@[simp] theorem str_same {text : String} {value : Json} :
    (str text).Same value ↔ value = .str text := by
  constructor
  · rintro ⟨⟩
    rfl
  · rintro rfl
    exact .str text

/-- Two numbers are the same if their values are, however they are written. -/
@[simp] theorem num_same {number : Number} {value : Json} :
    (num number).Same value ↔ ∃ other, value = .num other ∧ number.value = other.value := by
  constructor
  · rintro (_ | _ | hvalue)
    exact ⟨_, rfl, hvalue⟩
  · rintro ⟨other, rfl, hvalue⟩
    exact .num hvalue

/-- The value is of the type of this name. An integer is a number without a fraction. -/
def IsOf (type : String) : Json → Prop
  | .null => type = "null"
  | .bool _ => type = "boolean"
  | .num number => type = "number" ∨ type = "integer" ∧ number.value.isInt
  | .str _ => type = "string"
  | .arr _ => type = "array"
  | .obj _ => type = "object"

@[simp] theorem isOf_null {value : Json} : value.IsOf "null" ↔ value = .null := by
  cases value <;> simp [IsOf]

/-- The value is of a type that `types` names, alone or in a list. -/
def IsOfOne : Json → Json → Prop
  | .str type, value => value.IsOf type
  | .arr types, value => ∃ type, .str type ∈ types ∧ value.IsOf type
  | _, _ => False

end Json

namespace Draft

/-! ### Keywords -/

/-- The keywords that hold rules for values. -/
def vocabulary : List String :=
  ["type", "const", "enum", "anyOf", "minLength", "maxLength", "pattern", "minimum", "maximum",
    "items", "minItems", "maxItems", "properties", "additionalProperties", "required"]

section Keywords

variable (keywords : List (String × Json))

/-- The keyword gives a lower bound of the size, if it is there. -/
def AtLeast (name : String) (size : ℚ) : Prop :=
  ∀ bound, Keyed.find? keywords name = some (.num bound) → bound.value ≤ size

/-- The keyword gives an upper bound of the size, if it is there. -/
def AtMost (name : String) (size : ℚ) : Prop :=
  ∀ bound, Keyed.find? keywords name = some (.num bound) → size ≤ bound.value

/-- The schema for the item at an index: `items` is one schema for all, or a list with one for each
of the first items. -/
def itemSchema? (index : Nat) : Option Json :=
  match Keyed.find? keywords "items" with
  | some (.arr schemas) => schemas[index]?
  | schema => schema

/-- The schema for the member of a name: the one in `properties`, or else `additionalProperties`. -/
def memberSchema? (name : String) : Option Json :=
  (((Keyed.find? keywords "properties").bind (·.get? name)).or
    (Keyed.find? keywords "additionalProperties"))

/-- A value inside another one, and the schema that it is held to. -/
def Child (value inner schema : Json) : Prop :=
  match value with
  | .arr items => ∃ index : Nat, items[index]? = some inner ∧ itemSchema? keywords index = some schema
  | .obj members => ∃ name, (name, inner) ∈ members ∧ memberSchema? keywords name = some schema
  | _ => False

/-- The rules for the size of a value and for what is written in it, by the type of the value. -/
def Sized (Matches : String → String → Prop) (value : Json) : Prop :=
  match value with
  | .str text =>
    AtLeast keywords "minLength" text.length ∧ AtMost keywords "maxLength" text.length ∧
    ∀ pattern, Keyed.find? keywords "pattern" = some (.str pattern) → Matches pattern text
  | .num number =>
    AtLeast keywords "minimum" number.value ∧ AtMost keywords "maximum" number.value
  | .arr items => AtLeast keywords "minItems" items.length ∧ AtMost keywords "maxItems" items.length
  | .obj members =>
    ∀ names, Keyed.find? keywords "required" = some (.arr names) →
      ∀ name, .str name ∈ names → name ∈ Keyed.keys members
  | _ => True

/-- The rules for the value itself: its type, the values it may be, and its size. -/
def Satisfies (Matches : String → String → Prop) (value : Json) : Prop :=
  (∀ types, Keyed.find? keywords "type" = some types → types.IsOfOne value) ∧
  (∀ constant, Keyed.find? keywords "const" = some constant → constant.Same value) ∧
  (∀ constants, Keyed.find? keywords "enum" = some (.arr constants) →
    ∃ constant ∈ constants, constant.Same value) ∧
  Sized keywords Matches value

variable {keywords}

theorem sizeOf_lt_of_find? {name : String} {schema : Json}
    (h : Keyed.find? keywords name = some schema) : sizeOf schema < sizeOf (Json.obj keywords) := by
  induction keywords with
  | nil => cases h
  | cons entry rest ih =>
    obtain ⟨key, value⟩ := entry
    rw [Keyed.find?_cons] at h
    split at h
    · obtain rfl := Option.some.inj h
      simp only [Json.obj.sizeOf_spec, List.cons.sizeOf_spec, Prod.mk.sizeOf_spec]
      omega
    · have hrest := ih h
      simp only [Json.obj.sizeOf_spec, List.cons.sizeOf_spec] at hrest ⊢
      omega

theorem sizeOf_lt_of_mem_anyOf {schemas : List Json} {schema : Json}
    (h : Keyed.find? keywords "anyOf" = some (.arr schemas)) (hschema : schema ∈ schemas) :
    sizeOf schema < sizeOf (Json.obj keywords) := by
  have hlist := sizeOf_lt_of_find? h
  have hitem := List.sizeOf_lt_of_mem hschema
  rw [Json.arr.sizeOf_spec] at hlist
  omega

theorem sizeOf_lt_of_itemSchema? {index : Nat} {schema : Json}
    (h : itemSchema? keywords index = some schema) :
    sizeOf schema < sizeOf (Json.obj keywords) := by
  unfold itemSchema? at h
  split at h
  next schemas hitems =>
    have hlist := sizeOf_lt_of_find? hitems
    have hitem := List.sizeOf_lt_of_mem (List.mem_of_getElem? h)
    rw [Json.arr.sizeOf_spec] at hlist
    omega
  next => exact sizeOf_lt_of_find? h

theorem sizeOf_lt_of_memberSchema? {name : String} {schema : Json}
    (h : memberSchema? keywords name = some schema) :
    sizeOf schema < sizeOf (Json.obj keywords) := by
  rcases Option.or_eq_some_iff.1 h with h | ⟨-, h⟩
  · obtain ⟨properties, hproperties, hschema⟩ := Option.bind_eq_some_iff.1 h
    have hobject := sizeOf_lt_of_find? hproperties
    cases properties with
    | obj members =>
      have hmember := sizeOf_lt_of_find? hschema
      omega
    | _ => cases hschema
  · exact sizeOf_lt_of_find? h

/-- A document that a value inside is held against is smaller, on which the recursion of validity
rests. -/
theorem Child.sizeOf_lt {value inner schema : Json} (h : Child keywords value inner schema) :
    sizeOf schema < sizeOf (Json.obj keywords) := by
  cases value with
  | arr items =>
    obtain ⟨index, -, hschema⟩ := h
    exact sizeOf_lt_of_itemSchema? hschema
  | obj members =>
    obtain ⟨name, -, hschema⟩ := h
    exact sizeOf_lt_of_memberSchema? hschema
  | _ => cases h

end Keywords

/-! ### Validity -/

variable (Matches : String → String → Prop)

/-- A value is valid against a schema. A schema that is a Boolean admits everything or nothing. -/
def Valid : Json → Json → Prop
  | .bool admits, _ => admits = true
  | .obj keywords, value =>
    Satisfies keywords Matches value ∧
    (∀ schemas, Keyed.find? keywords "anyOf" = some (.arr schemas) →
      ∃ schema, ∃ _ : schema ∈ schemas, Valid schema value) ∧
    ∀ inner schema, Child keywords value inner schema → Valid schema inner
  | _, _ => False
termination_by schema => schema
decreasing_by
  · exact sizeOf_lt_of_mem_anyOf ‹_› ‹_›
  · exact Child.sizeOf_lt ‹_›

variable {Matches}

/-- A document with one type and no list of values. -/
theorem valid_iff_of_type {keywords : List (String × Json)} {type : String} {value : Json}
    (htype : Keyed.find? keywords "type" = some (.str type))
    (hconst : Keyed.find? keywords "const" = none) (henum : Keyed.find? keywords "enum" = none)
    (hanyOf : Keyed.find? keywords "anyOf" = none) :
    Valid Matches (.obj keywords) value ↔ value.IsOf type ∧ Sized keywords Matches value ∧
      ∀ inner schema, Child keywords value inner schema → Valid Matches schema inner := by
  simp [Valid, Satisfies, htype, hconst, henum, hanyOf, Json.IsOfOne, and_assoc]

/-- What is inside a value is held to schemas that three keywords give. -/
theorem child_congr {keywords others : List (String × Json)}
    (h : ∀ name ∈ ["items", "properties", "additionalProperties"],
      Keyed.find? keywords name = Keyed.find? others name)
    (value : Json) : Child keywords value = Child others value := by
  have hitem : itemSchema? keywords = itemSchema? others := by
    funext index
    rw [itemSchema?, itemSchema?, h "items" (by decide)]
  have hmember : memberSchema? keywords = memberSchema? others := by
    funext name
    rw [memberSchema?, memberSchema?, h "properties" (by decide),
      h "additionalProperties" (by decide)]
  funext inner schema
  unfold Child
  rw [hitem, hmember]

/-- Whatever a document says by other keywords is no rule for values. -/
theorem valid_congr {keywords others : List (String × Json)}
    (h : ∀ name ∈ vocabulary, Keyed.find? keywords name = Keyed.find? others name)
    (value : Json) : Valid Matches (.obj keywords) value ↔ Valid Matches (.obj others) value := by
  have hsub : ["items", "properties", "additionalProperties"] ⊆ vocabulary := by decide
  have hchild : Child keywords value = Child others value :=
    child_congr (fun name hname ↦ h name (hsub hname)) value
  have hsatisfies : Satisfies keywords Matches value ↔ Satisfies others Matches value := by
    simp only [Satisfies, Sized, AtLeast, AtMost, h "type" (by decide), h "const" (by decide),
      h "enum" (by decide), h "minLength" (by decide), h "maxLength" (by decide),
      h "pattern" (by decide), h "minimum" (by decide), h "maximum" (by decide),
      h "minItems" (by decide), h "maxItems" (by decide), h "required" (by decide)]
  rw [Valid, Valid, hsatisfies, hchild, h "anyOf" (by decide)]

end Draft

end ContentSchema
