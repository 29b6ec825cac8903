import ContentSchema.Proofs.Draft.Settled
import ContentSchema.Proofs.Draft.Traversal
import ContentSchema.Proofs.Draft.WellFormed
/-!
# Documents are objects

Whichever way a shape is converted, its document is an object, and so is every document inside that
one (`allObjects_draftLenient`). Hence what wrappers would do to a document that is no object never
happens: null is always written among the keywords of an object (`Draft.withNull`), and so is every
default (`documents_are_objects`).

`Draft.documents` are the documents directly inside a document. These are its schemas but for the
`false` that allows no other members, which an object writes itself and which is no document of a
shape.
-/

namespace ContentSchema

namespace Draft

/-! ### Objects all through -/

/-- The documents directly inside a document: its schemas, without a `false` for other members. -/
def documents (keywords : List (String × Json)) : List Json :=
  subschemas (Keyed.erase keywords "additionalProperties") ++
    (Keyed.find? keywords "additionalProperties").toList.filter (· ≠ .bool false)

/-- The document is an object, and so is every document inside it. -/
inductive AllObjects : Json → Prop where
  | obj {keywords : List (String × Json)} (inside : ∀ doc ∈ documents keywords, AllObjects doc) :
      AllObjects (.obj keywords)

/-- The keywords that hold documents. -/
def nesting : List String := ["anyOf", "items", "properties", "additionalProperties"]

variable {keywords others : List (String × Json)}

/-- The documents directly inside another one depend on the nesting keywords only. -/
theorem documents_congr (h : ∀ key ∈ nesting, Keyed.find? others key = Keyed.find? keywords key) :
    documents others = documents keywords := by
  simp only [documents, subschemas, Keyed.find?_erase, h "anyOf" (by decide),
    h "items" (by decide), h "properties" (by decide), h "additionalProperties" (by decide)]

namespace AllObjects

theorem exists_keywords {doc : Json} (h : AllObjects doc) : ∃ keywords, doc = .obj keywords := by
  cases h
  exact ⟨_, rfl⟩

/-- A keyword that holds no documents may be written. -/
theorem insert (h : AllObjects (.obj keywords)) {key : String} (hkey : key ∉ nesting)
    (value : Json) : AllObjects (.obj (Keyed.insert keywords key value)) := by
  have hsame : documents (Keyed.insert keywords key value) = documents keywords := by
    refine documents_congr fun other hother ↦ ?_
    rw [Keyed.find?_insert, if_neg]
    rintro rfl
    exact hkey hother
  obtain ⟨inside⟩ := h
  exact .obj (hsame ▸ inside)

end AllObjects

/-! ### Kinds -/

/-- A document without documents inside it. -/
theorem allObjects_of_find? (h : ∀ key ∈ nesting, Keyed.find? keywords key = none) :
    AllObjects (.obj keywords) := by
  have hnone : documents keywords = documents [] := documents_congr h
  exact .obj (hnone ▸ List.forall_mem_nil _)

theorem allObjects_fallback : AllObjects fallback := .obj (List.forall_mem_nil _)

theorem allObjects_typed (type : String) : AllObjects (typed type) :=
  allObjects_of_find? (by simp [nesting, Keyed.find?_cons])

theorem allObjects_string (format : Option String) (minLength maxLength : Option Nat)
    (pattern : Option String) : AllObjects (string format minLength maxLength pattern) :=
  allObjects_of_find? (by simp [nesting, Keyed.find?_cons])

theorem allObjects_reference (collection : String) : AllObjects (reference collection) :=
  allObjects_of_find? (by simp [nesting, Keyed.find?_cons])

/-- A number has bounds and no documents inside it. -/
theorem allObjects_number {integer : Bool} {minimum maximum : Option Real64} {doc : Json}
    (h : number integer minimum maximum = .ok doc) : AllObjects doc := by
  obtain ⟨bounds, rfl, hother⟩ := exists_bounds_of_number h
  exact allObjects_of_find? (by simp [nesting, Keyed.find?_cons, hother])

/-- The value of a literal is no document, even where it stands for one. -/
theorem allObjects_literal {constant doc : Json} (h : literal constant = .ok doc) :
    AllObjects doc := by
  cases constant with
  | arr _ | obj _ => cases h
  | _ =>
    obtain rfl := Except.ok.inj h
    exact allObjects_of_find? (by simp [nesting, Keyed.find?_cons])

theorem allObjects_enumeration {values : List String} {doc : Json}
    (h : enumeration values = .ok doc) : AllObjects doc := by
  rw [enumeration] at h
  split at h
  · cases h
  · obtain rfl := Except.ok.inj h
    exact allObjects_of_find? (by simp [nesting, Keyed.find?_cons])

/-- An object document is made of objects if its properties are; the list of required names is no
document. -/
theorem allObjects_object {properties : List (String × Json)}
    (h : ∀ property ∈ properties, AllObjects property.2) (required : List String) :
    AllObjects (object properties required) := by
  refine .obj ?_
  have hinside : documents ([("type", .str "object"), ("properties", .obj properties)] ++
      (if required.isEmpty then [] else [("required", .arr (required.map .str))]) ++
      [("additionalProperties", .bool false)]) = Keyed.values properties := by
    cases required <;> simp [documents, subschemas, Keyed.find?_erase, Keyed.find?_cons]
  rw [hinside, Keyed.values, List.forall_mem_map]
  exact h

theorem allObjects_array {items : Json} (h : AllObjects items) (minItems maxItems : Option Nat) :
    AllObjects (array items minItems maxItems) := by
  obtain ⟨keywords, rfl⟩ := h.exists_keywords
  refine .obj ?_
  simpa [documents, subschemas, Keyed.find?_erase, Keyed.find?_cons] using h

/-- The items of a tuple are documents, and `additionalItems` is not. -/
theorem allObjects_tuple {items : List Json} (h : ∀ item ∈ items, AllObjects item) :
    AllObjects (tuple items) := by
  refine .obj ?_
  simpa [documents, subschemas, Keyed.find?_erase, Keyed.find?_cons] using h

theorem allObjects_record {values : Json} (h : AllObjects values) : AllObjects (record values) := by
  obtain ⟨keywords, rfl⟩ := h.exists_keywords
  refine .obj ?_
  simpa [documents, subschemas, Keyed.find?_erase, Keyed.find?_cons] using h

theorem allObjects_anyOf {options : List Json} (h : ∀ option ∈ options, AllObjects option) :
    AllObjects (anyOf options) := by
  refine .obj ?_
  simpa [documents, subschemas, Keyed.find?_erase, Keyed.find?_cons] using h

/-! ### Wrappers -/

/-- The document with null besides, of a document that is an object. -/
def withNull (keywords : List (String × Json)) : Json :=
  match Keyed.find? keywords "type" with
  | some (.str type) => .obj (Keyed.insert keywords "type" (.arr [.str type, .str "null"]))
  | some (.arr types) =>
    if types.contains (.str "null") then .obj keywords
    else .obj (Keyed.insert keywords "type" (.arr (types ++ [.str "null"])))
  | _ => anyOf [.obj keywords, typed "null"]

theorem nullable_obj (keywords : List (String × Json)) :
    nullable (.obj keywords) = withNull keywords :=
  rfl

/-- Admitting null as well adds no document but that of null. -/
theorem AllObjects.withNull (h : AllObjects (.obj keywords)) : AllObjects (withNull keywords) := by
  unfold Draft.withNull
  split
  next => exact h.insert (by decide) _
  next =>
    split
    · exact h
    · exact h.insert (by decide) _
  next => exact allObjects_anyOf (by simp [h, allObjects_typed])

end Draft

/-! ### Shapes -/

namespace Shape

mutual

/-- A lenient document is an object all through. -/
theorem allObjects_draftLenient : ∀ (shape : Shape) (path : Path),
    Draft.AllObjects (shape.draftLenient path).doc
  | .object fields, path => by
    simp only [draftLenient]
    exact Draft.allObjects_object (allObjects_draftFieldsLenient fields path) _
  | .array element minItems maxItems, path => by
    simp only [draftLenient]
    exact Draft.allObjects_array (allObjects_draftLenient element _) minItems maxItems
  | .variants _ options, path | .union options, path => by
    simp only [draftLenient]
    exact Draft.allObjects_anyOf (allObjects_draftAllLenient options path)
  | .tuple items, path => by
    simp only [draftLenient]
    exact Draft.allObjects_tuple (allObjects_draftAllLenient items _)
  | .optional inner, path | .effects inner, path => by
    simp only [draftLenient]
    exact allObjects_draftLenient inner path
  | .nullable inner, path => by
    -- the document inside is an object, so that null is added to its keywords
    have hinner := allObjects_draftLenient inner path
    obtain ⟨keywords, hkeywords⟩ := hinner.exists_keywords
    simp only [draftLenient, Converted.map]
    rw [hkeywords, Draft.nullable_obj]
    exact (hkeywords ▸ hinner).withNull
  | .defaulted inner value, path => by
    have hinner := allObjects_draftLenient inner path
    obtain ⟨keywords, hkeywords⟩ := hinner.exists_keywords
    simp only [draftLenient, Converted.map]
    rw [hkeywords] at hinner ⊢
    exact hinner.insert (by decide) value
  | .record value, path => by
    simp only [draftLenient]
    exact Draft.allObjects_record (allObjects_draftLenient value path)
  | .literal _, path =>
    Converted.doc_ofExcept path Draft.allObjects_fallback fun _ ↦ Draft.allObjects_literal
  | .number .., path =>
    Converted.doc_ofExcept path Draft.allObjects_fallback fun _ ↦ Draft.allObjects_number
  | .enumeration _, path =>
    Converted.doc_ofExcept path Draft.allObjects_fallback fun _ ↦ Draft.allObjects_enumeration
  | .other _, _ | .unrecognized, _ => Draft.allObjects_fallback
  | .string .., _ => Draft.allObjects_string _ _ _ _
  | .date, _ => Draft.allObjects_string (some "date-time") none none none
  | .reference collection, _ => Draft.allObjects_reference collection
  | .boolean, _ | .null, _ => Draft.allObjects_typed _
  | .any, _ => .obj (List.forall_mem_nil _)

/-- Every document of a list of shapes is made of objects. -/
theorem allObjects_draftAllLenient : ∀ (shapes : List Shape) (path : Path),
    ∀ doc ∈ (draftAllLenient path shapes).1, Draft.AllObjects doc
  | [], _ => List.forall_mem_nil _
  | shape :: shapes, path => by
    simp only [draftAllLenient]
    exact List.forall_mem_cons.2
      ⟨allObjects_draftLenient shape path, allObjects_draftAllLenient shapes path⟩

theorem allObjects_draftFieldsLenient : ∀ (fields : List (String × Shape)) (path : Path),
    ∀ property ∈ (draftFieldsLenient path fields).1, Draft.AllObjects property.2
  | [], _ => List.forall_mem_nil _
  | (name, shape) :: fields, path => by
    simp only [draftFieldsLenient]
    exact List.forall_mem_cons.2
      ⟨allObjects_draftLenient shape _, allObjects_draftFieldsLenient fields path⟩

end

end Shape

/-! ### Both conversions -/

/-- Which conversion of a shape is meant; the lenient one is that of a shape at a path. -/
inductive Conversion.Mode where
  | strict
  | lenient (path : Path)

/-- The mode in which a shape one hop further is converted. -/
def Conversion.Mode.under (hop : Hop) : Conversion.Mode → Conversion.Mode
  | strict => strict
  | lenient path => lenient (path ++ [hop])

namespace Shape

variable {mode : Conversion.Mode} {doc : Json}

/-- The document of a shape, if the conversion makes one. -/
def document? (shape : Shape) : Conversion.Mode → Option Json
  | .strict => shape.draft.toOption
  | .lenient path => some (shape.draftLenient path).doc

theorem document?_strict {shape : Shape} :
    shape.document? .strict = some doc ↔ shape.draft = .ok doc := by
  rw [document?]
  cases shape.draft <;> simp [Except.toOption]

/-- In both modes the document of a shape is made of objects. -/
theorem allObjects_of_document? {shape : Shape} (h : shape.document? mode = some doc) :
    Draft.AllObjects doc := by
  cases mode with
  | strict =>
    -- what converts has one document, whichever way it is converted
    have hlenient := allObjects_draftLenient shape []
    rwa [draftLenient_of_draft (document?_strict.1 h)] at hlenient
  | lenient path => exact Option.some.inj h ▸ allObjects_draftLenient shape path

theorem document?_nullable (shape : Shape) :
    (nullable shape).document? mode = (shape.document? mode).map Draft.nullable := by
  cases mode with
  | strict =>
    rw [document?, document?, draft]
    cases shape.draft <;> rfl
  | lenient path => rfl

theorem document?_defaulted (shape : Shape) (value : Json) :
    (defaulted shape value).document? mode =
      (shape.document? mode).map fun doc ↦ Draft.withDefault doc value := by
  cases mode with
  | strict =>
    rw [document?, document?, draft]
    cases shape.draft <;> rfl
  | lenient path => rfl

/-- What is made of the document of a shape is made of an object. -/
theorem map_document?_eq_some {shape : Shape} {f : Json → Json} :
    (shape.document? mode).map f = some doc ↔
      ∃ keywords, shape.document? mode = some (.obj keywords) ∧ doc = f (.obj keywords) := by
  rw [Option.map_eq_some_iff]
  constructor
  · rintro ⟨inner, hinner, rfl⟩
    obtain ⟨keywords, rfl⟩ := (allObjects_of_document? hinner).exists_keywords
    exact ⟨keywords, hinner, rfl⟩
  · rintro ⟨keywords, hinner, rfl⟩
    exact ⟨_, hinner, rfl⟩

/-- The document of an object has a property for each field, in order, with the field's document. -/
theorem exists_properties_of_document? {fields : List (String × Shape)}
    (h : (object fields).document? mode = some doc) :
    ∃ properties, doc = Draft.object properties (requiredNames fields) ∧
      List.Forall₂ (fun field property ↦ property.1 = field.1 ∧
        field.2.document? (mode.under (.field field.1)) = some property.2) fields properties := by
  cases mode with
  | strict =>
    have hdoc := document?_strict.1 h
    rw [draft] at hdoc
    obtain ⟨properties, hproperties, rfl⟩ := exists_of_map_eq_ok hdoc
    refine ⟨properties, rfl, (forall₂_of_draftFields hproperties).imp ?_⟩
    rintro field property ⟨hname, hproperty⟩
    exact ⟨hname.symm, document?_strict.2 hproperty⟩
  | lenient path =>
    have hdoc : Draft.object (draftFieldsLenient path fields).1 (requiredNames fields) = doc := by
      simpa only [document?, draftLenient, Option.some.injEq] using h
    refine ⟨_, hdoc.symm, ?_⟩
    rw [draftFieldsLenient_fst, List.forall₂_map_right_iff, List.forall₂_same]
    exact fun field _ ↦ ⟨rfl, rfl⟩

/-- **Documents are objects.** For every shape, converted strictly or leniently at any path:

* its document, if the conversion makes one, is an object, and so is every document inside it;
* the traversal that converts strictly or leniently does what the two conversions do; the lenient
  one needs nothing to stand in for the whole shape, whatever that would be;
* the document of the shape as nullable is that of the shape with null written among its keywords;
* the document of the shape with a default is that of the shape with `default` written among them;
* if the shape is an object, its document has a property for each field, in their order, with the
  field's document, and the names that it requires are some of the fields' in the same order. -/
theorem documents_are_objects (shape : Shape) (mode : Conversion.Mode) :
    (∀ doc, shape.document? mode = some doc → Draft.AllObjects doc) ∧
    (shape.convertStrict = shape.draft ∧
      ∀ root path, shape.convertLenient root path = shape.draftLenient path) ∧
    (∀ doc, (nullable shape).document? mode = some doc ↔
      ∃ keywords, shape.document? mode = some (.obj keywords) ∧ doc = Draft.withNull keywords) ∧
    (∀ value doc, (defaulted shape value).document? mode = some doc ↔
      ∃ keywords, shape.document? mode = some (.obj keywords) ∧
        doc = .obj (Keyed.insert keywords "default" value)) ∧
    ∀ fields, shape = .object fields → ∀ doc, shape.document? mode = some doc →
      ∃ properties required, doc.get? "properties" = some (.obj properties) ∧
        List.Forall₂ (fun field property ↦ property.1 = field.1 ∧
          field.2.document? (mode.under (.field field.1)) = some property.2) fields properties ∧
        doc.get? "required" = (if required = [] then none else some (.arr (required.map .str))) ∧
        required.Sublist (Keyed.keys fields) := by
  refine ⟨fun doc hdoc ↦ allObjects_of_document? hdoc,
    ⟨convertStrict_eq_draft shape, fun root path ↦ convertLenient_eq_draftLenient root path shape⟩,
    fun doc ↦ ?_, fun value doc ↦ ?_, ?_⟩
  · rw [document?_nullable, map_document?_eq_some]
    simp only [Draft.nullable_obj]
  · rw [document?_defaulted]
    exact map_document?_eq_some
  · rintro fields rfl doc hdoc
    obtain ⟨properties, rfl, hproperties⟩ := exists_properties_of_document? hdoc
    have hsublist : (requiredNames fields).Sublist (Keyed.keys fields) :=
      List.filter_sublist.map Prod.fst
    refine ⟨properties, requiredNames fields, rfl, hproperties, ?_, hsublist⟩
    cases requiredNames fields <;> rfl

/-- A ticket, whose price may be null inside and outside of a default, and whose seat has no
document. -/
def ticket : Shape :=
  .object [
    ("price", .nullable (.defaulted (.nullable (.string none none none none)) .null)),
    ("seat", .optional (.union [.other "Symbol", .null]))]

theorem documents_are_objects_ticket :
    ticket.document? .strict = none ∧
    ∃ doc, ticket.document? (.lenient [.items]) = some doc ∧ Draft.AllObjects doc ∧
      (∃ price seat, doc.get? "properties" = some (.obj [("price", price), ("seat", seat)])) ∧
      (∃ required : List String, doc.get? "required" = some (.arr (required.map .str)) ∧
        required.Sublist ["price", "seat"]) ∧
      ∃ keywords, ticket.document? (.lenient [.items]) = some (.obj keywords) ∧
        (nullable ticket).document? (.lenient [.items]) = some (Draft.withNull keywords) ∧
        (defaulted ticket .null).document? (.lenient [.items]) =
          some (.obj (Keyed.insert keywords "default" .null)) := by
  obtain ⟨hobjects, -, hnullable, hdefaulted, hobject⟩ :=
    documents_are_objects ticket (.lenient [.items])
  obtain ⟨properties, required, hproperties, hfields, hrequired, hsublist⟩ := hobject _ rfl _ rfl
  obtain ⟨keywords, hkeywords, -⟩ := (hnullable _).1 rfl
  obtain _ | @⟨_, price, _, _, ⟨hprice, -⟩, hseats⟩ := hfields
  obtain _ | @⟨_, seat, _, _, ⟨hseat, -⟩, ⟨⟩⟩ := hseats
  have hprice' : price = ("price", price.2) := Prod.ext hprice rfl
  have hseat' : seat = ("seat", seat.2) := Prod.ext hseat rfl
  refine ⟨rfl, _, rfl, hobjects _ rfl, ⟨price.2, seat.2, ?_⟩, ⟨required, ?_, hsublist⟩, keywords,
    hkeywords, (hnullable _).2 ⟨keywords, hkeywords, rfl⟩,
    (hdefaulted _ _).2 ⟨keywords, hkeywords, rfl⟩⟩
  · rw [hproperties, ← hprice', ← hseat']
  · rw [hrequired, if_neg]
    rintro rfl
    cases hrequired

end Shape

end ContentSchema
