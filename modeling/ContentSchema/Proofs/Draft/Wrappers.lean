import ContentSchema.Proofs.Draft.Meaning
import ContentSchema.Proofs.Walk.Sites
/-!
# What wrappers do to documents

`valid_nullable_iff` says which values the document of a nullable shape admits: those of the shape
inside and null, unless what is inside all wrappers is a literal or an enumeration. Such a document
gets null among its types, but the values that it lists stay as they are, and null is none of them.

Only the type of a document is rewritten, so the proof is about what stands beside it. A document
without a type is put into a union; in every other one the type is one rule and all the rest another
(`valid_iff_isOfOne`), and what the rest says of null is read off the keywords (`valid_null_iff`).
`Begins` has what shapes make sure of: that a list of types has null already, that a document with a
type is not a union, and which documents list their values.

`requires_iff_wrappers` says which wrappers let a field of an object be absent: optional and default,
if they stand outside the outermost nullable.
-/

namespace ContentSchema

namespace Draft

variable {Matches : String → String → Prop} {keywords : List (String × Json)} {value types : Json}

/-! ### The type and the rest -/

/-- The type of a document is one rule, and all else that it says another. -/
theorem valid_iff_isOfOne (htype : Keyed.find? keywords "type" = some types) :
    Valid Matches (.obj keywords) value ↔
      types.IsOfOne value ∧ Valid Matches (.obj (Keyed.erase keywords "type")) value := by
  have herase : Keyed.find? (Keyed.erase keywords "type") "type" = none := by
    rw [Keyed.find?_erase, if_pos rfl]
  have hother : ∀ name, name ≠ "type" →
      Keyed.find? (Keyed.erase keywords "type") name = Keyed.find? keywords name :=
    fun name hname ↦ by rw [Keyed.find?_erase, if_neg hname.symm]
  -- no keyword that leads to a part of the value is called `type`
  have hchild : Child (Keyed.erase keywords "type") value = Child keywords value := by
    refine child_congr (fun name hname ↦ hother name ?_) value
    rintro rfl
    exact absurd hname (by decide)
  have hsatisfies : Satisfies keywords Matches value ↔
      types.IsOfOne value ∧ Satisfies (Keyed.erase keywords "type") Matches value := by
    simp only [Satisfies, Sized, AtLeast, AtMost, htype, herase, hother "const" (by decide),
      hother "enum" (by decide), hother "minLength" (by decide), hother "maxLength" (by decide),
      hother "pattern" (by decide), hother "minimum" (by decide), hother "maximum" (by decide),
      hother "minItems" (by decide), hother "maxItems" (by decide), hother "required" (by decide)]
    simp
  rw [Valid, Valid, hsatisfies, hchild, hother "anyOf" (by decide), and_assoc]

/-- Another type leaves all else that a document says. -/
theorem valid_insert_type (others : Json) :
    Valid Matches (.obj (Keyed.insert keywords "type" others)) value ↔
      others.IsOfOne value ∧ Valid Matches (.obj (Keyed.erase keywords "type")) value := by
  rw [valid_iff_isOfOne (by rw [Keyed.find?_insert, if_pos rfl])]
  refine and_congr_right fun _ ↦ valid_congr (fun name _ ↦ ?_) value
  rw [Keyed.find?_erase, Keyed.find?_erase, Keyed.find?_insert]
  split <;> rfl

variable (keywords) in
/-- If a document lists the values that it admits, then null is one of them. -/
def LeavesNull : Prop :=
  (∀ constant, Keyed.find? keywords "const" = some constant → constant = .null) ∧
  ∀ constants, Keyed.find? keywords "enum" = some (.arr constants) → .null ∈ constants

/-- Of null nothing but the type and the listed values says anything. -/
theorem valid_null_iff (hanyOf : Keyed.find? keywords "anyOf" = none) :
    Valid Matches (.obj (Keyed.erase keywords "type")) .null ↔ LeavesNull keywords := by
  rw [Valid]
  simp [Satisfies, Sized, Child, LeavesNull, Keyed.find?_erase, hanyOf]

/-! ### How documents begin -/

/-- The names of types. -/
def typeNames : List String := ["null", "boolean", "integer", "number", "string", "array", "object"]

/-- What a document says of types and of the values that it admits: `constant` tells whether it lists
values of which null is none, and `null` whether null is the one type that it names. -/
inductive Begins (constant null : Prop) (keywords : List (String × Json)) : Prop where
  | untyped (htype : Keyed.find? keywords "type" = none) (hconstant : ¬constant) (hnull : ¬null) :
      Begins constant null keywords
  | typed {type : String} (htype : Keyed.find? keywords "type" = some (.str type))
      (hname : type ∈ typeNames) (hnull : type = "null" ↔ null)
      (hanyOf : Keyed.find? keywords "anyOf" = none)
      (hconstant : LeavesNull keywords ↔ ¬constant) : Begins constant null keywords
  | listed {types : List Json} (htype : Keyed.find? keywords "type" = some (.arr types))
      (hmem : .str "null" ∈ types) (hnull : ¬null) (hanyOf : Keyed.find? keywords "anyOf" = none)
      (hconstant : LeavesNull keywords ↔ ¬constant) : Begins constant null keywords

/-- A document without a type becomes an alternative to null. -/
theorem nullable_untyped (htype : Keyed.find? keywords "type" = none) :
    nullable (.obj keywords) = anyOf [.obj keywords, typed "null"] := by
  simp only [nullable, htype]

/-- A document with one type gets null as a second one. -/
theorem nullable_typed {type : String} (htype : Keyed.find? keywords "type" = some (.str type)) :
    nullable (.obj keywords) =
      .obj (Keyed.insert keywords "type" (.arr [.str type, .str "null"])) := by
  simp only [nullable, htype]

/-- A document whose types list null already stays as it is. -/
theorem nullable_listed {types : List Json} (htype : Keyed.find? keywords "type" = some (.arr types))
    (hmem : .str "null" ∈ types) : nullable (.obj keywords) = .obj keywords := by
  simp only [nullable, htype, List.contains_iff_mem.2 hmem, if_true]

/-- Only the keywords that list values can keep null out. -/
theorem leavesNull_insert {key : String} (hconst : key ≠ "const") (henum : key ≠ "enum") :
    LeavesNull (Keyed.insert keywords key value) ↔ LeavesNull keywords := by
  rw [LeavesNull, LeavesNull, Keyed.find?_insert, Keyed.find?_insert, if_neg hconst, if_neg henum]

theorem leavesNull_of_find? (hconst : Keyed.find? keywords "const" = none)
    (henum : Keyed.find? keywords "enum" = none) : LeavesNull keywords := by
  simp [LeavesNull, hconst, henum]

/-- A document with one type other than null that lists no values. -/
theorem begins_of_type {type : String} (htype : Keyed.find? keywords "type" = some (.str type))
    (hname : type ∈ typeNames.tail) (hconst : Keyed.find? keywords "const" = none)
    (henum : Keyed.find? keywords "enum" = none) (hanyOf : Keyed.find? keywords "anyOf" = none) :
    Begins False False keywords := by
  have hne : type ≠ "null" := by
    rintro rfl
    exact absurd hname (by decide)
  exact .typed htype (List.mem_of_mem_tail hname) (iff_false_intro hne) hanyOf
    (iff_of_true (leavesNull_of_find? hconst henum) not_false)

namespace Begins

variable {constant null : Prop}

/-- A keyword of another kind may be written. -/
theorem insert (h : Begins constant null keywords) {key : String}
    (hkey : key ∉ ["type", "const", "enum", "anyOf"]) (value : Json) :
    Begins constant null (Keyed.insert keywords key value) := by
  simp only [List.mem_cons, List.not_mem_nil, or_false, not_or] at hkey
  obtain ⟨htype', hconst, henum, hanyOf'⟩ := hkey
  have hleaves : LeavesNull (Keyed.insert keywords key value) ↔ LeavesNull keywords :=
    leavesNull_insert hconst henum
  cases h with
  | untyped htype hconstant hnull =>
    exact .untyped (by rwa [Keyed.find?_insert, if_neg htype']) hconstant hnull
  | typed htype hname hnull hanyOf hconstant =>
    exact .typed (by rwa [Keyed.find?_insert, if_neg htype']) hname hnull
      (by rwa [Keyed.find?_insert, if_neg hanyOf']) (hleaves.trans hconstant)
  | listed htype hmem hnull hanyOf hconstant =>
    exact .listed (by rwa [Keyed.find?_insert, if_neg htype']) hmem hnull
      (by rwa [Keyed.find?_insert, if_neg hanyOf']) (hleaves.trans hconstant)

/-- What admits null besides names no type, or null among others. -/
theorem nullable (h : Begins constant null keywords) :
    ∃ others, Draft.nullable (.obj keywords) = .obj others ∧ Begins constant False others := by
  cases h with
  | untyped htype hconstant hnull =>
    exact ⟨_, nullable_untyped htype, .untyped rfl hconstant not_false⟩
  | typed htype hname hnull hanyOf hconstant =>
    refine ⟨_, nullable_typed htype, .listed (by rw [Keyed.find?_insert, if_pos rfl]) (by simp)
      not_false (by rwa [Keyed.find?_insert, if_neg (by decide)]) ?_⟩
    exact (leavesNull_insert (by decide) (by decide)).trans hconstant
  | listed htype hmem hnull hanyOf hconstant =>
    exact ⟨_, nullable_listed htype hmem, .listed htype hmem not_false hanyOf hconstant⟩

end Begins

/-! ### Kinds -/

theorem begins_object (properties : List (String × Json)) (required : List String) :
    ∃ keywords, object properties required = .obj keywords ∧ Begins False False keywords := by
  refine ⟨_, rfl, begins_of_type rfl (by decide) ?_ ?_ ?_⟩ <;>
    cases required <;> simp [Keyed.find?_cons]

theorem begins_array (items : Json) (minItems maxItems : Option Nat) :
    ∃ keywords, array items minItems maxItems = .obj keywords ∧ Begins False False keywords := by
  refine ⟨_, rfl, begins_of_type rfl (by decide) ?_ ?_ ?_⟩ <;> simp [Keyed.find?_cons]

theorem begins_string (format : Option String) (minLength maxLength : Option Nat)
    (pattern : Option String) :
    ∃ keywords, string format minLength maxLength pattern = .obj keywords ∧
      Begins False False keywords := by
  refine ⟨_, rfl, begins_of_type rfl (by decide) ?_ ?_ ?_⟩ <;> simp [Keyed.find?_cons]

theorem begins_number {integer : Bool} {minimum maximum : Option Real64} {doc : Json}
    (h : number integer minimum maximum = .ok doc) :
    ∃ keywords, doc = .obj keywords ∧ Begins False False keywords := by
  obtain ⟨bounds, rfl, hother⟩ := exists_bounds_of_number h
  refine ⟨_, rfl, begins_of_type rfl (by cases integer <;> decide) ?_ ?_ ?_⟩ <;>
    simp [Keyed.find?_cons, hother]

end Draft

/-! ### Shapes -/

namespace Shape

/-- The shape is of one value or of one of several, and not of null. -/
def IsConstant : Shape → Prop
  | .literal value => value ≠ .null
  | .enumeration _ => True
  | _ => False

/-- The shape is of null only, and no wrapper says once more that it may be null. -/
def IsNull : Shape → Prop
  | .optional inner | .defaulted inner _ | .effects inner => IsNull inner
  | .null | .literal .null => True
  | _ => False

/-- What the documents of shapes say of types and of the values that they admit. -/
theorem exists_begins_of_draft : ∀ (shape : Shape) {doc : Json}, shape.draft = .ok doc →
    ∃ keywords, doc = .obj keywords ∧ Draft.Begins shape.core.IsConstant shape.IsNull keywords
  | .object fields, _, h => by
    rw [draft] at h
    obtain ⟨docs, -, rfl⟩ := exists_of_map_eq_ok h
    exact Draft.begins_object docs _
  | .array _ minItems maxItems, _, h => by
    rw [draft] at h
    obtain ⟨doc, -, rfl⟩ := exists_of_map_eq_ok h
    exact Draft.begins_array doc minItems maxItems
  | .variants _ _, _, h | .union _, _, h => by
    rw [draft] at h
    obtain ⟨docs, -, rfl⟩ := exists_of_map_eq_ok h
    exact ⟨_, rfl, .untyped rfl not_false not_false⟩
  | .record _, _, h | .tuple _, _, h => by
    rw [draft] at h
    obtain ⟨_, -, rfl⟩ := exists_of_map_eq_ok h
    exact ⟨_, rfl, Draft.begins_of_type rfl (by decide) rfl rfl rfl⟩
  | .optional inner, _, h | .effects inner, _, h => exists_begins_of_draft inner h
  | .nullable inner, _, h => by
    rw [draft] at h
    obtain ⟨doc, hdoc, rfl⟩ := exists_of_map_eq_ok h
    obtain ⟨keywords, rfl, hbegins⟩ := exists_begins_of_draft inner hdoc
    exact hbegins.nullable
  | .defaulted inner value, _, h => by
    rw [draft] at h
    obtain ⟨doc, hdoc, rfl⟩ := exists_of_map_eq_ok h
    obtain ⟨keywords, rfl, hbegins⟩ := exists_begins_of_draft inner hdoc
    exact ⟨_, rfl, hbegins.insert (by decide) value⟩
  | .string format minLength maxLength pattern, _, h => by
    obtain rfl := Except.ok.inj h
    exact Draft.begins_string format minLength maxLength pattern
  | .number .., _, h => Draft.begins_number h
  | .boolean, _, h | .date, _, h | .reference _, _, h => by
    obtain rfl := Except.ok.inj h
    exact ⟨_, rfl, Draft.begins_of_type rfl (by decide) rfl rfl rfl⟩
  | .any, _, h => by
    obtain rfl := Except.ok.inj h
    exact ⟨_, rfl, .untyped rfl not_false not_false⟩
  | .null, _, h | .literal .null, _, h => by
    obtain rfl := Except.ok.inj h
    refine ⟨_, rfl, .typed rfl (by decide) (iff_of_true rfl trivial) rfl ?_⟩
    exact iff_of_true (Draft.leavesNull_of_find? rfl rfl) (by simp [core, IsConstant])
  | .literal (.bool value), _, h | .literal (.num value), _, h | .literal (.str value), _, h => by
    obtain rfl := Except.ok.inj h
    refine ⟨_, rfl, .typed rfl (by decide) (iff_of_false (by decide) not_false) rfl ?_⟩
    exact iff_of_false (fun hleaves ↦ nomatch hleaves.1 _ rfl) (not_not.2 nofun)
  | .enumeration values, _, h => by
    rw [draft, Draft.enumeration] at h
    split at h
    · cases h
    · obtain rfl := Except.ok.inj h
      refine ⟨_, rfl, .typed rfl (by decide) (iff_of_false (by decide) not_false) rfl ?_⟩
      exact iff_of_false (fun hleaves ↦ by simpa using hleaves.2 _ rfl) (not_not.2 trivial)
  | .literal (.arr _), _, h | .literal (.obj _), _, h => nomatch h
  | .other _, _, h | .unrecognized, _, h => nomatch h

/-! ### Nullable -/

variable {Matches : String → String → Prop}

/-- **Nullable is inner or null, but for listed values.** The document of a nullable shape admits
what the document inside admits. It admits null besides, unless the shape inside all wrappers is a
literal or an enumeration: those documents list their values, and null does not get among them. -/
theorem valid_nullable_iff {shape : Shape} {doc : Json} (hdoc : shape.draft = .ok doc) :
    ∃ nullDoc, (nullable shape).draft = .ok nullDoc ∧ ∀ value,
      Draft.Valid Matches nullDoc value ↔
        Draft.Valid Matches doc value ∨ value = .null ∧ ¬shape.core.IsConstant := by
  obtain ⟨keywords, rfl, hbegins⟩ := exists_begins_of_draft shape hdoc
  refine ⟨_, by rw [draft, hdoc]; rfl, fun value ↦ ?_⟩
  cases hbegins with
  | untyped htype hconstant hnull =>
    rw [Draft.nullable_untyped htype, Draft.valid_anyOf]
    simp [Draft.valid_typed, hconstant]
  | @typed type htype hname hnull hanyOf hconstant =>
    have hvalues : Draft.Valid Matches (.obj (Keyed.erase keywords "type")) .null ↔
        ¬shape.core.IsConstant := (Draft.valid_null_iff hanyOf).trans hconstant
    have htypes : (Json.arr [.str type, .str "null"]).IsOfOne value ↔
        (Json.str type).IsOfOne value ∨ value = .null := by
      simp [Json.IsOfOne, or_and_right, exists_or]
    rw [Draft.nullable_typed htype, Draft.valid_insert_type, Draft.valid_iff_isOfOne htype, htypes,
      or_and_right]
    refine or_congr_right (and_congr_right ?_)
    rintro rfl
    exact hvalues
  | listed htype hmem hnull hanyOf hconstant =>
    -- null is among the types already, so that nothing changes
    rw [Draft.nullable_listed htype hmem]
    refine (or_iff_left_of_imp ?_).symm
    rintro ⟨rfl, hopen⟩
    refine (Draft.valid_iff_isOfOne htype).2 ⟨⟨_, hmem, Json.isOf_null.2 rfl⟩, ?_⟩
    exact (Draft.valid_null_iff hanyOf).2 (hconstant.2 hopen)

/-- A tag may be left out and is a fixed text, so it cannot be null for all that; a list of dates
can. -/
theorem valid_nullable_iff_tag :
    (∃ doc, (nullable (.optional (.literal (.str "tag")))).draft = .ok doc ∧
      Draft.Valid (fun _ _ ↦ True) doc (.str "tag") ∧ ¬Draft.Valid (fun _ _ ↦ True) doc .null) ∧
    ∃ doc, (nullable (.array .date none (some 2))).draft = .ok doc ∧
      Draft.Valid (fun _ _ ↦ True) doc .null := by
  constructor
  · obtain ⟨doc, hdoc, hvalid⟩ :=
      @valid_nullable_iff (fun _ _ ↦ True) (.optional (.literal (.str "tag"))) _ rfl
    have hliteral : ∀ value, Draft.Valid (fun _ _ ↦ True)
        (.obj [("type", .str "string"), ("const", .str "tag")]) value ↔ value = .str "tag" :=
      fun value ↦ (Draft.valid_literal rfl).trans Json.str_same
    refine ⟨doc, hdoc, (hvalid _).2 (.inl ((hliteral _).2 rfl)), fun hnull ↦ ?_⟩
    rcases (hvalid _).1 hnull with hnull | ⟨-, hopen⟩
    · cases (hliteral _).1 hnull
    · exact hopen nofun
  · obtain ⟨doc, hdoc, hvalid⟩ :=
      @valid_nullable_iff (fun _ _ ↦ True) (.array .date none (some 2)) _ rfl
    exact ⟨doc, hdoc, (hvalid _).2 (.inr ⟨rfl, not_false⟩)⟩

end Shape

/-! ### Required fields -/

namespace Draft

/-- The document requires a member of this name. -/
def Requires (doc : Json) (name : String) : Prop :=
  ∃ names, doc.get? "required" = some (.arr names) ∧ .str name ∈ names

/-- An object document requires what it lists as required. -/
theorem requires_object {properties : List (String × Json)} {required : List String} {name : String} :
    Requires (object properties required) name ↔ name ∈ required := by
  cases required <;> simp [Requires, object, Json.get?, Keyed.find?_cons]

end Draft

namespace Shape

/-- A field must be there unless a wrapper outside the outermost nullable says otherwise. -/
theorem not_mayBeAbsent_iff : ∀ (shape : Shape), ¬shape.mayBeAbsent ↔
    ∀ kind ∈ shape.wrappers.takeWhile (· ≠ .nullable), kind ≠ .optional ∧ kind ≠ .defaulted
  | .effects inner => by
    have hinner := not_mayBeAbsent_iff inner
    simpa [mayBeAbsent, wrappers] using hinner
  | .optional _ | .defaulted _ _ | .nullable _ => by simp [mayBeAbsent, wrappers]
  | .object _ | .array .. | .variants .. | .union _ | .literal _ | .string .. | .number .. | .boolean
  | .date | .null | .any | .enumeration _ | .record _ | .tuple _ | .reference _ | .other _
  | .unrecognized => by simp [mayBeAbsent, wrappers]

/-- **Required fields.** The document of an object requires a field exactly if no wrapper around the
field's shape is optional or default, of those that stand outside the outermost nullable. -/
theorem requires_iff_wrappers {fields : List (String × Shape)} (hkeys : Keyed.DistinctKeys fields)
    {doc : Json} (hdoc : (object fields).draft = .ok doc) {name : String} {shape : Shape}
    (hfield : (name, shape) ∈ fields) :
    Draft.Requires doc name ↔
      ∀ kind ∈ shape.wrappers.takeWhile (· ≠ .nullable), kind ≠ .optional ∧ kind ≠ .defaulted := by
  rw [draft] at hdoc
  obtain ⟨docs, -, rfl⟩ := exists_of_map_eq_ok hdoc
  rw [Draft.requires_object, mem_requiredNames, ← not_mayBeAbsent_iff]
  constructor
  · rintro ⟨other, hother, hpresent⟩
    -- under distinct keys the name stands for one field only
    have heq := (hkeys.find?_eq_of_mem hother).symm.trans (hkeys.find?_eq_of_mem hfield)
    exact Option.some.inj heq ▸ hpresent
  · exact fun hpresent ↦ ⟨shape, hfield, hpresent⟩

/-- A post: only an optional around the nullable lets its subtitle be absent, while one inside it does
not let its author be. -/
def post : Shape :=
  .object [("subtitle", .effects (.optional (.nullable .boolean))),
    ("author", .nullable (.effects (.optional .date)))]

theorem requires_iff_wrappers_post :
    ∃ doc, post.draft = .ok doc ∧ ¬Draft.Requires doc "subtitle" ∧ Draft.Requires doc "author" := by
  obtain ⟨doc, hdoc⟩ : ∃ doc, post.draft = .ok doc := ⟨_, rfl⟩
  have hkeys : Keyed.DistinctKeys [("subtitle", Shape.effects (.optional (.nullable .boolean))),
      ("author", .nullable (.effects (.optional .date)))] := by simp
  refine ⟨doc, hdoc, ?_, ?_⟩
  · rw [requires_iff_wrappers hkeys hdoc List.mem_cons_self]
    decide
  · rw [requires_iff_wrappers hkeys hdoc (List.mem_cons_of_mem _ List.mem_cons_self)]
    decide

end Shape

end ContentSchema
