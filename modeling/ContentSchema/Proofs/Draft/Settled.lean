import ContentSchema.Draft.Convert
import ContentSchema.Proofs.Draft.Documents
import ContentSchema.Proofs.Shape.DistinctFields
/-!
# Documents without repeated members

The document of a settled shape is settled (`settled_draftLenient`): each kind makes an object with
distinct members of the documents of the shapes inside it, the properties of an object are a
dictionary because its fields are, and a member that a wrapper adds is written into a dictionary.

The only values in a document that are not made here are the literals and defaults of the shape, and
those are settled because the shape is. A document without repeated members is read back from its
text as it was, and is known by what stands at its places (`Json.Settled.eq_of_outline_at?_eq`).
-/

namespace ContentSchema

namespace Keyed

variable {α : Type}

theorem mem_insert {entries : Keyed α} {key : String} {value : α} {entry : String × α}
    (h : entry ∈ entries.insert key value) : entry ∈ entries ∨ entry.2 = value := by
  induction entries with
  | nil => exact .inr (congrArg Prod.snd (List.mem_singleton.1 h))
  | cons first rest ih =>
    obtain ⟨name, old⟩ := first
    rw [insert] at h
    split at h
    · rcases List.mem_cons.1 h with rfl | h
      · exact .inr rfl
      · exact .inl (List.mem_cons_of_mem _ h)
    · rcases List.mem_cons.1 h with rfl | h
      · exact .inl List.mem_cons_self
      · exact (ih h).imp_left (List.mem_cons_of_mem _)

end Keyed

namespace Json

/-- Inserting a settled value keeps an object settled, whether its key was there or not. -/
theorem Settled.insert {members : List (String × Json)} (h : (obj members).Settled) (key : String)
    {value : Json} (hvalue : value.Settled) : (obj (Keyed.insert members key value)).Settled := by
  obtain ⟨hkeys, hmembers⟩ := settled_obj.1 h
  refine settled_obj.2 ⟨hkeys.insert key value, fun member hmember ↦ ?_⟩
  rcases Keyed.mem_insert hmember with hmember | hmember
  · exact hmembers member hmember
  · exact hmember ▸ hvalue

/-- A value that holds no others is settled. -/
theorem settled_of_isContainer_eq_false {value : Json} (h : value.isContainer = false) :
    value.Settled := by
  cases value with
  | arr _ | obj _ => cases h
  | _ => simp

end Json

/-! ### Kinds -/

namespace Draft

theorem settled_fallback : fallback.Settled := by simp [fallback]

theorem settled_typed (type : String) : (typed type).Settled := by simp [typed]

/-- An object document is settled if its properties are, with distinct keys. -/
theorem settled_object {properties : List (String × Json)} (hkeys : Keyed.DistinctKeys properties)
    (hproperties : ∀ property ∈ properties, property.2.Settled) (required : List String) :
    (object properties required).Settled := by
  cases required <;> simpa [object, hkeys] using hproperties

theorem settled_array {items : Json} (h : items.Settled) (minItems maxItems : Option Nat) :
    (array items minItems maxItems).Settled := by
  cases minItems <;> cases maxItems <;> simp [array, counted, h]

theorem settled_tuple {items : List Json} (h : ∀ item ∈ items, item.Settled) :
    (tuple items).Settled := by
  simpa [tuple] using h

theorem settled_record {values : Json} (h : values.Settled) : (record values).Settled := by
  simpa [record] using h

theorem settled_anyOf {options : List Json} (h : ∀ option ∈ options, option.Settled) :
    (anyOf options).Settled := by
  simpa [anyOf] using h

/-- Admitting null as well keeps a document settled: it changes the type, or wraps the document. -/
theorem settled_nullable {doc : Json} (h : doc.Settled) : (nullable doc).Settled := by
  have hunion : (anyOf [doc, typed "null"]).Settled := settled_anyOf (by simp [h, settled_typed])
  unfold nullable
  split
  next members =>
    split
    next type _ => exact h.insert "type" (by simp)
    next types htypes =>
      have hmembers := (Json.settled_obj.1 h).2
      have hlist : ∀ type ∈ types, type.Settled :=
        Json.settled_arr.1 (hmembers _ (Keyed.mem_of_find? htypes))
      split
      · exact h
      · exact h.insert "type" (Json.settled_arr.2 (List.forall_mem_append.2 ⟨hlist, by simp⟩))
    next => exact hunion
  next => exact hunion

theorem settled_withDefault {doc value : Json} (h : doc.Settled) (hvalue : value.Settled) :
    (withDefault doc value).Settled := by
  cases doc with
  | obj members => exact h.insert "default" hvalue
  | _ => exact h

theorem settled_string (format : Option String) (minLength maxLength : Option Nat)
    (pattern : Option String) : (string format minLength maxLength pattern).Settled := by
  cases format <;> cases minLength <;> cases maxLength <;> cases pattern <;>
    simp [string, texted, counted]

theorem settled_reference (collection : String) : (reference collection).Settled := by
  simp [reference]

/-- A literal has a document only if its value holds no others. -/
theorem settled_literal {value doc : Json} (h : literal value = .ok doc) : doc.Settled := by
  cases value with
  | arr _ | obj _ => cases h
  | _ =>
    obtain rfl := Except.ok.inj h
    simp [typed]

theorem settled_enumeration {values : List String} {doc : Json}
    (h : enumeration values = .ok doc) : doc.Settled := by
  unfold enumeration at h
  split at h
  · cases h
  · obtain rfl := Except.ok.inj h
    simp

/-- A bound writes one keyword with a number, or nothing. -/
theorem bounded_eq_ok {name : String} {value : Option Real64} {members : List (String × Json)}
    (h : bounded name value = .ok members) : members = [] ∨ ∃ n, members = [(name, .num n)] := by
  cases value with
  | none => exact .inl (Except.ok.inj h).symm
  | some value =>
    obtain ⟨number, hnumber, rfl⟩ := exists_of_map_eq_ok h
    obtain ⟨x, n, -, rfl, -⟩ := exists_of_bound hnumber
    exact .inr ⟨n, rfl⟩

theorem settled_number {integer : Bool} {minimum maximum : Option Real64} {doc : Json}
    (h : number integer minimum maximum = .ok doc) : doc.Settled := by
  obtain ⟨least, hleast, h⟩ := exists_of_bind_eq_ok h
  obtain ⟨greatest, hgreatest, h⟩ := exists_of_bind_eq_ok h
  obtain rfl := Except.ok.inj h
  obtain rfl | ⟨n, rfl⟩ := bounded_eq_ok hleast <;>
    obtain rfl | ⟨m, rfl⟩ := bounded_eq_ok hgreatest <;> simp

end Draft

/-- What holds of the fallback and of the document of a result holds of the lenient document. -/
theorem Converted.doc_ofExcept {p : Json → Prop} {result : Except ConversionError Json}
    (path : Path) (hfallback : p Draft.fallback) (h : ∀ doc, result = .ok doc → p doc) :
    p (Converted.ofExcept path result).doc := by
  cases result with
  | ok doc => exact h doc rfl
  | error error => exact hfallback

/-! ### Shapes -/

namespace Shape

/-- The documents of a list are those of its shapes, one by one. -/
theorem draftAllLenient_fst (path : Path) (shapes : List Shape) :
    (draftAllLenient path shapes).1 = shapes.map fun shape ↦ (shape.draftLenient path).doc := by
  induction shapes with
  | nil => rfl
  | cons shape shapes ih => rw [draftAllLenient, List.map_cons, ← ih]

/-- The documents of some fields stand at their names, in order. -/
theorem draftFieldsLenient_fst (path : Path) (fields : List (String × Shape)) :
    (draftFieldsLenient path fields).1 =
      fields.map fun field ↦ (field.1, (field.2.draftLenient (path ++ [.field field.1])).doc) := by
  induction fields with
  | nil => rfl
  | cons field fields ih => rw [draftFieldsLenient, List.map_cons, ← ih]

/-- A lenient document has each of its members once if the shape names each of its fields once. -/
theorem settled_draftLenient {shape : Shape} (h : shape.Settled) (path : Path) :
    (shape.draftLenient path).doc.Settled := by
  induction h generalizing path with
  | @intro shape here parts ih =>
    obtain ⟨hkeys, hvalues⟩ := here
    have hall : ∀ (place : Path), ∀ doc ∈ (draftAllLenient place shape.parts).1, doc.Settled := by
      intro place doc hdoc
      rw [draftAllLenient_fst] at hdoc
      obtain ⟨part, hpart, rfl⟩ := List.mem_map.1 hdoc
      exact ih part hpart place
    cases shape with
    | object fields =>
      refine Draft.settled_object ?_ ?_ _
      · rw [draftFieldsLenient_fst, Keyed.DistinctKeys, Keyed.keys, List.map_map]
        exact hkeys fields rfl
      · intro property hproperty
        rw [draftFieldsLenient_fst] at hproperty
        obtain ⟨field, hfield, rfl⟩ := List.mem_map.1 hproperty
        exact ih field.2 (List.mem_map_of_mem hfield) _
    | array element minItems maxItems =>
      exact Draft.settled_array (ih element List.mem_cons_self _) minItems maxItems
    | variants _ options | union options => exact Draft.settled_anyOf (hall path)
    | tuple items => exact Draft.settled_tuple (hall (path ++ [.items]))
    | optional inner | effects inner => exact ih inner List.mem_cons_self path
    | nullable inner => exact Draft.settled_nullable (ih inner List.mem_cons_self path)
    | defaulted inner value =>
      exact Draft.settled_withDefault (ih inner List.mem_cons_self path)
        (hvalues value List.mem_cons_self)
    | record value => exact Draft.settled_record (ih value List.mem_cons_self path)
    | literal value =>
      exact Converted.doc_ofExcept path Draft.settled_fallback fun _ ↦ Draft.settled_literal
    | number _ _ _ =>
      exact Converted.doc_ofExcept path Draft.settled_fallback fun _ ↦ Draft.settled_number
    | enumeration values =>
      exact Converted.doc_ofExcept path Draft.settled_fallback fun _ ↦ Draft.settled_enumeration
    | other _ | unrecognized => exact Draft.settled_fallback
    | string format minLength maxLength pattern => exact Draft.settled_string _ _ _ _
    | reference collection => exact Draft.settled_reference collection
    | boolean | null => exact Draft.settled_typed _
    | date | any => simp [draftLenient]

end Shape

end ContentSchema
