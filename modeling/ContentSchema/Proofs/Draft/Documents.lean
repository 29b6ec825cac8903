import Mathlib.Data.Int.CharZero
import ContentSchema.Proofs.Draft.Validity
/-!
# What each document admits

For every kind of document that is built here, the values that are valid against it, in terms of
validity against the documents inside it. These are the only proofs that open the documents keyword
by keyword; whatever is said about the documents of shapes follows from them.

A document inside an array must be an object: a list would stand for one schema per item. The sizes
that bounds allow are stated by `Within` and `Between`, without documents.

Each lemma has on one side that a value is valid against a document, and on the other what this asks
of the value and of the values inside it. Bounds are compared by their values, since a bound without
a fraction is written as an integer (`exists_of_bound`).
-/

namespace ContentSchema

/-! ### Bounds -/

/-- The size is in the range of two counts; one that is absent sets no bound. -/
def Within (least greatest : Option Nat) (size : Nat) : Prop :=
  (∀ n ∈ least, n ≤ size) ∧ ∀ n ∈ greatest, size ≤ n

/-- The value is in the range of two finite bounds; one that is absent sets no bound. -/
def Between (minimum maximum : Option Real64) (value : ℚ) : Prop :=
  (∀ x, .finite x ∈ minimum → x.value ≤ value) ∧ ∀ x, .finite x ∈ maximum → value ≤ x.value

/-- A double without a fraction has the value of the integer that it is read as. -/
theorem Binary64.value_of_toInt? {x : Binary64} {n : Int} (h : x.toInt? = some n) :
    x.value = n := by
  unfold toInt? at h
  unfold value
  generalize x.magnitude = magnitude at h ⊢
  obtain ⟨num, den⟩ := magnitude
  simp only [Option.ite_none_right_eq_some, Option.some.injEq] at h
  obtain ⟨hdvd, rfl⟩ := h
  have hquotient : (((num : ℤ) / (den : ℤ) : ℤ) : ℚ) = (num : ℚ) / den :=
    Int.cast_div_ofNat_charZero (Nat.dvd_of_mod_eq_zero hdvd)
  cases x.negative <;> simp [hquotient]

theorem exists_of_bind_eq_ok {ε α β : Type} {result : Except ε α} {f : α → Except ε β} {value : β}
    (h : result >>= f = .ok value) : ∃ a, result = .ok a ∧ f a = .ok value := by
  cases result with
  | error error => cases h
  | ok a => exact ⟨a, rfl, h⟩

theorem exists_of_map_eq_ok {ε α β : Type} {result : Except ε α} {f : α → β} {value : β}
    (h : result.map f = .ok value) : ∃ a, result = .ok a ∧ f a = value := by
  cases result with
  | error error => cases h
  | ok a => exact ⟨a, rfl, Except.ok.inj h⟩

namespace Draft

/-- A bound with a document is finite, and the document has its value. -/
theorem exists_of_bound {bound : Real64} {number : Json} (h : Draft.bound bound = .ok number) :
    ∃ x n, bound = .finite x ∧ number = .num n ∧ n.value = x.value := by
  cases bound with
  | finite x =>
    rw [Draft.bound] at h
    cases hint : x.toInt? with
    | none =>
      rw [hint] at h
      exact ⟨x, .real x, rfl, (Except.ok.inj h).symm, rfl⟩
    | some n =>
      have hvalue : x.value = n := Binary64.value_of_toInt? hint
      simp only [hint] at h
      split at h
      · exact ⟨x, .int n, rfl, (Except.ok.inj h).symm, hvalue.symm⟩
      · exact ⟨x, .real x, rfl, (Except.ok.inj h).symm, rfl⟩
  | _ => cases h

/-! ### Keywords that may be left out -/

@[simp] theorem find?_counted (name key : String) (count : Option Nat) :
    Keyed.find? (counted name count) key = if name = key then count.map Json.ofNat else none := by
  cases count with
  | none => simp [counted]
  | some n => simp [counted, Keyed.find?_cons]

@[simp] theorem find?_texted (name key : String) (text : Option String) :
    Keyed.find? (texted name text) key = if name = key then text.map Json.str else none := by
  cases text with
  | none => simp [texted]
  | some s => simp [texted, Keyed.find?_cons]

/-- A bound writes no keyword but its own. -/
theorem find?_bounded_of_ne {name key : String} {bound : Option Real64}
    {keywords : List (String × Json)} (h : bounded name bound = .ok keywords) (hne : name ≠ key) :
    Keyed.find? keywords key = none := by
  cases bound with
  | none =>
    obtain rfl := Except.ok.inj h
    rfl
  | some bound =>
    obtain ⟨number, -, rfl⟩ := exists_of_map_eq_ok h
    rw [Keyed.find?_cons, if_neg hne, Keyed.find?_nil]

/-- The document of a number has a type and its bounds, and nothing else. -/
theorem exists_bounds_of_number {integer : Bool} {minimum maximum : Option Real64} {doc : Json}
    (h : number integer minimum maximum = .ok doc) :
    ∃ bounds, doc = .obj (("type", .str (if integer then "integer" else "number")) :: bounds) ∧
      ∀ key, key ∉ ["minimum", "maximum"] → Keyed.find? bounds key = none := by
  obtain ⟨least, hleast, h⟩ := exists_of_bind_eq_ok h
  obtain ⟨greatest, hgreatest, h⟩ := exists_of_bind_eq_ok h
  refine ⟨least ++ greatest, by simpa using (Except.ok.inj h).symm, fun key hkey ↦ ?_⟩
  simp only [List.mem_cons, List.not_mem_nil, or_false, not_or] at hkey
  rw [Keyed.find?_append, find?_bounded_of_ne hleast (Ne.symm hkey.1),
    find?_bounded_of_ne hgreatest (Ne.symm hkey.2), Option.none_or]

/-- The keyword of a bound, if it is there, has the value of the bound. -/
theorem forall_bounded_iff {name : String} {bound : Option Real64} {keywords : List (String × Json)}
    (h : bounded name bound = .ok keywords) (rule : ℚ → Prop) :
    (∀ n, Keyed.find? keywords name = some (.num n) → rule n.value) ↔
      ∀ x, .finite x ∈ bound → rule x.value := by
  cases bound with
  | none =>
    obtain rfl := Except.ok.inj h
    simp
  | some bound =>
    obtain ⟨number, hnumber, rfl⟩ := exists_of_map_eq_ok h
    obtain ⟨x, n, rfl, rfl, hvalue⟩ := exists_of_bound hnumber
    simp [Keyed.find?_cons, hvalue]

variable {Matches : String → String → Prop} {value : Json}

/-! ### Documents without parts -/

theorem valid_any : Valid Matches (.obj []) value := by
  rw [Valid]
  cases value <;> simp [Satisfies, Sized, Child, AtLeast, AtMost, itemSchema?, memberSchema?]

/-- A document with nothing but a type admits the values of that type. -/
theorem valid_typed {type : String} : Valid Matches (typed type) value ↔ value.IsOf type := by
  rw [typed, valid_iff_of_type rfl rfl rfl rfl]
  cases value <;>
    simp [Keyed.find?_cons, Sized, Child, AtLeast, AtMost, itemSchema?, memberSchema?]

/-- A format is an annotation: only the length and the pattern of a text decide. -/
theorem valid_string {format pattern : Option String} {minLength maxLength : Option Nat} :
    Valid Matches (string format minLength maxLength pattern) value ↔
      ∃ text, value = .str text ∧ Within minLength maxLength text.length ∧
        ∀ expression ∈ pattern, Matches expression text := by
  rw [string, valid_iff_of_type rfl (by simp [Keyed.find?_cons]) (by simp [Keyed.find?_cons])
    (by simp [Keyed.find?_cons])]
  cases value with
  | str text =>
    simp [Keyed.find?_cons, Json.IsOf, Sized, AtLeast, AtMost, Child, Json.ofNat, Number.value,
      Within, and_assoc]
  | _ => simp [Json.IsOf]

theorem valid_reference {collection : String} :
    Valid Matches (reference collection) value ↔ ∃ text, value = .str text := by
  rw [reference, valid_iff_of_type rfl rfl rfl rfl]
  cases value with
  | str text => simp [Keyed.find?_cons, Json.IsOf, Sized, AtLeast, AtMost, Child]
  | _ => simp [Json.IsOf]

/-- A number document admits the numbers between its bounds, both of them included. -/
theorem valid_number {integer : Bool} {minimum maximum : Option Real64} {doc : Json}
    (h : number integer minimum maximum = .ok doc) :
    Valid Matches doc value ↔ ∃ n, value = .num n ∧ (integer → n.value.isInt) ∧
      Between minimum maximum n.value := by
  obtain ⟨least, hleast, h⟩ := exists_of_bind_eq_ok h
  obtain ⟨greatest, hgreatest, h⟩ := exists_of_bind_eq_ok h
  obtain rfl := Except.ok.inj h
  -- neither bound holds a keyword of the other or of any other rule
  have hother : ∀ key, "minimum" ≠ key → Keyed.find? least key = none :=
    fun key ↦ find?_bounded_of_ne hleast
  have hother' : ∀ key, "maximum" ≠ key → Keyed.find? greatest key = none :=
    fun key ↦ find?_bounded_of_ne hgreatest
  rw [valid_iff_of_type rfl (by simp [Keyed.find?_cons, hother, hother'])
    (by simp [Keyed.find?_cons, hother, hother']) (by simp [Keyed.find?_cons, hother, hother'])]
  cases value with
  | num n =>
    have hminimum := forall_bounded_iff hleast (· ≤ n.value)
    have hmaximum := forall_bounded_iff hgreatest (n.value ≤ ·)
    cases integer <;>
      simp [Keyed.find?_cons, Json.IsOf, Sized, AtLeast, AtMost, Child, hother, hother', Between,
        hminimum, hmaximum]
  | _ => cases integer <;> simp [Json.IsOf]

theorem valid_enumeration {values : List String} {doc : Json} (h : enumeration values = .ok doc) :
    Valid Matches doc value ↔ ∃ text ∈ values, value = .str text := by
  rw [enumeration] at h
  split at h
  · cases h
  · obtain rfl := Except.ok.inj h
    rw [Valid]
    cases value with
    | str text =>
      simp [Keyed.find?_cons, Satisfies, Json.IsOfOne, Json.IsOf, Sized, AtLeast, AtMost, Child]
    | _ => simp [Keyed.find?_cons, Satisfies, Json.IsOfOne, Json.IsOf]

/-- The document of a literal repeats its type; that of null has nothing else. -/
theorem valid_literal {constant doc : Json} (h : literal constant = .ok doc) :
    Valid Matches doc value ↔ constant.Same value := by
  cases constant with
  | null =>
    obtain rfl := Except.ok.inj h
    rw [valid_typed]
    cases value <;> simp [Json.IsOf]
  | bool _ | num _ | str _ =>
    obtain rfl := Except.ok.inj h
    rw [Valid]
    cases value <;>
      simp [Keyed.find?_cons, Satisfies, Json.IsOfOne, Json.IsOf, Sized, AtLeast, AtMost, Child]
  | _ => cases h

/-! ### Documents with parts -/

/-- No member may stand outside the properties, for all others are held to a document that admits
nothing. -/
theorem valid_object {properties : List (String × Json)} {required : List String} :
    Valid Matches (object properties required) value ↔ ∃ members, value = .obj members ∧
      (∀ name ∈ required, name ∈ Keyed.keys members) ∧ ∀ member ∈ members,
        ∃ doc, Keyed.find? properties member.1 = some doc ∧ Valid Matches doc member.2 := by
  rw [object, valid_iff_of_type rfl (by cases required <;> simp [Keyed.find?_cons])
    (by cases required <;> simp [Keyed.find?_cons]) (by cases required <;> simp [Keyed.find?_cons])]
  cases value with
  | obj members =>
    have hmember : ∀ name inner,
        Valid Matches ((Keyed.find? properties name).getD (.bool false)) inner ↔
          ∃ doc, Keyed.find? properties name = some doc ∧ Valid Matches doc inner := by
      intro name inner
      cases Keyed.find? properties name <;> simp [Valid]
    simp only [← hmember]
    cases required <;>
      simp [Keyed.find?_cons, Json.IsOf, Sized, Child, memberSchema?, Json.get?,
        @forall_comm Json]
  | _ => simp [Json.IsOf]

theorem valid_record {doc : Json} :
    Valid Matches (record doc) value ↔
      ∃ members, value = .obj members ∧ ∀ member ∈ members, Valid Matches doc member.2 := by
  rw [record, valid_iff_of_type rfl rfl rfl rfl]
  cases value with
  | obj members =>
    simp [Keyed.find?_cons, Json.IsOf, Sized, Child, memberSchema?, @forall_comm Json]
  | _ => simp [Json.IsOf]

/-- An array document admits lists of admitted items, of any length between its bounds. -/
theorem valid_array {keywords : List (String × Json)} {minItems maxItems : Option Nat} :
    Valid Matches (array (.obj keywords) minItems maxItems) value ↔ ∃ items, value = .arr items ∧
      Within minItems maxItems items.length ∧ ∀ item ∈ items, Valid Matches (.obj keywords) item := by
  rw [array, valid_iff_of_type rfl (by simp [Keyed.find?_cons]) (by simp [Keyed.find?_cons])
    (by simp [Keyed.find?_cons])]
  cases value with
  | arr items =>
    simp [Keyed.find?_cons, Json.IsOf, Sized, AtLeast, AtMost, Child, itemSchema?, Json.ofNat,
      Number.value, Within, List.mem_iff_getElem?]
  | _ => simp [Json.IsOf]

/-- The two counts fix the length, so that every item has a document and every document an item. -/
theorem valid_tuple {docs : List Json} :
    Valid Matches (tuple docs) value ↔
      ∃ items, value = .arr items ∧ List.Forall₂ (Valid Matches) docs items := by
  rw [tuple, valid_iff_of_type rfl rfl rfl rfl]
  cases value with
  | arr items =>
    have hlength : docs.length ≤ items.length ∧ items.length ≤ docs.length ↔
        docs.length = items.length := Nat.le_antisymm_iff.symm
    have hchildren : (∀ inner schema (index : Nat), items[index]? = some inner →
        docs[index]? = some schema → Valid Matches schema inner) ↔
          ∀ (index : Nat) (hdoc : index < docs.length) (hitem : index < items.length),
            Valid Matches docs[index] items[index] := by
      constructor
      · intro h index hdoc hitem
        exact h _ _ index (List.getElem?_eq_getElem hitem) (List.getElem?_eq_getElem hdoc)
      · intro h inner schema index hitem hdoc
        obtain ⟨hitems, rfl⟩ := List.getElem?_eq_some_iff.1 hitem
        obtain ⟨hdocs, rfl⟩ := List.getElem?_eq_some_iff.1 hdoc
        exact h index hdocs hitems
    simp [Keyed.find?_cons, Json.IsOf, Sized, AtLeast, AtMost, Child, itemSchema?, Json.ofNat,
      Number.value, hlength, hchildren, List.forall₂_iff_get]
  | _ => simp [Json.IsOf]

/-- A document of alternatives admits what one of them admits. -/
theorem valid_anyOf {docs : List Json} :
    Valid Matches (anyOf docs) value ↔ ∃ doc ∈ docs, Valid Matches doc value := by
  rw [anyOf, Valid]
  have hsatisfies : Satisfies [("anyOf", .arr docs)] Matches value := by
    cases value <;> simp [Keyed.find?_cons, Satisfies, Sized, AtLeast, AtMost]
  have hchild : ∀ inner schema, ¬Child [("anyOf", .arr docs)] value inner schema := by
    cases value <;> simp [Keyed.find?_cons, Child, itemSchema?, memberSchema?]
  simp [Keyed.find?_cons, hsatisfies, hchild]

/-- A default says nothing of which values are admitted. -/
theorem valid_withDefault {keywords : List (String × Json)} {default : Json} :
    Valid Matches (withDefault (.obj keywords) default) value ↔ Valid Matches (.obj keywords) value := by
  refine valid_congr (fun name hname ↦ ?_) value
  have hne : "default" ≠ name := by
    rintro rfl
    exact absurd hname (by decide)
  rw [Keyed.find?_insert, if_neg hne]

end Draft

end ContentSchema
