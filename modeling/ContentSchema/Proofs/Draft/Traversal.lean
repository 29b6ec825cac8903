import ContentSchema.Proofs.Draft.Lenient
/-!
# Conversion as one traversal

Both conversions of a shape are one traversal, `Shape.convert`. It keeps the path to where it is
and, if it is lenient, the failures so far. `Conversion.child` is the only place that meets a
failure: a strict traversal ends there, and a lenient one records it and goes on with the fallback
document.

`gives_convert` says what the traversal does from any state, so for both kinds at once, in terms of
the lenient conversion: it comes back to the path where it began, and all failures are those of the
shapes below. Hence a lenient traversal has a document, and never needs another fallback for the
whole shape (`convertLenient_eq_draftLenient`).
-/

namespace ContentSchema

/-- Where a traversal is; it has a list of failures if it is lenient. -/
structure Traversal where
  path : Path
  failures : Option (List Failure)

/-- Parts of a traversal. One that fails still leaves the traversal somewhere. -/
abbrev Conversion := ExceptT ConversionError (StateM Traversal)

namespace Conversion

/-- Replaces an error by the fallback document where failures are recorded. -/
def recover (result : Except ConversionError Json) :
    StateM Traversal (Except ConversionError Json) :=
  fun state ↦
    match result, state.failures with
    | .error error, some failures =>
      (.ok Draft.fallback, { state with failures := some (failures ++ [⟨state.path, error⟩]) })
    | result, _ => (result, state)

/-- Converts a shape that is one hop away, or at the same place, and comes back. -/
def child (hop : Option Hop) (convert : Conversion Json) : Conversion Json := ExceptT.mk do
  modify fun state ↦ { state with path := state.path ++ hop.toList }
  let result ← recover (← convert.run)
  modify fun state ↦ { state with path := if hop.isSome then state.path.dropLast else state.path }
  return result

end Conversion

namespace Shape

open Conversion

mutual

/-- The traversal of a shape. -/
def convert : Shape → Conversion Json
  | .object fields => do return Draft.object (← convertFields fields) (requiredNames fields)
  | .array element minItems maxItems => do
    return Draft.array (← child (some .items) (convert element)) minItems maxItems
  | .variants _ options => do return Draft.anyOf (← convertAll none options)
  | .union options => do return Draft.anyOf (← convertAll none options)
  | .optional inner => child none (convert inner)
  | .nullable inner => do return Draft.nullable (← child none (convert inner))
  | .defaulted inner value => do return Draft.withDefault (← child none (convert inner)) value
  | .effects inner => child none (convert inner)
  | .record value => do return Draft.record (← child none (convert value))
  | .tuple items => do return Draft.tuple (← convertAll (some .items) items)
  | leaf => ofExcept leaf.draft

/-- The traversal of shapes that are all the same hop away. -/
def convertAll (hop : Option Hop) : List Shape → Conversion (List Json)
  | [] => return []
  | shape :: shapes => do
    let doc ← child hop (convert shape)
    let docs ← convertAll hop shapes
    return doc :: docs

/-- The traversal of the fields of an object. -/
def convertFields : List (String × Shape) → Conversion (List (String × Json))
  | [] => return []
  | (name, shape) :: fields => do
    let doc ← child (some (.field name)) (convert shape)
    let docs ← convertFields fields
    return (name, doc) :: docs

end

end Shape

/-! ### What a traversal does -/

/-- How a traversal goes on from failures and a value: strict at the first failure, or lenient with
the value and the failures behind those before. -/
def Traversal.meet {α : Type} (state : Traversal) (failures : List Failure) (value : α) :
    Except ConversionError α × Traversal :=
  match state.failures with
  | none => (unlessFailed failures value, state)
  | some before => (.ok value, { state with failures := some (before ++ failures) })

namespace Conversion

variable {α β : Type} {path : Path} {failures rest : List Failure}

/-- At a path the traversal meets the failures and has the value, and comes back to the path. -/
def Yields (convert : Conversion α) (path : Path) (failures : List Failure) (value : α) : Prop :=
  ∀ before, convert.run.run ⟨path, before⟩ = Traversal.meet ⟨path, before⟩ failures value

theorem yields_pure (value : α) : Yields (pure value) path [] value := by
  rintro (_ | before)
  · rfl
  · simp only [Traversal.meet, List.append_nil]
    rfl

/-- A traversal goes on from the state in which the one before it ended, and stops at an error. -/
theorem run_bind (convert : Conversion α) (next : α → Conversion β) (state : Traversal) :
    (convert >>= next).run.run state =
      match convert.run.run state with
      | (.ok value, after) => (next value).run.run after
      | (.error error, after) => (.error error, after) := by
  rw [ExceptT.run_bind, StateT.run_bind]
  rcases convert.run.run state with ⟨_ | _, _⟩ <;> rfl

/-- What comes next meets its failures behind those that were there before. -/
theorem Yields.bind {convert : Conversion α} {next : α → Conversion β} {value : α} {other : β}
    (h : Yields convert path failures value) (hnext : Yields (next value) path rest other) :
    Yields (convert >>= next) path (failures ++ rest) other := by
  rintro (_ | before)
  · rw [run_bind, h none]
    cases failures with
    | nil => exact hnext none
    | cons failure failures => rfl
  · rw [run_bind, h (some before)]
    refine (hnext (some (before ++ failures))).trans ?_
    simp only [Traversal.meet, List.append_assoc]

theorem Yields.map {convert : Conversion α} {value : α} (h : Yields convert path failures value)
    (f : α → β) : Yields (do return f (← convert)) path failures (f value) := by
  have hmap : Yields (do return f (← convert)) path (failures ++ []) (f value) :=
    h.bind (yields_pure (f value))
  rwa [List.append_nil] at hmap

/-- At a path a shape has this lenient result: either the traversal has met the failures inside the
shape, or the shape itself has a result that needs no traversal. -/
inductive Gives (convert : Conversion Json) (path : Path) : Converted → Prop where
  | inside {converted : Converted} (h : Yields convert path converted.failures converted.doc) :
      Gives convert path converted
  | leaf {result : Except ConversionError Json} (h : convert = ofExcept result) :
      Gives convert path (.ofExcept path result)

theorem run_ofExcept (result : Except ConversionError α) (state : Traversal) :
    (ofExcept result : Conversion α).run.run state = (result, state) := by
  cases result <;> rfl

/-- A child is converted one step further down, and the path is restored after it. -/
theorem run_child (hop : Option Hop) (convert : Conversion Json) (state : Traversal) :
    (child hop convert).run.run state =
      match convert.run.run { state with path := state.path ++ hop.toList } with
      | (result, after) =>
        match recover result after with
        | (result, after) =>
          (result, { after with path := if hop.isSome then after.path.dropLast else after.path }) :=
  rfl

/-- A child is done with when the traversal has met all its failures, its own among them. -/
theorem Gives.child (hop : Option Hop) {convert : Conversion Json} {converted : Converted}
    (h : Gives convert (path ++ hop.toList) converted) :
    Yields (child hop convert) path converted.failures converted.doc := by
  have hback :
      (if hop.isSome then (path ++ hop.toList).dropLast else path ++ hop.toList) = path := by
    cases hop <;> simp
  intro before
  rw [run_child]
  cases h with
  | inside h =>
    rw [h before]
    cases before with
    | none =>
      cases hfailures : converted.failures <;> simp [Traversal.meet, unlessFailed, recover, hback]
    | some before => simp [Traversal.meet, recover, hback]
  | @leaf result h =>
    rw [h, run_ofExcept]
    cases result <;> cases before <;>
      simp [Traversal.meet, Converted.ofExcept, unlessFailed, recover, hback]

/-- Without a hop the shape stands where the traversal is. -/
theorem Gives.here {convert : Conversion Json} {converted : Converted}
    (h : Gives convert path converted) :
    Yields (Conversion.child none convert) path converted.failures converted.doc :=
  Gives.child none (by rwa [Option.toList_none, List.append_nil])

/-- A strict traversal ends at the first failure. -/
theorem Gives.run_strict {convert : Conversion Json} {converted : Converted}
    (h : Gives convert path converted) :
    convert.run.run ⟨path, none⟩ =
      (unlessFailed converted.failures converted.doc, ⟨path, none⟩) := by
  cases h with
  | inside h => exact h none
  | @leaf result h =>
    rw [h, run_ofExcept, ← Converted.ofExcept_unlessFailed]

end Conversion

namespace Shape

open Conversion

mutual

/-- The traversal of a shape meets the failures of the lenient conversion and has its document. -/
theorem gives_convert : ∀ (shape : Shape) (path : Path),
    Gives shape.convert path (shape.draftLenient path)
  | .object fields, path => by
    simp only [draftLenient, convert]
    exact .inside ((yields_convertFields fields path).map fun docs ↦
      Draft.object docs (requiredNames fields))
  | .array element minItems maxItems, path => by
    have helement := (gives_convert element (path ++ [.items])).child (some .items)
    simp only [draftLenient, convert]
    exact .inside (helement.map fun doc ↦ Draft.array doc minItems maxItems)
  | .variants _ options, path | .union options, path => by
    have hoptions := yields_convertAll none options path
    rw [Option.toList_none, List.append_nil] at hoptions
    simp only [draftLenient, convert]
    exact .inside (hoptions.map Draft.anyOf)
  | .tuple items, path => by
    simp only [draftLenient, convert]
    exact .inside ((yields_convertAll (some .items) items path).map Draft.tuple)
  | .optional inner, path | .effects inner, path => by
    simp only [draftLenient, convert]
    exact .inside (gives_convert inner path).here
  | .nullable inner, path => by
    simp only [draftLenient, convert]
    exact .inside ((gives_convert inner path).here.map Draft.nullable)
  | .defaulted inner value, path => by
    simp only [draftLenient, convert]
    exact .inside ((gives_convert inner path).here.map fun doc ↦ Draft.withDefault doc value)
  | .record value, path => by
    simp only [draftLenient, convert]
    exact .inside ((gives_convert value path).here.map Draft.record)
  | .literal _, _ | .number .., _ | .enumeration _, _ | .other _, _ | .unrecognized, _
  | .string .., _ | .boolean, _ | .date, _ | .null, _ | .any, _ | .reference _, _ => .leaf rfl

theorem yields_convertAll : ∀ (hop : Option Hop) (shapes : List Shape) (path : Path),
    Yields (convertAll hop shapes) path (draftAllLenient (path ++ hop.toList) shapes).2
      (draftAllLenient (path ++ hop.toList) shapes).1
  | _, [], _ => yields_pure []
  | hop, shape :: shapes, path => by
    have hfirst := (gives_convert shape (path ++ hop.toList)).child hop
    have hrest := yields_convertAll hop shapes path
    simp only [draftAllLenient, convertAll]
    exact hfirst.bind (hrest.map _)

theorem yields_convertFields : ∀ (fields : List (String × Shape)) (path : Path),
    Yields (convertFields fields) path (draftFieldsLenient path fields).2
      (draftFieldsLenient path fields).1
  | [], _ => yields_pure []
  | (name, shape) :: fields, path => by
    have hfirst := (gives_convert shape (path ++ [.field name])).child (some (.field name))
    have hrest := yields_convertFields fields path
    simp only [draftFieldsLenient, convertFields]
    exact hfirst.bind (hrest.map _)

end

/-- The strict conversion of a shape as a traversal. -/
def convertStrict (shape : Shape) : Except ConversionError Json :=
  (shape.convert.run.run ⟨[], none⟩).1

/-- The lenient conversion of a shape as a traversal; `root` stands in for the whole shape should
the traversal fail. -/
def convertLenient (root : Json) (path : Path) (shape : Shape) : Converted :=
  match (child none shape.convert).run.run ⟨path, some []⟩ with
  | (.ok doc, after) => ⟨doc, after.failures.getD []⟩
  | (.error _, after) => ⟨root, after.failures.getD []⟩

/-- Without a list of failures the traversal is the strict conversion. -/
theorem convertStrict_eq_draft (shape : Shape) : shape.convertStrict = shape.draft := by
  rw [convertStrict, (gives_convert shape []).run_strict, ← draft_eq_unlessFailed]

/-- A lenient traversal does not fail, so that nothing has to stand in for the whole shape. -/
theorem convertLenient_eq_draftLenient (root : Json) (path : Path) (shape : Shape) :
    shape.convertLenient root path = shape.draftLenient path := by
  have hrun : (child none shape.convert).run.run ⟨path, some []⟩ =
      (.ok (shape.draftLenient path).doc, ⟨path, some (shape.draftLenient path).failures⟩) :=
    (gives_convert shape path).here (some [])
  rw [convertLenient, hrun]
  rfl

end Shape

end ContentSchema
