import ContentSchema.Report
import ContentSchema.Proofs.Text.Table
/-!
# The tables of Markdown reports

A report in Markdown has a table with a row for each field of a collection, and one with a row for
each collection of a set. What the cells hold is taken over as it is: the names of fields and of
collections, and the texts of types and formats. Only the separator of a list of types has its pipe
behind a backslash. So each table has its rows as its lines, with three and four cells, exactly if
all texts that are taken over fit into a cell, and otherwise it has not even as many such lines as
there are fields or collections (`tables_iff_fit`).

Whether a cell fits is a matter of its characters alone: no bare pipe in it and no line's ending.
What is written beside the texts that are taken over, such as counts and the answer whether a field
is required, always fits, and the label of a type fits if the texts in it do (`fits_typeLabel`).
-/

namespace ContentSchema

/-- The texts in the type cell of a schema document that are taken over from it. -/
def Json.typeTexts (schema : Json) : List String :=
  match schema.get? "type" with
  | some (.str type) => type :: ((schema.get? "format").bind asString?).toList
  | some (.arr types) => types.filterMap asString?
  | _ => []

namespace Markdown

/-! ### Types in cells -/

/-- The separator of a list of types parts no cell, since its pipe stands behind a backslash. -/
theorem fits_intercalate (types : List String) :
    Fits (String.intercalate " \\| " types).toList ↔ ∀ type ∈ types, Fits type.toList := by
  rw [String.toList_intercalate, ← List.forall_mem_map (f := String.toList) (P := Fits)]
  induction types.map String.toList with
  | nil => exact ⟨fun _ ↦ List.forall_mem_nil _, fun _ ↦ by decide⟩
  | cons type rest ih =>
    cases rest with
    | nil => simp
    | cons next rest =>
      have hseparator : Fits " \\| ".toList := by decide
      rw [List.intercalate_cons_cons, List.append_assoc, fits_append (.inr (by simp)),
        fits_append (.inl (by decide)), and_iff_right hseparator, ih]
      exact List.forall_mem_cons.symm

/-- The separator of a type label is escaped, so the label fits if the names in it do. -/
theorem fits_typeLabel (schema : Json) :
    Fits schema.typeLabel.toList ↔ ∀ text ∈ schema.typeTexts, Fits text.toList := by
  unfold Json.typeLabel
  split
  next type htype =>
    have htexts : schema.typeTexts =
        type :: ((schema.get? "format").bind Json.asString?).toList := by
      simp only [Json.typeTexts, htype]
    rw [htexts, List.forall_mem_cons]
    split
    next format hformat =>
      have hlabel : (type ++ " (" ++ format ++ ")").toList =
          type.toList ++ (" (".toList ++ (format.toList ++ ")".toList)) := by
        simp only [String.toList_append, List.append_assoc]
      rw [hlabel, fits_append (.inr (by simp)),
        fits_between (by decide) (by decide) (by decide) (by decide), hformat]
      simp
    next hformat => simp [hformat]
  next types htype =>
    have htexts : schema.typeTexts = types.filterMap Json.asString? := by
      simp only [Json.typeTexts, htype]
    rw [htexts]
    exact fits_intercalate _
  next hstr harr =>
    have htexts : schema.typeTexts = [] := by
      unfold Json.typeTexts
      split
      next type htype => exact absurd htype (hstr type)
      next types htype => exact absurd htype (harr types)
      next => rfl
    rw [htexts]
    refine iff_of_true ?_ (List.forall_mem_nil _)
    split_ifs <;> decide

/-! ### Rows and tables -/

/-- The cells of the row of a field. -/
def fieldCells (required : List String) (field : String × Json) : List (List Char) :=
  ["`" ++ field.1 ++ "`", field.2.typeLabel,
    if required.contains field.1 then "yes" else "no"].map String.toList

/-- The cells of the table of the fields of a schema, row by row. -/
def fieldRows (schema : Json) : List (List (List Char)) :=
  schema.properties.map (fieldCells schema.requiredFields)

/-- The cells of the row of a collection. -/
def collectionCells (entry : String × Collection) : List (List Char) :=
  ["`" ++ entry.1 ++ "`", entry.2.type.name, toString entry.2.schema.properties.length,
    toString entry.2.unions.length].map String.toList

/-- The cells of the table of the collections of a set, row by row. -/
def collectionRows (set : SchemaSet) : List (List (List Char)) :=
  set.collections.map collectionCells

/-- The table of the collections of a set. -/
def collectionTable (set : SchemaSet) : String :=
  "| Collection | Type | Fields | Block unions |\n|------------|------|--------|--------------|\n"
    ++ String.join (set.collections.map collectionRow) ++ "\n"

theorem toList_fieldRow (required : List String) (field : String × Json) :
    (fieldRow required field).toList = row (fieldCells required field) ++ ['\n'] := by
  simp [fieldRow, fieldCells, row]

theorem toList_collectionRow (entry : String × Collection) :
    (collectionRow entry).toList = row (collectionCells entry) ++ ['\n'] := by
  simp [collectionRow, collectionCells, row]

/-- A head of two lines and a line for each entry are a table as it is written. -/
theorem toList_table {α : Type} {head titles dashes : String} {line : α → String}
    {cells : α → List (List Char)} (hhead : head = titles ++ "\n" ++ dashes ++ "\n")
    (hline : ∀ entry, (line entry).toList = row (cells entry) ++ ['\n']) (entries : List α) :
    (head ++ String.join (entries.map line) ++ "\n").toList =
      written titles.toList dashes.toList (entries.map cells) := by
  simp [hhead, written, String.toList_join, List.flatMap_map, hline]

/-- The table of the fields is written row by row under its heading. -/
theorem toList_fieldTable {schema : Json} (h : schema.properties ≠ []) :
    (fieldTable schema).toList =
      written "| Field | Type | Required |".toList "|-------|------|----------|".toList
        (fieldRows schema) := by
  unfold fieldTable
  rw [if_neg (by simpa using h)]
  exact toList_table (by simp) (toList_fieldRow _) _

theorem toList_collectionTable (set : SchemaSet) :
    (collectionTable set).toList =
      written "| Collection | Type | Fields | Block unions |".toList
        "|------------|------|--------|--------------|".toList (collectionRows set) :=
  toList_table (by simp) toList_collectionRow _

/-! ### Rows that fit -/

/-- The texts that the rows of the fields take over fit into their cells. -/
def FieldsFit (schema : Json) : Prop :=
  ∀ field ∈ schema.properties, ∀ text ∈ field.1 :: field.2.typeTexts, Fits text.toList

instance (schema : Json) : Decidable (FieldsFit schema) :=
  inferInstanceAs (Decidable
    (∀ field ∈ schema.properties, ∀ text ∈ field.1 :: field.2.typeTexts, Fits text.toList))

/-- The names of the collections of a set fit into their cells. -/
def KeysFit (set : SchemaSet) : Prop := ∀ entry ∈ set.collections, Fits entry.1.toList

instance (set : SchemaSet) : Decidable (KeysFit set) :=
  inferInstanceAs (Decidable (∀ entry ∈ set.collections, Fits entry.1.toList))

/-- The marks around a name in code type do not break a row. -/
theorem fits_code (name : String) : Fits ("`" ++ name ++ "`").toList ↔ Fits name.toList := by
  rw [String.toList_append, String.toList_append, List.append_assoc]
  exact fits_between (by decide) (by decide) (by decide) (by decide)

/-- Digits do not break a row. -/
theorem fits_toString (n : Nat) : Fits (toString n).toList := by
  have hdigits : ∀ c ∈ (toString n).toList, c.isDigit = true := by
    rw [Nat.toString_eq_ofList_toDigits, String.toList_ofList]
    exact fun c ↦ Nat.isDigit_of_mem_toDigits (by decide) (by decide)
  have hnot (c : Char) (hc : c.isDigit = false) : c ∉ (toString n).toList := by
    intro hmem
    rw [hdigits c hmem] at hc
    cases hc
  refine fits_of_notMem (fun c hmem ↦ ⟨?_, ?_⟩) (hnot '|' rfl)
  · rintro rfl
    exact hnot '\n' rfl hmem
  · rintro rfl
    exact hnot '\r' rfl hmem

/-- The cells of a field fit if its name and its types do; the third cell is yes or no. -/
theorem fits_fieldCells (required : List String) (field : String × Json) :
    (∀ cell ∈ fieldCells required field, Fits cell) ↔
      ∀ text ∈ field.1 :: field.2.typeTexts, Fits text.toList := by
  have hanswer : Fits (if required.contains field.1 then "yes" else "no").toList := by
    split_ifs <;> decide
  rw [fieldCells, List.forall_mem_map, List.forall_mem_cons, List.forall_mem_cons, fits_code,
    fits_typeLabel, List.forall_mem_singleton, and_iff_left hanswer, List.forall_mem_cons]

/-- Of the cells of a collection only its name can break a row. -/
theorem fits_collectionCells (entry : String × Collection) :
    (∀ cell ∈ collectionCells entry, Fits cell) ↔ Fits entry.1.toList := by
  have htype : Fits entry.2.type.name.toList := by
    cases entry.2.type <;> decide
  rw [collectionCells, List.forall_mem_map, List.forall_mem_cons, List.forall_mem_cons,
    List.forall_mem_cons, List.forall_mem_singleton, fits_code]
  exact and_iff_left ⟨htype, fits_toString _, fits_toString _⟩

/-! ### Tables of pages -/

/-- The table stands in the page behind an empty line. -/
def StandsIn (table page : String) : Prop :=
  ∃ before after, page = before ++ "\n\n" ++ table ++ after

theorem standsIn_collectionPage (mark : String) (collection : Collection) :
    StandsIn (fieldTable collection.schema) (collectionPage mark collection) := by
  refine ⟨mark ++ " " ++ collection.name ++ " (" ++ collection.type.name ++ ")",
    String.join (collection.unions.map unionBlock) ++ warningList collection.warnings, ?_⟩
  simp only [collectionPage, String.append_assoc, String.reduceAppend]

/-- A set with collections is a table and their pages behind what it says about itself. -/
theorem exists_setPage_eq {set : SchemaSet} (h : set.collections ≠ []) :
    ∃ before, setPage set = before ++ "\n\n" ++ collectionTable set ++
      String.join (set.collections.map fun entry ↦ collectionPage "##" entry.2) := by
  have hne : ¬set.collections.isEmpty = true := by simpa using h
  -- a rewrite of the page would compare the titles with what is matched, character by character
  exact ⟨_, (congrArg (_ ++ ·) (if_neg hne)).trans (String.append_assoc ..).symm⟩

/-- Each collection has its table in the page of the set. -/
theorem standsIn_setPage {set : SchemaSet} {name : String} {collection : Collection}
    (h : (name, collection) ∈ set.collections) :
    StandsIn (fieldTable collection.schema) (setPage set) := by
  obtain ⟨head, hpage⟩ := exists_setPage_eq (List.ne_nil_of_mem h)
  obtain ⟨front, back, hcollections⟩ := List.append_of_mem h
  obtain ⟨before, after, htable⟩ := standsIn_collectionPage "##" collection
  let page : String × Collection → String := fun entry ↦ collectionPage "##" entry.2
  refine ⟨head ++ "\n\n" ++ collectionTable set ++ String.join (front.map page) ++ before,
    after ++ String.join (back.map page), ?_⟩
  have hpages : String.join ((front ++ (name, collection) :: back).map page) =
      String.join (front.map page) ++ (before ++ "\n\n" ++ fieldTable collection.schema ++ after ++
        String.join (back.map page)) := by
    rw [List.map_append, List.map_cons, String.join_append, String.join_cons, ← htable]
  rw [hpage, hcollections, hpages]
  simp only [String.append_assoc]

/-- The fields are written as the table that is meant if all texts fit, and otherwise as no table of
so many rows. -/
theorem isTable_fieldTable_iff {schema : Json} (h : schema.properties ≠ []) :
    (IsTable 3 ((fieldRows schema).map row) (fieldTable schema).toList ↔ FieldsFit schema) ∧
    ((∃ found : List (List Char), found.length = schema.properties.length ∧
      IsTable 3 found (fieldTable schema).toList) ↔ FieldsFit schema) := by
  have hfits : FieldsFit schema ↔ ∀ cells ∈ fieldRows schema, ∀ cell ∈ cells, Fits cell := by
    rw [fieldRows, List.forall_mem_map]
    exact forall₂_congr fun field _ ↦ (fits_fieldCells _ field).symm
  rw [toList_fieldTable h, hfits, ← List.length_map (fieldCells schema.requiredFields)]
  exact isTable_written_iff (by decide) (by decide) (by decide)
    (List.forall_mem_map.2 fun _ _ ↦ rfl)

/-- The same of the collections and their names. -/
theorem isTable_collectionTable_iff (set : SchemaSet) :
    (IsTable 4 ((collectionRows set).map row) (collectionTable set).toList ↔ KeysFit set) ∧
    ((∃ found : List (List Char), found.length = set.collections.length ∧
      IsTable 4 found (collectionTable set).toList) ↔ KeysFit set) := by
  have hfits : KeysFit set ↔ ∀ cells ∈ collectionRows set, ∀ cell ∈ cells, Fits cell := by
    rw [collectionRows, List.forall_mem_map]
    exact forall₂_congr fun entry _ ↦ (fits_collectionCells entry).symm
  rw [toList_collectionTable, hfits, ← List.length_map collectionCells]
  exact isTable_written_iff (by decide) (by decide) (by decide)
    (List.forall_mem_map.2 fun _ _ ↦ rfl)

/-- The table of a collection's fields stands in the report of the collection and in those of the
sets that have it, and the table of a set's collections stands in the report of the set. Such a
table has the rows in their order as its lines, of three cells and of four, exactly if all texts fit
that its cells take over: the names of the fields and the texts of their types, or the names of the
collections. If one does not fit, it is not even a table of as many lines with as many cells. -/
theorem tables_iff_fit (collection : Collection) (set : SchemaSet) :
    (collection.schema.properties ≠ [] →
      let table := fieldTable collection.schema
      (StandsIn table (collection.report .markdown) ∧
        ∀ name, (name, collection) ∈ set.collections → StandsIn table (set.report .markdown)) ∧
      (IsTable 3 ((fieldRows collection.schema).map row) table.toList ↔
        FieldsFit collection.schema) ∧
      ((∃ found : List (List Char), found.length = collection.schema.properties.length ∧
        IsTable 3 found table.toList) ↔ FieldsFit collection.schema)) ∧
    (set.collections ≠ [] →
      let table := collectionTable set
      StandsIn table (set.report .markdown) ∧
      (IsTable 4 ((collectionRows set).map row) table.toList ↔ KeysFit set) ∧
      ((∃ found : List (List Char), found.length = set.collections.length ∧
        IsTable 4 found table.toList) ↔ KeysFit set)) := by
  refine ⟨fun hfields ↦ ⟨⟨?_, fun name hmem ↦ ?_⟩, ?_⟩, fun hentries ↦ ⟨?_, ?_⟩⟩
  · exact standsIn_collectionPage "#" collection
  · exact standsIn_setPage hmem
  · exact isTable_fieldTable_iff hfields
  · obtain ⟨before, hpage⟩ := exists_setPage_eq hentries
    exact ⟨before, _, hpage⟩
  · exact isTable_collectionTable_iff set

/-- The table of a field `title` is one, and that of a field with a pipe in its name is none, nor is
that of a collection with such a name. -/
theorem tables_iff_fit_pages :
    let collection (field : String) : Collection :=
      ⟨"pages", .content,
        .obj [("properties", .obj [(field, .obj [("type", .str "string")])])], [], []⟩
    let set (name : String) : SchemaSet := ⟨"1.0.0", none, "now", [(name, collection "title")]⟩
    IsTable 3 ["| `title` | string | no |".toList] (fieldTable (collection "title").schema).toList ∧
      IsTable 4 ["| `pages` | content | 1 | 0 |".toList] (collectionTable (set "pages")).toList ∧
      (¬∃ found : List (List Char), found.length = 1 ∧
        IsTable 3 found (fieldTable (collection "a|b").schema).toList) ∧
      ¬∃ found : List (List Char), found.length = 1 ∧
        IsTable 4 found (collectionTable (set "a|b")).toList := by
  intro collection set
  have hfields (field : String) :=
    ((tables_iff_fit (collection field) (set "pages")).1 (List.cons_ne_nil _ _)).2
  have hentries (name : String) :=
    ((tables_iff_fit (collection "title") (set name)).2 (List.cons_ne_nil _ _)).2
  refine ⟨?_, ?_, fun htable ↦ ?_, fun htable ↦ ?_⟩
  · have hrows : (fieldRows (collection "title").schema).map row =
        ["| `title` | string | no |".toList] := by decide +kernel
    exact hrows ▸ (hfields "title").1.2 (by decide)
  · have hrows : (collectionRows (set "pages")).map row =
        ["| `pages` | content | 1 | 0 |".toList] := by decide +kernel
    exact hrows ▸ (hentries "pages").1.2 (by decide)
  · exact absurd ((hfields "a|b").2.1 htable) (by decide)
  · exact absurd ((hentries "a|b").2.1 htable) (by decide)

end Markdown

end ContentSchema
