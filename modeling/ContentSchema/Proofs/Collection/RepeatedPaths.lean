import Mathlib.Data.String.Basic
import ContentSchema.Collection.Compile
import ContentSchema.Proofs.Collection.Findings
/-!
# Repeated paths

Two unions at one path are reported, and paths are compared by their display text. The text of a
path is its `Path.words` joined by points: the names of its fields taken apart at the points in
them, `[]` for array items, `<root>` for the empty path. So two paths have one text exactly if they
have the same words (`display_eq_display_iff`), and different paths can: a field `a.b` reads like a
field `b` of a field `a`, a field `[]` like array items, and a field `<root>` like the document
itself.

Paths that do without such names (`Path.IsPlain`) are told apart by their words. Among them exactly
the unions are reported whose path is that of an earlier union. A compiled collection, whose unions
all have paths of their own, is spared such findings only if no words repeat
(`repeatedPath_iff_words`).
-/

namespace ContentSchema

/-! ### Words -/

namespace Path

/-- The words of the text of a path. -/
def words : Path → List (List Char)
  | [] => ["<root>".toList]
  | path => path.flatMap fun hop ↦ hop.text.toList.splitOn '.'

/-- What is joined at points is split at points into the pieces of all parts. -/
theorem splitOn_intercalate_point {parts : List (List Char)} (hne : parts ≠ []) :
    (['.'].intercalate parts).splitOn '.' = parts.flatMap (·.splitOn '.') := by
  induction parts with
  | nil => exact absurd rfl hne
  | cons first rest ih =>
    cases rest with
    | nil => simp [List.intercalate_singleton]
    | cons second rest =>
      rw [List.intercalate_cons_cons, List.append_assoc, List.singleton_append,
        List.splitOn_append_cons_self, ih (List.cons_ne_nil second rest)]
      rfl

/-- The words of a path are what its display text is split into at points. -/
theorem splitOn_display (path : Path) : path.display.toList.splitOn '.' = path.words := by
  cases path with
  | nil => rfl
  | cons hop rest =>
    have htext : (display (hop :: rest)).toList =
        ['.'].intercalate ((hop :: rest).map fun hop ↦ hop.text.toList) := by
      rw [display, String.toList_intercalate, List.map_map]
      · rfl
      · exact List.cons_ne_nil hop rest
    rw [htext, splitOn_intercalate_point (by simp), List.flatMap_map]
    rfl

/-- Two paths have one text exactly if they have the same words. -/
theorem display_eq_display_iff {path other : Path} :
    path.display = other.display ↔ path.words = other.words := by
  rw [← splitOn_display, ← splitOn_display]
  refine ⟨fun h ↦ h ▸ rfl, fun h ↦ String.toList_inj.1 ?_⟩
  calc path.display.toList
      = ['.'].intercalate (path.display.toList.splitOn '.') := (List.intercalate_splitOn ..).symm
    _ = ['.'].intercalate (other.display.toList.splitOn '.') := by rw [h]
    _ = other.display.toList := List.intercalate_splitOn ..

end Path

/-! ### Plain paths -/

/-- The written form of a hop is not that of another one, nor of two. -/
def Hop.IsPlain : Hop → Prop
  | .items => True
  | .field name => '.' ∉ name.toList ∧ name ≠ marker

instance : DecidablePred Hop.IsPlain
  | .items => inferInstanceAs (Decidable True)
  | .field name => inferInstanceAs (Decidable ('.' ∉ name.toList ∧ name ≠ Hop.marker))

theorem Hop.IsPlain.ofText_text {hop : Hop} (h : hop.IsPlain) : Hop.ofText hop.text = hop := by
  cases hop with
  | items => exact ofText_text_items
  | field name => exact ofText_text_field h.2

theorem Hop.IsPlain.splitOn_text {hop : Hop} (h : hop.IsPlain) :
    hop.text.toList.splitOn '.' = [hop.text.toList] := by
  cases hop with
  | items => rfl
  | field name => exact List.splitOn_eq_singleton h.1

namespace Path

/-- The text of a path shows its hops, and it is not the text of the empty path. -/
def IsPlain (path : Path) : Prop := (∀ hop ∈ path, hop.IsPlain) ∧ path ≠ [.field "<root>"]

instance : DecidablePred IsPlain := fun path ↦
  inferInstanceAs (Decidable ((∀ hop ∈ path, hop.IsPlain) ∧ path ≠ [.field "<root>"]))

namespace IsPlain

variable {path other : Path}

/-- A path of plain hops has one word for each hop. -/
theorem words_eq (h : path.IsPlain) (hne : path ≠ []) :
    path.words = path.map fun hop ↦ hop.text.toList := by
  have hwords : path.words = path.flatMap fun hop ↦ hop.text.toList.splitOn '.' := by
    cases path with
    | nil => exact absurd rfl hne
    | cons hop rest => rfl
  rw [hwords, List.map_eq_flatMap]
  exact List.flatMap_congr fun hop hhop ↦ (h.1 hop hhop).splitOn_text

/-- A plain path can be read off the texts of its hops. -/
theorem eq_of_map_text_eq (h : path.IsPlain) (h' : other.IsPlain)
    (heq : path.map Hop.text = other.map Hop.text) : path = other := by
  have hread : ∀ {path : Path}, path.IsPlain → (path.map Hop.text).map Hop.ofText = path := by
    intro path h
    rw [List.map_map]
    exact (List.map_congr_left fun hop hhop ↦ (h.1 hop hhop).ofText_text).trans (List.map_id path)
  rw [← hread h, heq, hread h']

theorem words_ne_words_nil (h : path.IsPlain) (hne : path ≠ []) : path.words ≠ words [] := by
  intro heq
  rw [h.words_eq hne] at heq
  obtain ⟨hop, rfl⟩ := List.length_eq_one_iff.1 (show path.length = 1 by
    rw [← List.length_map, heq]
    rfl)
  have htext : hop.text = "<root>" := String.toList_inj.1 (List.head_eq_of_cons_eq heq)
  have hhop := (h.1 hop List.mem_cons_self).ofText_text
  rw [htext] at hhop
  exact h.2 (hhop ▸ rfl)

/-- Plain paths are told apart by their words. -/
theorem words_eq_words_iff (h : path.IsPlain) (h' : other.IsPlain) :
    path.words = other.words ↔ path = other := by
  refine ⟨fun heq ↦ ?_, fun heq ↦ heq ▸ rfl⟩
  by_cases hne : path = []
  · subst hne
    exact (by_contra fun hne' ↦ h'.words_ne_words_nil (Ne.symm hne') heq.symm)
  · by_cases hne' : other = []
    · subst hne'
      exact absurd heq (h.words_ne_words_nil hne)
    · rw [h.words_eq hne, h'.words_eq hne'] at heq
      refine h.eq_of_map_text_eq h' (List.map_injective_iff.2 (fun _ _ ↦ String.toList_inj.1) ?_)
      simpa [Function.comp_def] using heq

end IsPlain

end Path

/-! ### Findings about paths -/

/-- Whether the finding is about a path with two unions. -/
def Finding.isRepeatedPath : Finding → Bool
  | .repeatedPath _ => true
  | _ => false

theorem flatMap_ite_singleton {α β : Type*} (p : α → Prop) [DecidablePred p] (f : α → β)
    (xs : List α) : (xs.flatMap fun x ↦ if p x then [f x] else []) = (xs.filter p).map f := by
  induction xs with
  | nil => rfl
  | cons x xs ih => by_cases hx : p x <;> simp [hx, ih]

theorem VariantUnion.filter_isRepeatedPath_findings (union : VariantUnion) :
    union.findings.filter (·.isRepeatedPath) = [] := by
  refine List.filter_eq_nil_iff.2 fun finding hfinding ↦ ?_
  rcases List.mem_append.1 hfinding with hblank | hkeys
  · split at hblank
    · obtain rfl := List.mem_singleton.1 hblank
      exact Bool.false_ne_true
    · cases hblank
  · split at hkeys
    · obtain rfl := List.mem_singleton.1 hkeys
      exact Bool.false_ne_true
    · obtain ⟨key, rfl⟩ := exists_of_mem_repeatedKeys hkeys
      exact Bool.false_ne_true

namespace Collection

variable (collection : Collection)

/-- The path of a union is that of an earlier one. -/
def RepeatsPath (i : Fin collection.unions.length) : Prop :=
  ∃ j < i, (collection.unions.get j).path = (collection.unions.get i).path

/-- The path of a union has the words of an earlier one's. -/
def RepeatsWords (i : Fin collection.unions.length) : Prop :=
  ∃ j < i, (collection.unions.get j).path.words = (collection.unions.get i).path.words

instance : DecidablePred collection.RepeatsPath := fun i ↦
  inferInstanceAs (Decidable (∃ j < i, _))

instance : DecidablePred collection.RepeatsWords := fun i ↦
  inferInstanceAs (Decidable (∃ j < i, _))

/-- The finding that the path of a union is that of another one. -/
def repeatedPathAt (i : Fin collection.unions.length) : Finding :=
  .repeatedPath (collection.unions.get i).path.display

variable {collection} {i : Fin collection.unions.length}

theorem RepeatsPath.repeatsWords (h : collection.RepeatsPath i) : collection.RepeatsWords i := by
  obtain ⟨j, hlt, heq⟩ := h
  exact ⟨j, hlt, congrArg Path.words heq⟩

/-- Among plain paths words are as good as the paths. -/
theorem RepeatsWords.repeatsPath (hpaths : ∀ union ∈ collection.unions, union.path.IsPlain)
    (h : collection.RepeatsWords i) : collection.RepeatsPath i := by
  obtain ⟨j, hlt, heq⟩ := h
  have hplain : ∀ k : Fin collection.unions.length, (collection.unions.get k).path.IsPlain :=
    fun k ↦ hpaths _ (List.getElem_mem k.2)
  exact ⟨j, hlt, ((hplain j).words_eq_words_iff (hplain i)).1 heq⟩

/-- Where no two unions are at the same path, none repeats one. -/
theorem not_repeatsPath
    (hpairwise : collection.unions.Pairwise fun union other ↦ union.path ≠ other.path) :
    ¬ collection.RepeatsPath i := by
  rintro ⟨j, hlt, heq⟩
  exact List.pairwise_iff_getElem.1 hpairwise j i j.2 i.2 hlt heq

variable (collection)

/-- A union is reported once as a repeated path, if its words are those of an earlier one. -/
theorem filter_isRepeatedPath_findingsOf (i : Fin collection.unions.length) :
    (collection.findingsOf i).filter (·.isRepeatedPath) =
      if collection.RepeatsWords i then [collection.repeatedPathAt i] else [] := by
  have hwords : (∃ j < i, (collection.unions.get j).path.display =
      (collection.unions.get i).path.display) ↔ collection.RepeatsWords i := by
    simp only [Path.display_eq_display_iff, RepeatsWords]
  rw [findingsOf, List.filter_append, VariantUnion.filter_isRepeatedPath_findings, List.append_nil]
  by_cases hi : collection.RepeatsWords i
  · rw [if_pos hi, if_pos (hwords.2 hi)]
    rfl
  · rw [if_neg hi, if_neg fun h ↦ hi (hwords.1 h)]
    rfl

/-- The findings about paths, one for each union whose path has the words of an earlier one's. -/
theorem filter_isRepeatedPath_findings :
    collection.findings.filter (·.isRepeatedPath) =
      ((List.finRange collection.unions.length).filter (collection.RepeatsWords ·)).map
        collection.repeatedPathAt := by
  have hname : (if isBlankText collection.name then [Finding.emptyName] else []).filter
      (·.isRepeatedPath) = [] := by
    split <;> rfl
  rw [findings_eq_flatMap, List.filter_append, hname, List.nil_append, List.filter_flatMap]
  simp only [filter_isRepeatedPath_findingsOf]
  exact flatMap_ite_singleton ..

theorem repeatedPath_notMem_findings_iff :
    (∀ text, .repeatedPath text ∉ collection.findings) ↔ ∀ i, ¬ collection.RepeatsWords i := by
  have hfindings := collection.filter_isRepeatedPath_findings
  constructor
  · intro hnone i hi
    have hmem : collection.repeatedPathAt i ∈ collection.findings.filter (·.isRepeatedPath) := by
      rw [hfindings]
      exact List.mem_map_of_mem (List.mem_filter.2 ⟨List.mem_finRange i, decide_eq_true hi⟩)
    exact hnone _ (List.mem_filter.1 hmem).1
  · intro hnone text htext
    have hmem := List.mem_filter.2 ⟨htext, show (Finding.repeatedPath text).isRepeatedPath from rfl⟩
    rw [hfindings] at hmem
    obtain ⟨i, hi, -⟩ := List.mem_map.1 hmem
    exact hnone i (of_decide_eq_true (List.mem_filter.1 hi).2)

/-- The findings about paths are those about equal paths only if equal words come with equal
paths. -/
theorem filter_isRepeatedPath_findings_eq_iff :
    collection.findings.filter (·.isRepeatedPath) =
      ((List.finRange collection.unions.length).filter (collection.RepeatsPath ·)).map
        collection.repeatedPathAt ↔
    ∀ i, collection.RepeatsWords i → collection.RepeatsPath i := by
  rw [filter_isRepeatedPath_findings]
  constructor
  · intro heq i hi
    -- the unions with equal paths are among those with equal words, and they are as many
    have hsublist : List.Sublist
        ((List.finRange collection.unions.length).filter (collection.RepeatsPath ·))
        ((List.finRange collection.unions.length).filter (collection.RepeatsWords ·)) :=
      List.monotone_filter_right _ fun k hk ↦
        decide_eq_true (RepeatsPath.repeatsWords (of_decide_eq_true hk))
    have hlength := congrArg List.length heq
    rw [List.length_map, List.length_map] at hlength
    have hmem : i ∈ (List.finRange collection.unions.length).filter (collection.RepeatsWords ·) :=
      List.mem_filter.2 ⟨List.mem_finRange i, decide_eq_true hi⟩
    rw [← hsublist.eq_of_length hlength.symm] at hmem
    exact of_decide_eq_true (List.mem_filter.1 hmem).2
  · intro hwords
    have hsame : ∀ i, collection.RepeatsWords i ↔ collection.RepeatsPath i :=
      fun i ↦ ⟨hwords i, RepeatsPath.repeatsWords⟩
    simp only [hsame]

end Collection

/-- The unions of a compiled collection have paths of their own. -/
theorem Declaration.pairwise_path_ne_unions (converter : Converter) {declaration : Declaration}
    (hdistinct : ∀ shape, declaration.shape = some shape → shape.DistinctFields) :
    (declaration.compile converter).unions.Pairwise fun union other ↦ union.path ≠ other.path := by
  rw [compile, walk]
  split
  next shape hshape =>
    exact (Shape.diverge_unions converter (hdistinct shape hshape)).imp fun h heq ↦
      (heq ▸ h).apart_place.ne rfl
  next => exact .nil

/-- **Repeated paths are reported by their words.**

* The findings about repeated paths are those for the unions whose path has the words of an earlier
  one's: one for each of them, in order, with the text of its path.
* They are those for the unions whose path is that of an earlier one exactly if words never repeat
  without the path, as in particular where all paths are plain.
* The unions of a compiled declaration, of a shape whose objects are dictionaries, have paths of
  their own. It has the warnings of its walk and one for each finding; none of these findings is
  about a repeated path exactly if no words repeat. -/
theorem repeatedPath_iff_words (collection : Collection) :
    collection.findings.filter (·.isRepeatedPath) =
      ((List.finRange collection.unions.length).filter (collection.RepeatsWords ·)).map
        collection.repeatedPathAt ∧
    (collection.findings.filter (·.isRepeatedPath) =
      ((List.finRange collection.unions.length).filter (collection.RepeatsPath ·)).map
        collection.repeatedPathAt ↔
      ∀ i, collection.RepeatsWords i → collection.RepeatsPath i) ∧
    ((∀ union ∈ collection.unions, union.path.IsPlain) →
      ∀ i, collection.RepeatsWords i → collection.RepeatsPath i) ∧
    ∀ converter declaration, collection = Declaration.compile converter declaration →
      (∀ shape, declaration.shape = some shape → shape.DistinctFields) →
      (∀ i, ¬ collection.RepeatsPath i) ∧
      collection.warnings = (declaration.walk converter).warnings ++
        collection.findings.map Finding.warning ∧
      ((∀ text, .repeatedPath text ∉ collection.findings) ↔
        ∀ i, ¬ collection.RepeatsWords i) := by
  refine ⟨collection.filter_isRepeatedPath_findings,
    collection.filter_isRepeatedPath_findings_eq_iff, fun hpaths i hi ↦ hi.repeatsPath hpaths, ?_⟩
  rintro converter declaration rfl hdistinct
  have hpairwise := declaration.pairwise_path_ne_unions converter hdistinct
  exact ⟨fun i ↦ Collection.not_repeatsPath hpairwise, rfl,
    Collection.repeatedPath_notMem_findings_iff _⟩

/-- Pages with a field that has a point in its name, beside the field in a field that is written
like it. -/
def dotted : Declaration where
  name := "pages"
  type := .content
  shape := some (.object [
    ("a.b", .variants "type" [.object [("type", .literal (.str "hero"))]]),
    ("a", .object [("b", .variants "type" [.object [("type", .literal (.str "text"))]])])])

/-- Pages with an array of blocks, and with a block in a field. -/
def nested : Declaration where
  name := "pages"
  type := .content
  shape := some (.object [
    ("blocks", .array (.variants "type" [.object [("type", .literal (.str "hero"))]]) none none),
    ("a", .object [("block", .variants "type" [.object [("type", .literal (.str "text"))]])])])

/-- Pages with two unions at one path. -/
def doubled : Collection :=
  ⟨"pages", .content, .obj [], [⟨[.field "blocks", .items], "type", []⟩,
    ⟨[.field "blocks", .items], "kind", []⟩], []⟩

/-- The unions of `dotted` have paths of their own, and yet the second is reported; none of `nested`
is. In `doubled` the paths are the same. -/
theorem repeatedPath_iff_words_dotted :
    (∀ i, ¬ (dotted.compile .draft).RepeatsPath i) ∧
    (dotted.compile .draft).findings.filter (·.isRepeatedPath) = [.repeatedPath "a.b"] ∧
    (∀ text, .repeatedPath text ∉ (nested.compile .draft).findings) ∧
    doubled.findings.filter (·.isRepeatedPath) = [.repeatedPath "blocks.[]"] := by
  have hdotted : ∀ shape, dotted.shape = some shape → shape.DistinctFields := fun shape hshape ↦
    Shape.distinctFields_of_ofJson?
      (show Shape.ofJson? shape.toJson = some shape from Option.some.inj hshape ▸ rfl)
  have hnested : ∀ shape, nested.shape = some shape → shape.DistinctFields := fun shape hshape ↦
    Shape.distinctFields_of_ofJson?
      (show Shape.ofJson? shape.toJson = some shape from Option.some.inj hshape ▸ rfl)
  obtain ⟨hreported, -, -, hcompiled⟩ := repeatedPath_iff_words (dotted.compile .draft)
  obtain ⟨-, -, hwords, hcompiled'⟩ := repeatedPath_iff_words (nested.compile .draft)
  obtain ⟨-, hpaths, hplain, -⟩ := repeatedPath_iff_words doubled
  obtain ⟨hown, -, hnone⟩ := hcompiled' .draft nested rfl hnested
  refine ⟨(hcompiled .draft dotted rfl hdotted).1, hreported.trans (by decide),
    hnone.2 fun i hi ↦ hown i (hwords ?_ i hi), (hpaths.2 (hplain ?_)).trans ?_⟩ <;> decide

end ContentSchema
