import ContentSchema.Collection.Finding
import ContentSchema.Proofs.Enrich.BlockTypes
/-!
# Findings, union by union

The findings of a collection are gathered in one pass that remembers the paths it has met.
`findings_eq_flatMap` takes them apart again: what is reported for a union, `Collection.findingsOf`,
depends on that union and on the texts of the paths before it.

Inside a union the keys of the variants are counted twice, once here and once by the dictionary of
block types, which keeps of every key the first place and the last document. The two counts go
together: each variant either opens an entry of the dictionary or is reported
(`length_repeatedKeys`), so no block type is lost without a finding (`repeats_add_blockTypes`).
-/

namespace ContentSchema

/-! ### Repeated keys -/

/-- Whether the finding is about the key of a variant. -/
def Finding.isRepeatedVariant : Finding → Bool
  | .repeatedVariant _ _ => true
  | _ => false

/-- Repeated keys are reported as repeated variants at the path of the union. -/
theorem exists_of_mem_repeatedKeys {path : String} {seen keys : List String} {finding : Finding}
    (h : finding ∈ repeatedKeys path seen keys) : ∃ key, finding = .repeatedVariant path key := by
  induction keys generalizing seen with
  | nil => simp [repeatedKeys] at h
  | cons key keys ih =>
    rw [repeatedKeys] at h
    split at h
    · rcases List.mem_cons.1 h with rfl | h
      · exact ⟨key, rfl⟩
      · exact ih h
    · exact ih h

/-- A key is reported as often as it stands in the list, less once if it had not been seen. -/
theorem count_repeatedKeys (path key : String) (seen keys : List String) :
    (repeatedKeys path seen keys).count (.repeatedVariant path key) =
      keys.count key - if key ∈ seen then 0 else 1 := by
  induction keys generalizing seen with
  | nil => simp [repeatedKeys]
  | cons first keys ih =>
    rw [repeatedKeys]
    by_cases hseen : first ∈ seen
    · rw [if_pos hseen, List.count_cons, List.count_cons, ih]
      by_cases hfirst : first = key
      · subst hfirst
        simp [hseen]
      · simp [hfirst]
    · rw [if_neg hseen, ih, List.count_cons]
      by_cases hfirst : first = key
      · subst hfirst
        simp [hseen]
      · simp [hfirst, Ne.symm hfirst]

/-- Every key of the list is either reported or the first one of its kind. -/
theorem length_repeatedKeys (path : String) (seen keys : List String) :
    (repeatedKeys path seen keys).length + (keys.filter (· ∉ seen)).eraseDups.length =
      keys.length := by
  induction keys generalizing seen with
  | nil => rfl
  | cons key keys ih =>
    rw [repeatedKeys]
    by_cases hseen : key ∈ seen
    · rw [if_pos hseen, List.filter_cons_of_neg (by simpa using hseen), List.length_cons,
        List.length_cons, ← ih seen]
      omega
    · -- the entry that the key opens is its only one, and it is seen from now on
      have hrest : (keys.filter (· ∉ seen)).filter (fun other ↦ !other == key) =
          keys.filter (· ∉ key :: seen) := by
        rw [List.filter_filter]
        exact List.filter_congr fun other _ ↦ by simp [Bool.beq_eq_decide_eq]
      rw [if_neg hseen, List.filter_cons_of_pos (by simpa using hseen), List.eraseDups_cons, hrest,
        List.length_cons, List.length_cons, ← ih (key :: seen)]
      omega

/-! ### Union by union -/

theorem unionFindings_eq_flatMap (seen : List String) (unions : List VariantUnion) :
    unionFindings seen unions = (List.finRange unions.length).flatMap fun i ↦
      (if (unions.get i).path.display ∈ seen ∨
          ∃ j < i, (unions.get j).path.display = (unions.get i).path.display then
        [.repeatedPath (unions.get i).path.display] else []) ++ (unions.get i).findings := by
  induction unions generalizing seen with
  | nil => rfl
  | cons union unions ih =>
    -- what was seen before a later union is what was seen before, or the first path, or a later one
    have hseen : ∀ i : Fin unions.length,
        ((unions.get i).path.display ∈ union.path.display :: seen ∨
          ∃ j < i, (unions.get j).path.display = (unions.get i).path.display) ↔
        (((union :: unions).get i.succ).path.display ∈ seen ∨
          ∃ j < i.succ, ((union :: unions).get j).path.display =
            ((union :: unions).get i.succ).path.display) := by
      intro i
      rw [Fin.exists_fin_succ, List.mem_cons, or_assoc, or_left_comm,
        eq_comm (b := union.path.display)]
      simp
    rw [unionFindings, ih]
    simp only [List.length_cons, List.finRange_succ, List.flatMap_cons, List.flatMap_map, ← hseen]
    simp

/-- The findings of a union about its keys are those of the pass over them. -/
theorem VariantUnion.filter_isRepeatedVariant_findings (union : VariantUnion) :
    union.findings.filter (·.isRepeatedVariant) =
      repeatedKeys union.path.display [] (union.options.map Variant.key) := by
  have hkeys : (repeatedKeys union.path.display [] (union.options.map Variant.key)).filter
        (·.isRepeatedVariant) =
      repeatedKeys union.path.display [] (union.options.map Variant.key) := by
    refine List.filter_eq_self.2 fun finding hfinding ↦ ?_
    obtain ⟨key, rfl⟩ := exists_of_mem_repeatedKeys hfinding
    rfl
  have hblank : (if isBlankText union.discriminator then
      [Finding.emptyDiscriminator union.path.display] else []).filter
        (·.isRepeatedVariant) = [] := by
    split <;> rfl
  rw [findings, List.filter_append, hblank, List.nil_append]
  split
  next hempty =>
    rw [List.isEmpty_iff.1 hempty]
    rfl
  next => exact hkeys

namespace Collection

variable (collection : Collection)

/-- What is reported for the union with number `i`. -/
def findingsOf (i : Fin collection.unions.length) : List Finding :=
  (if ∃ j < i, (collection.unions.get j).path.display = (collection.unions.get i).path.display then
    [.repeatedPath (collection.unions.get i).path.display] else []) ++
    (collection.unions.get i).findings

/-- The findings are those of the name and then those of each union, in order. -/
theorem findings_eq_flatMap :
    collection.findings = (if isBlankText collection.name then [.emptyName] else []) ++
      (List.finRange collection.unions.length).flatMap collection.findingsOf := by
  rw [findings, unionFindings_eq_flatMap]
  simp only [List.not_mem_nil, false_or]
  rfl

theorem filter_isRepeatedVariant_findingsOf (i : Fin collection.unions.length) :
    (collection.findingsOf i).filter (·.isRepeatedVariant) =
      repeatedKeys (collection.unions.get i).path.display []
        ((collection.unions.get i).options.map Variant.key) := by
  rw [findingsOf, List.filter_append, VariantUnion.filter_isRepeatedVariant_findings]
  split <;> rfl

/-- Of the options with one key all but the first are reported. -/
theorem count_findingsOf (i : Fin collection.unions.length) (key : String) :
    (collection.findingsOf i).count (.repeatedVariant (collection.unions.get i).path.display key) =
      ((collection.unions.get i).options.map Variant.key).count key - 1 := by
  rw [← List.count_filter (p := (·.isRepeatedVariant)) rfl, filter_isRepeatedVariant_findingsOf,
    count_repeatedKeys]
  simp

/-- A key is reported just when two options of the union have it. -/
theorem exists_repeatedVariant_mem_findingsOf_iff {i : Fin collection.unions.length}
    {key : String} :
    (∃ path, .repeatedVariant path key ∈ collection.findingsOf i) ↔
      1 < ((collection.unions.get i).options.map Variant.key).count key := by
  rw [← Nat.sub_pos_iff_lt, ← count_findingsOf, List.count_pos_iff]
  constructor
  · rintro ⟨path, hpath⟩
    have hmem : Finding.repeatedVariant path key ∈
        repeatedKeys (collection.unions.get i).path.display []
          ((collection.unions.get i).options.map Variant.key) :=
      collection.filter_isRepeatedVariant_findingsOf i ▸ List.mem_filter.2 ⟨hpath, rfl⟩
    obtain ⟨key', heq⟩ := exists_of_mem_repeatedKeys hmem
    obtain ⟨rfl, rfl⟩ := Finding.repeatedVariant.inj heq
    exact hpath
  · exact fun h ↦ ⟨_, h⟩

/-- Each option is either a block type or reported as a repeat of an earlier one. -/
theorem length_repeats_add_length_blockTypes (i : Fin collection.unions.length) :
    ((collection.findingsOf i).filter (·.isRepeatedVariant)).length +
      (collection.unions.get i).blockTypes.length = (collection.unions.get i).options.length := by
  have htypes : (collection.unions.get i).blockTypes.length =
      ((collection.unions.get i).options.map Variant.key).eraseDups.length := by
    rw [← VariantUnion.keys_blockTypes, Keyed.keys, List.length_map]
  have hlength := length_repeatedKeys (collection.unions.get i).path.display []
    ((collection.unions.get i).options.map Variant.key)
  rw [filter_isRepeatedVariant_findingsOf, htypes]
  simpa using hlength

/-- **No block type is lost unannounced.** The findings of a collection are those about its name and
then those of one union after the other. For each union let `types` be the dictionary that
enriching puts on an array for it.

* The findings about repeated keys and the entries of the dictionary are together as many as the
  options of the union.
* The keys that these findings name are those of more than one option. For each entry of the
  dictionary there is one finding less than there are options with its key.
* The entries are in the order in which their keys first stand in the options. -/
theorem repeats_add_blockTypes :
    collection.findings = (if isBlankText collection.name then [.emptyName] else []) ++
      (List.finRange collection.unions.length).flatMap collection.findingsOf ∧
    ∀ i : Fin collection.unions.length, ∃ types : Keyed Json,
      (∀ members, Json.NamesType (.obj members) "array" →
        (collection.unions.get i).attach (.obj members) =
          .obj (Keyed.insert members "blockTypes" (.obj types))) ∧
      ((collection.findingsOf i).filter (·.isRepeatedVariant)).length + types.length =
        (collection.unions.get i).options.length ∧
      (∀ key, (∃ path, .repeatedVariant path key ∈ collection.findingsOf i) ↔
        1 < ((collection.unions.get i).options.map Variant.key).count key) ∧
      (∀ key ∈ types.keys,
        (collection.findingsOf i).count
            (.repeatedVariant (collection.unions.get i).path.display key) + 1 =
          ((collection.unions.get i).options.map Variant.key).count key) ∧
      types.keys = ((collection.unions.get i).options.map Variant.key).eraseDups := by
  refine ⟨collection.findings_eq_flatMap, fun i ↦ ?_⟩
  have hkeys := (collection.unions.get i).keys_blockTypes
  refine ⟨(collection.unions.get i).blockTypes,
    fun members ↦ (collection.unions.get i).attach_of_namesType,
    collection.length_repeats_add_length_blockTypes i,
    fun key ↦ collection.exists_repeatedVariant_mem_findingsOf_iff, fun key hkey ↦ ?_, hkeys⟩
  rw [hkeys, List.mem_eraseDups] at hkey
  rw [count_findingsOf, Nat.sub_add_cancel (List.one_le_count_iff.2 hkey)]

/-- A collection of data with a union whose options have a text and a number, and a text and a truth
value, that are written alike. -/
def measures : Collection :=
  ⟨"measures", .data, .obj [], [
    ⟨[.field "units"], "id", []⟩,
    ⟨[.field "values", .items], "id", [
      ⟨.str "1", "1", .obj []⟩, ⟨.bool true, "true", .obj []⟩, ⟨.num (.int 1), "1", .null⟩,
      ⟨.str "metre", "Metre", .obj []⟩, ⟨.str "true", "True", .null⟩,
      ⟨.str "1", "1", .obj []⟩]⟩], []⟩

/-- Three of the six options are reported, and the other three have an entry. -/
theorem repeats_add_blockTypes_measures :
    ∃ types : Keyed Json, types.length = 3 ∧ types.keys = ["1", "true", "metre"] ∧
      (∀ members, Json.NamesType (.obj members) "array" →
        (measures.unions[1]).attach (.obj members) =
          .obj (Keyed.insert members "blockTypes" (.obj types))) ∧
      Json.NamesType (.obj [("type", .str "array")]) "array" ∧
      (∃ path, .repeatedVariant path "true" ∈ measures.findingsOf ⟨1, by decide⟩) ∧
      ¬ ∃ path, .repeatedVariant path "metre" ∈ measures.findingsOf ⟨1, by decide⟩ := by
  obtain ⟨-, hunions⟩ := repeats_add_blockTypes measures
  obtain ⟨types, hattach, hlength, hnamed, -, hkeys⟩ := hunions ⟨1, by decide⟩
  have hrepeats :
      ((measures.findingsOf ⟨1, by decide⟩).filter (·.isRepeatedVariant)).length = 3 := by
    decide
  refine ⟨types, ?_, hkeys.trans (by decide), hattach, .inl rfl, (hnamed "true").2 (by decide),
    fun h ↦ absurd ((hnamed "metre").1 h) (by decide)⟩
  rw [hrepeats] at hlength
  exact Nat.add_left_cancel (hlength.trans (show 6 = 3 + 3 from rfl))

end Collection

end ContentSchema
