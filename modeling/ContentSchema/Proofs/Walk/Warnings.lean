import Mathlib.Data.List.Induction
import Mathlib.Data.List.Nodup
import ContentSchema.Proofs.Draft.Lenient
import ContentSchema.Proofs.Walk.Unions
/-!
# The warnings of a walk

A walk warns of failed conversions and of skipped options, and of nothing twice, whatever the
converter (`nodup_warnings_walk`). The two kinds of warnings are apart by their texts, so each can be
looked at by itself: a failed conversion is compared with what is there before it is added, and a
skipped option is told from the others by the path of its union and by its number, which its text
begins with.

With the lenient conversion of drafts more is known. An option of a union is converted at the path of
the union, so its failures stand among those of the whole shape (`mem_failures_of_mem_options`), and
there is nothing left to add when it is converted once more. So the warnings of a walk are those of one
conversion, each at its first occurrence, and then those of skipped options (`warnings_of_walk`).
-/

namespace ContentSchema

/-! ### Numbers of skipped options -/

/-- The digits of its number stand in the warning of a skipped option, before the second blank. -/
theorem takeWhile_drop_skipWarning (path : Path) (index : Nat) (reason : SkipReason) :
    ((skipWarning path index reason).message.toList.drop 7).takeWhile (· ≠ ' ') =
      Nat.toDigits 10 index := by
  have hdigits : ∀ c ∈ Nat.toDigits 10 index, c ≠ ' ' := by
    rintro c hc rfl
    exact absurd (Nat.isDigit_of_mem_toDigits (by decide) (by decide) hc) (by decide)
  have htext : (skipWarning path index reason).message.toList.drop 7 =
      Nat.toDigits 10 index ++ ' ' :: ("skipped: ".toList ++ reason.message.toList) := by
    simp [skipWarning]
  rw [htext, List.takeWhile_append_of_pos (by simpa using hdigits),
    List.takeWhile_cons_of_neg (by decide), List.append_nil]

/-- The number of an option can be read off its warning. -/
theorem index_eq_of_skipWarning_eq {path path' : Path} {index index' : Nat}
    {reason reason' : SkipReason}
    (h : skipWarning path index reason = skipWarning path' index' reason') : index = index' := by
  have hdigits : Nat.toDigits 10 index = Nat.toDigits 10 index' := by
    rw [← takeWhile_drop_skipWarning path index reason, h, takeWhile_drop_skipWarning]
  calc index
      = Nat.ofDigitChars 10 (Nat.toDigits 10 index) 0 := Nat.ofDigitChars_ten_toDigits.symm
    _ = Nat.ofDigitChars 10 (Nat.toDigits 10 index') 0 := by rw [hdigits]
    _ = index' := Nat.ofDigitChars_ten_toDigits

namespace UnionSite

/-- A skipped option is reported at the path of its site and under its own number. -/
theorem exists_skipWarning_of_skip? {site : UnionSite} {option : Shape × Nat} {warning : Warning}
    (h : site.skip? option = some warning) :
    ∃ reason, warning = skipWarning site.path option.2 reason := by
  unfold skip? at h
  split at h
  next => cases h
  next reason _ => exact ⟨reason, (Option.some.inj h).symm⟩

theorem exists_skipWarning_of_mem_skips {site : UnionSite} {warning : Warning}
    (h : warning ∈ site.skips) : ∃ index reason, warning = skipWarning site.path index reason := by
  obtain ⟨option, -, hwarning⟩ := List.mem_filterMap.1 h
  obtain ⟨reason, rfl⟩ := exists_skipWarning_of_skip? hwarning
  exact ⟨option.2, reason, rfl⟩

theorem isSkip_of_mem_skips {site : UnionSite} {warning : Warning} (h : warning ∈ site.skips) :
    warning.IsSkip := by
  obtain ⟨index, reason, rfl⟩ := exists_skipWarning_of_mem_skips h
  exact isSkip_skipWarning site.path index reason

/-- No two options of a union have the same number. -/
theorem nodup_skips (site : UnionSite) : site.skips.Nodup := by
  have hnumbers : site.options.zipIdx.Pairwise fun option other ↦ option.2 ≠ other.2 := by
    have hrange : (site.options.zipIdx.map Prod.snd).Nodup := by
      rw [List.zipIdx_map_snd]
      exact List.nodup_range'
    exact List.pairwise_map.1 hrange
  refine List.pairwise_filterMap.2 (hnumbers.imp ?_)
  rintro option other hne warning hwarning warning' hwarning' rfl
  obtain ⟨reason, rfl⟩ := exists_skipWarning_of_skip? hwarning
  obtain ⟨reason', heq⟩ := exists_skipWarning_of_skip? hwarning'
  exact hne (index_eq_of_skipWarning_eq heq)

end UnionSite

/-- Different unions have warnings of their own if they have paths of their own. -/
theorem nodup_flatMap_skips {sites : List UnionSite}
    (h : sites.Pairwise fun site other ↦ site.path ≠ other.path) :
    (sites.flatMap UnionSite.skips).Nodup := by
  refine List.nodup_flatMap.2 ⟨fun site _ ↦ site.nodup_skips, h.imp ?_⟩
  intro site other hne warning hwarning hwarning'
  obtain ⟨index, reason, rfl⟩ := UnionSite.exists_skipWarning_of_mem_skips hwarning
  obtain ⟨index', reason', heq⟩ := UnionSite.exists_skipWarning_of_mem_skips hwarning'
  exact hne (congrArg Warning.path heq)

/-! ### Failed conversions -/

/-- Of failures with one warning only the first is reported. -/
theorem reportFailures_concat (warnings : List Warning) (failures : List Failure)
    (failure : Failure) :
    reportFailures warnings (failures ++ [failure]) =
      if failure.warning ∈ reportFailures warnings failures then reportFailures warnings failures
      else reportFailures warnings failures ++ [failure.warning] := by
  rw [reportFailures, List.foldl_append]
  rfl

/-- From nothing, every failure is reported at its first occurrence. -/
theorem reportFailures_nil (failures : List Failure) :
    reportFailures [] failures = (failures.map Failure.warning).eraseDups := by
  induction failures using List.reverseRec with
  | nil => rfl
  | append_singleton failures failure ih =>
    rw [reportFailures_concat, ih, List.map_append, List.eraseDups_append]
    generalize failures.map Failure.warning = reported
    by_cases hmem : failure.warning ∈ reported <;>
      simp [List.removeAll, hmem, List.eraseDups_cons]

/-- Failures that are reported already add nothing. -/
theorem reportFailures_of_reported {warnings : List Warning} {failures : List Failure}
    (h : ∀ failure ∈ failures, failure.warning ∈ warnings) :
    reportFailures warnings failures = warnings := by
  induction failures using List.reverseRec with
  | nil => rfl
  | append_singleton failures failure ih =>
    obtain ⟨hbefore, hlast⟩ := List.forall_mem_append.1 h
    rw [reportFailures_concat, ih hbefore, if_pos (hlast failure List.mem_cons_self)]

section Filter

open scoped Classical

/-- No failure is reported twice. -/
theorem nodup_filter_reportFailures {warnings : List Warning} (failures : List Failure)
    (h : (warnings.filter (¬·.IsSkip)).Nodup) :
    ((reportFailures warnings failures).filter (¬·.IsSkip)).Nodup := by
  induction failures using List.reverseRec with
  | nil => exact h
  | append_singleton failures failure ih =>
    rw [reportFailures_concat]
    split
    next => exact ih
    next hnew =>
      rw [List.filter_append, List.nodup_append]
      refine ⟨ih, (List.nodup_singleton _).filter _, ?_⟩
      rintro warning hwarning _ hlast rfl
      have hlast := List.mem_singleton.1 (List.mem_of_mem_filter hlast)
      exact hnew (hlast ▸ List.mem_of_mem_filter hwarning)

/-- Taking options apart adds no failure that is reported already. -/
theorem nodup_filter_extractOptions (converter : Converter) (path : Path) (discriminator : String)
    (index : Nat) {warnings : List Warning} (options : List Shape)
    (h : (warnings.filter (¬·.IsSkip)).Nodup) :
    ((extractOptions converter path discriminator index warnings options).2.filter
      (¬·.IsSkip)).Nodup := by
  induction options generalizing index warnings with
  | nil => exact h
  | cons option options ih =>
    rw [extractOptions]
    cases option.discriminatorValue discriminator with
    | error reason =>
      refine ih (index + 1) ?_
      rw [List.filter_append]
      simpa [isSkip_skipWarning] using h
    | ok value => exact ih (index + 1) (nodup_filter_reportFailures _ h)

/-- Failures found again while the options are converted are not reported a second time. -/
theorem nodup_filter_extractUnions (converter : Converter) {warnings : List Warning}
    (sites : List UnionSite) (h : (warnings.filter (¬·.IsSkip)).Nodup) :
    ((extractUnions converter warnings sites).2.filter (¬·.IsSkip)).Nodup := by
  induction sites generalizing warnings with
  | nil => exact h
  | cons site sites ih =>
    rw [extractUnions]
    exact ih (nodup_filter_extractOptions converter _ _ 0 site.options h)

/-- **A walk reports nothing twice.** -/
theorem Shape.nodup_warnings_walk (converter : Converter) {shape : Shape}
    (hdistinct : shape.DistinctFields) : (shape.walk converter).warnings.Nodup := by
  have hskips : ((shape.walk converter).warnings.filter (·.IsSkip)).Nodup := by
    rw [filter_isSkip_walk]
    exact nodup_flatMap_skips (pairwise_path_ne_unionSites hdistinct)
  have hfailures : ((shape.walk converter).warnings.filter (¬·.IsSkip)).Nodup :=
    nodup_filter_extractUnions converter _ (nodup_filter_reportFailures _ List.nodup_nil)
  have hsplit := List.filter_append_perm (fun warning : Warning ↦ decide warning.IsSkip)
    (shape.walk converter).warnings
  refine hsplit.nodup_iff.1 (List.nodup_append.2 ⟨hskips, by simpa using hfailures, ?_⟩)
  rintro warning hskip _ hfailure rfl
  -- no warning is both
  have hnot : ¬warning.IsSkip := by simpa using (List.mem_filter.1 hfailure).2
  exact hnot (of_decide_eq_true (List.mem_filter.1 hskip).2)

end Filter

/-! ### Options that are converted once more -/

/-- Taking options apart only adds skip warnings if all their failures are reported. -/
theorem extractOptions_snd_of_reported {converter : Converter} {site : UnionSite}
    {warnings : List Warning} {options : List Shape}
    (h : ∀ option ∈ options, ∀ failure ∈ (converter.lenient site.path option).failures,
      failure.warning ∈ warnings) (index : Nat) :
    (extractOptions converter site.path site.discriminator index warnings options).2 =
      warnings ++ (options.zipIdx index).filterMap site.skip? := by
  induction options generalizing index warnings with
  | nil => simp [extractOptions]
  | cons option options ih =>
    obtain ⟨hoption, hoptions⟩ := List.forall_mem_cons.1 h
    rw [extractOptions, List.zipIdx_cons, List.filterMap_cons, UnionSite.skip?]
    cases option.discriminatorValue site.discriminator with
    | error reason =>
      have hmore : ∀ later ∈ options, ∀ failure ∈ (converter.lenient site.path later).failures,
          failure.warning ∈ warnings ++ [skipWarning site.path index reason] :=
        fun later hlater failure hfailure ↦
          List.mem_append_left _ (hoptions later hlater failure hfailure)
      exact (ih hmore (index + 1)).trans (List.append_assoc _ _ _)
    | ok value =>
      dsimp only
      rw [reportFailures_of_reported hoption]
      exact ih hoptions (index + 1)

/-- When the conversion of the shape has reported all failures of the options, the extraction adds
warnings about skipped options and no others. -/
theorem extractUnions_snd_of_reported {converter : Converter} {warnings : List Warning}
    {sites : List UnionSite}
    (h : ∀ site ∈ sites, ∀ option ∈ site.options,
      ∀ failure ∈ (converter.lenient site.path option).failures, failure.warning ∈ warnings) :
    (extractUnions converter warnings sites).2 = warnings ++ sites.flatMap UnionSite.skips := by
  induction sites generalizing warnings with
  | nil => simp [extractUnions]
  | cons site sites ih =>
    obtain ⟨hsite, hsites⟩ := List.forall_mem_cons.1 h
    have hmore : ∀ later ∈ sites, ∀ option ∈ later.options,
        ∀ failure ∈ (converter.lenient later.path option).failures,
          failure.warning ∈ warnings ++ site.skips :=
      fun later hlater option hoption failure hfailure ↦
        List.mem_append_left _ (hsites later hlater option hoption failure hfailure)
    show (extractUnions converter
      (extractOptions converter site.path site.discriminator 0 warnings site.options).2 sites).2 = _
    rw [extractOptions_snd_of_reported hsite, List.flatMap_cons, ← List.append_assoc]
    exact ih hmore

namespace Shape

/-- The failures of an option are failures of the shape that its union is found in. -/
theorem mem_failures_of_mem_options {shape option : Shape} {site : UnionSite} {path : Path}
    (hsite : site ∈ shape.unionSites path) (hoption : option ∈ site.options) {failure : Failure}
    (hfailure : failure ∈ (option.draftLenient site.path).failures) :
    failure ∈ (shape.draftLenient path).failures := by
  obtain ⟨rest, hpath, hleaves⟩ := mem_leaves_of_mem_options hsite hoption
  rw [failures_draftLenient] at hfailure ⊢
  obtain ⟨leaf, hleaf, hdefect⟩ := List.mem_filterMap.1 hfailure
  -- the leaf stands at the end of the route, and its whole path is the same either way
  refine List.mem_filterMap.2 ⟨⟨rest ++ leaf.path, leaf.shape⟩, hleaves leaf hleaf, ?_⟩
  rwa [Leaf.failure?, ← List.append_assoc, ← hpath]

/-- **Each defect is reported once.** For every shape whose objects are dictionaries:

* no walk, with whatever converter, has two equal warnings;
* the warnings of a walk are those of the failures of one lenient conversion of the whole shape, each
  where it first occurs and in order, and after them warnings about skipped options, which are one
  for each option of each union that is not usable, in order;
* a failure of an option that is converted by itself, at the path of its union, is a failure of that
  one conversion, so that it adds nothing. -/
theorem warnings_of_walk {shape : Shape} (hdistinct : shape.DistinctFields) :
    (∀ converter, (shape.walk converter).warnings.Nodup) ∧
    (shape.walk .draft).warnings =
      ((shape.draftLenient []).failures.map fun failure ↦
        (⟨failure.path, failure.error.message⟩ : Warning)).eraseDups ++
      (shape.unionSites []).flatMap UnionSite.skips ∧
    (∀ warning ∈ (shape.unionSites []).flatMap UnionSite.skips, warning.IsSkip) ∧
    ∀ site ∈ shape.unionSites [], ∀ option ∈ site.options,
      (option.draftLenient site.path).failures ⊆ (shape.draftLenient []).failures := by
  have hfailures : ∀ site ∈ shape.unionSites [], ∀ option ∈ site.options,
      (option.draftLenient site.path).failures ⊆ (shape.draftLenient []).failures :=
    fun site hsite option hoption failure ↦ mem_failures_of_mem_options hsite hoption
  refine ⟨fun converter ↦ nodup_warnings_walk converter hdistinct, ?_, ?_, hfailures⟩
  · have hreported : ∀ site ∈ shape.unionSites [], ∀ option ∈ site.options,
        ∀ failure ∈ (Converter.draft.lenient site.path option).failures,
          failure.warning ∈ reportFailures [] (shape.draftLenient []).failures := by
      intro site hsite option hoption failure hfailure
      rw [reportFailures_nil, List.mem_eraseDups]
      exact List.mem_map_of_mem (hfailures site hsite option hoption hfailure)
    show (extractUnions .draft (reportFailures [] (shape.draftLenient []).failures)
      (shape.unionSites [])).2 = _
    rw [extractUnions_snd_of_reported hreported, reportFailures_nil]
    rfl
  · intro warning hwarning
    obtain ⟨site, -, hskip⟩ := List.mem_flatMap.1 hwarning
    exact site.isSkip_of_mem_skips hskip

/-- An album with two covers that fail alike, and with blocks of which one fails inside and one is no
object. -/
def album : Shape :=
  .object [
    ("covers", .tuple [.other "Map", .other "Map"]),
    ("blocks", .array (.variants "kind" [
      .object [("kind", .literal (.str "track")), ("data", .other "Set")],
      .boolean]) none none)]

theorem warnings_of_walk_album :
    album.DistinctFields ∧ (album.walk .draft).warnings.Nodup ∧
    (album.walk .draft).warnings =
      [⟨[.field "covers", .items], ConversionError.message (.unsupported "Map")⟩,
        ⟨[.field "blocks", .items, .field "data"], ConversionError.message (.unsupported "Set")⟩,
        skipWarning [.field "blocks", .items] 1 .notAnObject] := by
  have hdistinct : album.DistinctFields :=
    distinctFields_of_ofJson? (show ofJson? album.toJson = some album from rfl)
  obtain ⟨hnodup, hwarnings, -, -⟩ := warnings_of_walk hdistinct
  refine ⟨hdistinct, hnodup .draft, hwarnings.trans ?_⟩
  rfl

end Shape

end ContentSchema
