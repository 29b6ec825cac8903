import ContentSchema.Proofs.Walk.Sites
/-!
# The unions of a walk

A walk takes each union of a shape apart into usable options and skipped ones. `UnionSite.union`
and `UnionSite.skips` say option by option what becomes of a union; a walk's unions are the one at
every site, and its warnings about skipped options are the other at every site, whatever the
converter (`walk_unions_exact`).

Conversions add warnings of their own between those of skipped options. The two are told apart by
their texts (`Failure.not_isSkip_warning`): the text of a failed conversion may begin with any
words, since it begins with the name of a library type, but then it ends in words that no reason for
skipping ends in. So the skip warnings are exactly those that `Warning.IsSkip` picks out of the list,
and no conversion adds or hides one (`filter_isSkip_reportFailures`).
-/

namespace ContentSchema

/-! ### Usable options -/

/-- An option is usable exactly if it is an object whose discriminator field is a literal scalar. -/
theorem Shape.discriminatorValue_eq_ok_iff {option : Shape} (hdistinct : option.DistinctFields)
    {discriminator : String} {value : Json} :
    option.discriminatorValue discriminator = .ok value ↔
      ∃ fields, option = .object fields ∧ (discriminator, .literal value) ∈ fields ∧
        value.isContainer = false := by
  constructor
  · intro h
    unfold discriminatorValue at h
    split at h
    next => cases h
    next fields hfields =>
      split at h
      next => cases h
      next field hfield =>
        split at h
        next => cases h
        next literal hliteral =>
          split at h
          next => cases h
          next hscalar =>
            obtain rfl := Except.ok.inj h
            obtain rfl : option = .object fields := by cases option <;> simp_all [fields?]
            obtain rfl : field = .literal literal := by cases field <;> simp_all [literal?]
            exact ⟨fields, rfl, Keyed.mem_of_find? hfield, by simpa using hscalar⟩
  · rintro ⟨fields, rfl, hfield, hscalar⟩
    have hfind := (distinctFields_object.1 hdistinct).1.find?_eq_of_mem hfield
    simp [discriminatorValue, fields?, literal?, hfind, hscalar]

namespace UnionSite

/-- What becomes of an option that is usable: its literal, the label of that, and its own document. -/
def variant? (converter : Converter) (site : UnionSite) (option : Shape) : Option Variant :=
  match option.discriminatorValue site.discriminator with
  | .ok value => some ⟨value, value.literalLabel, (converter.lenient site.path option).doc⟩
  | .error _ => none

/-- What becomes of an option that is not: a warning with its number. -/
def skip? (site : UnionSite) (option : Shape × Nat) : Option Warning :=
  match option.1.discriminatorValue site.discriminator with
  | .ok _ => none
  | .error reason => some (skipWarning site.path option.2 reason)

theorem variant?_eq_some_iff (site : UnionSite) (converter : Converter) {option : Shape}
    (hdistinct : option.DistinctFields) {variant : Variant} :
    site.variant? converter option = some variant ↔
      ∃ fields value, option = .object fields ∧ (site.discriminator, .literal value) ∈ fields ∧
        value.isContainer = false ∧
        variant = ⟨value, value.literalLabel, (converter.lenient site.path option).doc⟩ := by
  have husable := fun value ↦
    @Shape.discriminatorValue_eq_ok_iff option hdistinct site.discriminator value
  constructor
  · intro h
    unfold variant? at h
    split at h
    next value hvalue =>
      obtain ⟨fields, hoption, hfield, hscalar⟩ := (husable value).1 hvalue
      exact ⟨fields, value, hoption, hfield, hscalar, (Option.some.inj h).symm⟩
    next => cases h
  · rintro ⟨fields, value, hoption, hfield, hscalar, rfl⟩
    rw [variant?, (husable value).2 ⟨fields, hoption, hfield, hscalar⟩]

/-- Every option becomes either a variant or a warning. -/
theorem variant?_eq_none_iff (site : UnionSite) (converter : Converter) (option : Shape)
    (index : Nat) :
    site.variant? converter option = none ↔
      ∃ reason, site.skip? (option, index) = some (skipWarning site.path index reason) := by
  rw [variant?, skip?]
  cases option.discriminatorValue site.discriminator with
  | ok value => simp
  | error reason => exact iff_of_true rfl ⟨reason, rfl⟩

/-- The union at a site. -/
def union (converter : Converter) (site : UnionSite) : VariantUnion :=
  ⟨site.path, site.discriminator, site.options.filterMap (site.variant? converter)⟩

/-- The warnings about the skipped options of a site. -/
def skips (site : UnionSite) : List Warning := site.options.zipIdx.filterMap site.skip?

end UnionSite

/-! ### Warnings about skipped options -/

/-- A warning about a skipped option, by its path and its text. -/
def Warning.IsSkip (warning : Warning) : Prop :=
  ∃ path index reason, warning = skipWarning path index reason

/-- The warning that a walk adds for a skipped option reads like one. -/
theorem isSkip_skipWarning (path : Path) (index : Nat) (reason : SkipReason) :
    (skipWarning path index reason).IsSkip :=
  ⟨path, index, reason, rfl⟩

/-- No failed conversion reads like a skipped option. -/
theorem Failure.not_isSkip_warning (failure : Failure) : ¬failure.warning.IsSkip := by
  rintro ⟨path, index, reason, heq⟩
  have hmessage : failure.error.message =
      "option " ++ toString index ++ " skipped: " ++ reason.message :=
    congrArg Warning.message heq
  cases herror : failure.error with
  | unsupported kind =>
    -- such a text ends in `n`, and no reason does
    have hlast := congrArg (·.toList.getLast?) hmessage
    have hreason : reason.message.toList.getLast? ≠ some 'n' := by cases reason <;> decide
    have hnonempty : reason.message.toList.getLast?.isSome := by cases reason <;> decide
    rw [herror, ConversionError.message, String.toList_append, String.toList_append,
      List.getLast?_append, List.getLast?_append, Option.or_of_isSome hnonempty] at hlast
    exact hreason hlast.symm
  | invalid kind message =>
    -- such a text begins with `i`
    have hfirst := congrArg (·.toList.head?) hmessage
    simp [herror, ConversionError.message] at hfirst

section Filter

open scoped Classical

/-- Reporting failures leaves the warnings about skipped options as they are. -/
theorem filter_isSkip_reportFailures (warnings : List Warning) (failures : List Failure) :
    (reportFailures warnings failures).filter (·.IsSkip) = warnings.filter (·.IsSkip) := by
  induction failures generalizing warnings with
  | nil => rfl
  | cons failure failures ih =>
    show (reportFailures (if _ then warnings else warnings ++ [failure.warning]) failures).filter _ = _
    rw [ih]
    by_cases hreported : failure.warning ∈ warnings
    · rw [if_pos hreported]
    · rw [if_neg hreported]
      simp [failure.not_isSkip_warning]

/-- The variants of a union are those of its options that have one, in their order. -/
theorem extractOptions_fst (converter : Converter) (site : UnionSite) (index : Nat)
    (warnings : List Warning) (options : List Shape) :
    (extractOptions converter site.path site.discriminator index warnings options).1 =
      options.filterMap (site.variant? converter) := by
  induction options generalizing index warnings with
  | nil => rfl
  | cons option options ih =>
    rw [extractOptions, List.filterMap_cons, UnionSite.variant?]
    cases option.discriminatorValue site.discriminator with
    | error reason => exact ih _ _
    | ok value => exact congrArg (List.cons _) (ih _ _)

/-- Of the warnings about skipped options, those of a union are added to those there were, each with
the number of its option. -/
theorem filter_isSkip_extractOptions (converter : Converter) (site : UnionSite) (index : Nat)
    (warnings : List Warning) (options : List Shape) :
    (extractOptions converter site.path site.discriminator index warnings options).2.filter
        (·.IsSkip) =
      warnings.filter (·.IsSkip) ++ (options.zipIdx index).filterMap site.skip? := by
  induction options generalizing index warnings with
  | nil => simp [extractOptions]
  | cons option options ih =>
    rw [extractOptions, List.zipIdx_cons, List.filterMap_cons, UnionSite.skip?]
    cases option.discriminatorValue site.discriminator with
    | error reason =>
      show (extractOptions _ _ _ _ _ _).2.filter _ = _
      rw [ih, List.filter_append]
      simp [isSkip_skipWarning]
    | ok value =>
      show (extractOptions _ _ _ _ _ _).2.filter _ = _
      rw [ih, filter_isSkip_reportFailures]

/-- Each site gives one union. -/
theorem extractUnions_fst (converter : Converter) (warnings : List Warning)
    (sites : List UnionSite) :
    (extractUnions converter warnings sites).1 = sites.map (·.union converter) := by
  induction sites generalizing warnings with
  | nil => rfl
  | cons site sites ih =>
    simp only [extractUnions, List.map_cons, UnionSite.union, extractOptions_fst, ih]

theorem filter_isSkip_extractUnions (converter : Converter) (warnings : List Warning)
    (sites : List UnionSite) :
    (extractUnions converter warnings sites).2.filter (·.IsSkip) =
      warnings.filter (·.IsSkip) ++ sites.flatMap UnionSite.skips := by
  induction sites generalizing warnings with
  | nil => simp [extractUnions]
  | cons site sites ih =>
    rw [extractUnions, List.flatMap_cons, UnionSite.skips, ← List.append_assoc,
      ← filter_isSkip_extractOptions]
    exact ih _

/-! ### The walk -/

namespace Shape

/-- The unions of a walk are those of the sites of the shape, in their order. -/
theorem unions_walk (converter : Converter) (shape : Shape) :
    (shape.walk converter).unions = (shape.unionSites []).map (·.union converter) :=
  extractUnions_fst converter _ _

/-- The warnings of a walk about skipped options are those of its sites, in their order. -/
theorem filter_isSkip_walk (converter : Converter) (shape : Shape) :
    (shape.walk converter).warnings.filter (·.IsSkip) =
      (shape.unionSites []).flatMap UnionSite.skips := by
  show (extractUnions converter _ _).2.filter _ = _
  rw [filter_isSkip_extractUnions, filter_isSkip_reportFailures]
  rfl

/-- Different sites of a shape have different paths. -/
theorem pairwise_path_ne_unionSites {shape : Shape} (hdistinct : shape.DistinctFields) :
    (shape.unionSites []).Pairwise fun site other ↦ site.path ≠ other.path :=
  (diverge_unionSites shape [] hdistinct).imp fun h heq ↦ (heq ▸ h).apart_place.ne rfl

/-- **A walk finds every union, and every option of it.** For every shape whose objects are
dictionaries and for every converter there is a list of sites such that

* a union is in the list exactly if its path, followed from the root out of the wrappers at every
  hop, leads to it;
* the list is in depth-first declaration order, and no two paths in it are equal;
* the walk's unions are those at the sites, one each and in order, with the usable options in order;
* of the walk's warnings, those about skipped options are, site by site and in order, one for each
  other option, at the path of the union and with the number of the option;
* an option is usable exactly if it is an object whose discriminator field is a literal scalar, and
  the variant that it becomes carries that literal, its label and the option's own document. -/
theorem walk_unions_exact (converter : Converter) {shape : Shape}
    (hdistinct : shape.DistinctFields) :
    ∃ sites : List UnionSite,
      (∀ site, site ∈ sites ↔
        shape.follow? site.path = some (.variants site.discriminator site.options)) ∧
      sites.Pairwise (fun site other ↦
        shape.Precedes site.path other.path ∧ site.path ≠ other.path) ∧
      (shape.walk converter).unions = sites.map (fun site ↦
        ⟨site.path, site.discriminator, site.options.filterMap (site.variant? converter)⟩) ∧
      (shape.walk converter).warnings.filter (·.IsSkip) = sites.flatMap (fun site ↦
        site.options.zipIdx.filterMap site.skip?) ∧
      ∀ site ∈ sites, ∀ option ∈ site.options,
        (∀ variant, site.variant? converter option = some variant ↔
          ∃ fields value, option = .object fields ∧ (site.discriminator, .literal value) ∈ fields ∧
            value.isContainer = false ∧
            variant = ⟨value, value.literalLabel, (converter.lenient site.path option).doc⟩) ∧
        ∀ index, (site.variant? converter option = none ↔
          ∃ reason, site.skip? (option, index) = some (skipWarning site.path index reason)) := by
  refine ⟨shape.unionSites [], fun site ↦ mem_unionSites_iff hdistinct,
    (pairwise_precedes_unionSites shape).and (pairwise_path_ne_unionSites hdistinct),
    unions_walk converter shape, filter_isSkip_walk converter shape, ?_⟩
  intro site hsite option hoption
  obtain ⟨rest, -, hroute⟩ := leadsTo_of_mem_unionSites shape [] hsite
  have hunion : (variants site.discriminator site.options).DistinctFields :=
    hroute.distinctFields hdistinct
  exact ⟨fun variant ↦ site.variant?_eq_some_iff converter (hunion.of_mem_parts hoption),
    fun index ↦ site.variant?_eq_none_iff converter option index⟩

/-- A page with blocks behind wrappers, of which one has no literal and one is a union itself, and
with views further down. Nothing is looked for among the options and in records. -/
def page : Shape :=
  .object [
    ("blocks", .optional (.array (.variants "type" [
      .object [("type", .literal (.str "hero")),
        ("render", .other "option 0 skipped: option is not an object")],
      .object [("type", .string none none none none)],
      .variants "type" [.object [("type", .literal .null)]]]) none none)),
    ("asides", .record (.variants "type" [])),
    ("media", .nullable (.array (.object [
      ("view", .effects (.variants "kind" [.object [("kind", .literal (.bool true))]]))])
        none none))]

theorem walk_unions_exact_page :
    page.DistinctFields ∧ ∃ sites : List UnionSite,
      (∀ site, site ∈ sites ↔
        page.follow? site.path = some (.variants site.discriminator site.options)) ∧
      sites.map (fun site ↦ (site.path, site.discriminator)) =
        [([.field "blocks", .items], "type"),
          ([.field "media", .items, .field "view"], "kind")] ∧
      (page.walk .draft).warnings.filter (·.IsSkip) =
        [skipWarning [.field "blocks", .items] 1 .notALiteral,
          skipWarning [.field "blocks", .items] 2 .notAnObject] := by
  have hdistinct : page.DistinctFields :=
    distinctFields_of_ofJson? (show ofJson? page.toJson = some page from rfl)
  obtain ⟨sites, hsites, -, hunions, hskips, -⟩ := walk_unions_exact .draft hdistinct
  refine ⟨hdistinct, sites, hsites, ?_, ?_⟩
  · have hpairs : sites.map (fun site ↦ (site.path, site.discriminator)) =
        (page.walk .draft).unions.map (fun union ↦ (union.path, union.discriminator)) := by
      rw [hunions, List.map_map]
      rfl
    exact hpairs
  · rw [filter_isSkip_walk]
    rfl

end Shape

end Filter

end ContentSchema
