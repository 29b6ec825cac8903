import ContentSchema.Proofs.Enrich.Order
import ContentSchema.Proofs.Json.Settled
/-!
# What enriching leaves alone

A document is compared place by place, each node without its members: `Json.outline` is what a value
is by itself, the keys of an object in their order and all of any other value. Two documents with
the same outline at every place are the same document (`Settled.eq_of_outline_at?_eq`).

Attaching a union changes the outline of one node, by the key `blockTypes`, and what stands below
this key. No path steps through the key, and the type of the node stays, so each union finds in the
document it is attached to what it would find in the document at the start, and the changes of
a list of unions are those of its members (`outline_at?_enrich`). Where several unions meet at a
node, the last one is the one to be seen, since they can be brought together there by
`enrich_congr`. This is all that enriching does (`enrich_touches_blockTypes`).
-/

namespace ContentSchema

namespace Json

/-! ### Outlines -/

/-- A value with nothing said about the values of its members. -/
def outline : Json → Json
  | .obj members => .obj ((Keyed.keys members).map fun key ↦ (key, .null))
  | value => value

/-- Changing the value of a member does not show in the outline, which tells of an object its keys
only. -/
theorem outline_modifyMember (key : String) (f : Json → Json) (doc : Json) :
    (modifyMember key f doc).outline = doc.outline := by
  cases doc with
  | obj members => rw [modifyMember, outline, outline, Keyed.keys_modify]
  | _ => rfl

/-- What looks like an object from outside is one with the same keys. -/
theorem exists_members_of_outline_eq {doc : Json} {members : List (String × Json)}
    (h : doc.outline = (Json.obj members).outline) :
    ∃ members', doc = .obj members' ∧ Keyed.keys members' = Keyed.keys members := by
  cases doc with
  | obj members' =>
    refine ⟨members', rfl, ?_⟩
    have hkeys := congrArg (List.map Prod.fst) (Json.obj.inj h)
    simpa [Function.comp_def] using hkeys
  | _ => simp [outline] at h

/-- A value without repeated members is known by the outlines at its places. -/
theorem Settled.eq_of_outline_at?_eq {doc doc' : Json} (h : doc.Settled)
    (heq : ∀ place, (doc.at? place).map outline = (doc'.at? place).map outline) : doc = doc' := by
  induction h generalizing doc' with
  | @intro doc hkeys _ ih =>
    have houtline : doc.outline = doc'.outline := Option.some.inj (heq [])
    cases doc with
    | obj members =>
      obtain ⟨members', rfl, hsame⟩ := exists_members_of_outline_eq houtline.symm
      -- the outlines give the keys in their order, and the values agree by induction
      refine congrArg obj ((hkeys members rfl).eq_of_find?_eq hsame.symm fun key ↦ ?_)
      have hkey := heq [key]
      simp only [at?, get?, Option.bind_fun_some] at hkey
      cases hvalue : Keyed.find? members key with
      | none =>
        rw [hvalue] at hkey
        exact (Option.map_eq_none_iff.1 hkey.symm).symm
      | some value =>
        cases hvalue' : Keyed.find? members' key with
        | none => simp [hvalue, hvalue'] at hkey
        | some value' =>
          have hpart : value ∈ (obj members).parts :=
            List.mem_map_of_mem (f := (·.2)) (Keyed.mem_of_find? hvalue)
          refine congrArg some (ih value hpart fun place ↦ ?_)
          simpa [at?, get?, hvalue, hvalue'] using heq (key :: place)
    | _ => cases doc' <;> simp_all [outline]

/-- Attaching a union to a node changes no outline but that of the node, and those below its block
types. -/
theorem outline_at?_modifyPlace_attach (union : VariantUnion) {place other : List String}
    (hne : other ≠ place) (hup : ¬ place ++ ["blockTypes"] <+: other) (doc : Json) :
    ((modifyPlace union.attach place doc).at? other).map outline = (doc.at? other).map outline := by
  by_cases hdown : other <+: place
  · obtain ⟨_ | ⟨key, rest⟩, rfl⟩ := hdown
    · simp at hne
    · -- on the way to the node only the value of a member changes
      rw [modifyPlace_append, at?_modifyPlace, Option.map_map]
      exact congrArg (Option.map · _) (funext fun node ↦ outline_modifyMember key _ node)
  · rw [at?_modifyPlace_attach union hdown hup]

/-! ### Targets -/

/-- The place of an array that a union of the list leads to. -/
def IsTarget (doc : Json) (unions : List VariantUnion) (place : List String) : Prop :=
  ∃ union ∈ unions, union.path.place = place ∧ LeadsToArray union.path doc

instance (doc : Json) (unions : List VariantUnion) (place : List String) :
    Decidable (IsTarget doc unions place) :=
  inferInstanceAs (Decidable (∃ union ∈ unions, _))

variable {doc : Json} {unions : List VariantUnion} {place : List String}

/-- A place that one of the unions reaches is reached with one union more. -/
theorem IsTarget.cons (h : IsTarget doc unions place) (union : VariantUnion) :
    IsTarget doc (union :: unions) place := by
  obtain ⟨other, hother, hplace⟩ := h
  exact ⟨other, List.mem_cons_of_mem union hother, hplace⟩

/-- Attaching the block types of one union makes no place a target, and takes none from the targets.
-/
theorem isTarget_modifyPlace (union : VariantUnion) :
    IsTarget (modifyPlace union.attach union.path.place doc) unions place ↔
      IsTarget doc unions place := by
  simp only [IsTarget, leadsToArray_modifyPlace]

/-- Enriching changes no outline but those of the targets, and those below their block types. -/
theorem outline_at?_enrich (hplace : ¬ IsTarget doc unions place)
    (hbelow : ∀ target, IsTarget doc unions target → ¬ target ++ ["blockTypes"] <+: place) :
    ((doc.enrich unions).at? place).map outline = (doc.at? place).map outline := by
  induction unions generalizing doc with
  | nil => rfl
  | cons union unions ih =>
    by_cases harray : LeadsToArray union.path doc
    · have htarget : IsTarget doc (union :: unions) union.path.place :=
        ⟨union, List.mem_cons_self, rfl, harray⟩
      rw [enrich_cons, ih, outline_at?_modifyPlace_attach]
      · exact fun heq ↦ hplace (heq ▸ htarget)
      · exact hbelow _ htarget
      · exact fun h ↦ hplace (((isTarget_modifyPlace union).1 h).cons union)
      · exact fun target h ↦ hbelow target (((isTarget_modifyPlace union).1 h).cons union)
    · rw [enrich_cons_of_not_leadsToArray harray]
      exact ih (fun h ↦ hplace (h.cons union)) fun target h ↦ hbelow target (h.cons union)

/-! ### Several unions at one node -/

/-- Of unions that lead to one place only the last counts. -/
theorem enrich_of_getLast? {last : VariantUnion} (hlast : unions.getLast? = some last)
    (hplace : ∀ union ∈ unions, union.path.place = place) (doc : Json) :
    doc.enrich unions = modifyPlace last.attach place doc := by
  obtain ⟨before, rfl⟩ := List.getLast?_eq_some_iff.1 hlast
  rw [List.forall_mem_append, List.forall_mem_singleton] at hplace
  obtain ⟨hbefore, rfl⟩ := hplace
  clear hlast
  induction before with
  | nil => exact enrich_cons doc last []
  | cons first before ih =>
    obtain ⟨hfirst, hbefore⟩ := List.forall_mem_cons.1 hbefore
    have hlater : last ∈ before ++ [last] := List.mem_append_right before List.mem_cons_self
    rw [List.cons_append, enrich_cons_of_later hlater hfirst.symm, ih hbefore]

/-- The unions of a list can be brought together at a place. -/
theorem enrich_partition (doc : Json) (unions : List VariantUnion) (place : List String) :
    doc.enrich unions = (doc.enrich (unions.filter (·.path.place ≠ place))).enrich
      (unions.filter (·.path.place = place)) := by
  rw [← enrich_append]
  refine (enrich_congr fun path _ ↦ ?_).symm
  rw [List.filter_append, List.filter_filter, List.filter_filter]
  by_cases hpath : path.place = place
  · simp [hpath]
  · have hothers : (fun union : VariantUnion ↦ decide (union.path.place = path.place) &&
        decide (union.path.place ≠ place)) =
        fun union ↦ decide (union.path.place = path.place) := by
      funext union
      by_cases hunion : union.path.place = path.place <;> simp [hunion, hpath]
    have hown : (fun union : VariantUnion ↦ decide (union.path.place = path.place) &&
        decide (union.path.place = place)) = fun _ ↦ false := by
      funext union
      by_cases hunion : union.path.place = path.place <;> simp [hunion, hpath]
    rw [hothers, hown, List.filter_false, List.append_nil]

/-- Unions that lead elsewhere leave an array what it is, with the same keys. -/
theorem exists_members_of_elsewhere {path : Path} {members : List (String × Json)}
    (hat : doc.at? path.place = some (.obj members)) (harray : NamesType (.obj members) "array")
    (helsewhere : ∀ union ∈ unions, union.path.place ≠ path.place) :
    ∃ members', (doc.enrich unions).at? path.place = some (.obj members') ∧
      Keyed.keys members' = Keyed.keys members ∧ NamesType (.obj members') "array" := by
  have houtline : ((doc.enrich unions).at? path.place).map outline =
      some (Json.obj members).outline := by
    rw [outline_at?_enrich, hat, Option.map_some]
    · rintro ⟨union, hunion, hplace, -⟩
      exact helsewhere union hunion hplace
    · rintro target ⟨union, -, rfl, -⟩
      exact Path.not_append_prefix_place (by decide) (by decide)
  obtain ⟨node, hnode, hsame⟩ := Option.map_eq_some_iff.1 houtline
  obtain ⟨members', rfl, hkeys⟩ := exists_members_of_outline_eq hsame
  refine ⟨members', hnode, hkeys, ?_⟩
  obtain ⟨_, hnode', harray'⟩ := (leadsToArray_enrich path doc unions).2
    ⟨_, by rw [resolve?_eq_at?, hat], harray⟩
  rw [resolve?_eq_at?, hnode] at hnode'
  exact Option.some.inj hnode' ▸ harray'

/-- A target gets the block types of the last union that leads to it, and keeps its other keys in
their order. -/
theorem exists_members_of_isTarget (h : IsTarget doc unions place) :
    ∃ members members' last,
      doc.at? place = some (.obj members) ∧
      (doc.enrich unions).at? place = some (.obj members') ∧
      Keyed.keys members' = (if "blockTypes" ∈ Keyed.keys members then Keyed.keys members
        else Keyed.keys members ++ ["blockTypes"]) ∧
      (unions.filter (·.path.place = place)).getLast? = some last ∧
      Keyed.find? members' "blockTypes" = some (.obj last.blockTypes) := by
  obtain ⟨union, hunion, rfl, harray⟩ := h
  set own := unions.filter (·.path.place = union.path.place) with hown
  set others := unions.filter (·.path.place ≠ union.path.place) with hothers
  obtain ⟨last, hlast⟩ : ∃ last, own.getLast? = some last := by
    have hne : own ≠ [] := List.ne_nil_of_mem (List.mem_filter.2 ⟨hunion, by simp⟩)
    exact ⟨own.getLast hne, List.getLast?_eq_some_getLast hne⟩
  obtain ⟨node, hnode, htype⟩ := harray
  obtain ⟨members, rfl⟩ := htype.exists_members
  rw [resolve?_eq_at?] at hnode
  -- first come the unions of other places, which leave the node an array with its keys
  obtain ⟨middle, hmiddle, hkeys, hmiddleType⟩ : ∃ middle,
      (doc.enrich others).at? union.path.place = some (.obj middle) ∧
      Keyed.keys middle = Keyed.keys members ∧ NamesType (.obj middle) "array" :=
    exists_members_of_elsewhere hnode htype (by simp [hothers])
  have hplace : ∀ other ∈ own, other.path.place = union.path.place := by simp [hown]
  refine ⟨members, Keyed.insert middle "blockTypes" (.obj last.blockTypes), last, hnode, ?_, ?_,
    hlast, ?_⟩
  · rw [enrich_partition doc unions union.path.place, ← hown, ← hothers,
      enrich_of_getLast? hlast hplace, at?_modifyPlace, hmiddle, Option.map_some,
      last.attach_of_namesType hmiddleType]
  · rw [Keyed.keys_insert, hkeys]
  · rw [Keyed.find?_insert, if_pos rfl]

/-- **Enriching touches nothing but block types.** For every document and every list of unions, well
formed or not, the places that matter are those of the arrays to which the paths of unions lead in
the document as it is given.

* At every other place that is not below the block types of such an array, the enriched document
  has what the given one has: a value that is no object is the same, and an object has the same keys
  in the same order.
* On such an array the other keys are as they were, and `blockTypes` stands where it stood, or else
  after them. It holds the block types of the last of the unions that lead there.
* A union that leads nowhere, or to something else, can be left out. -/
theorem enrich_touches_blockTypes (doc : Json) (unions : List VariantUnion) :
    (∀ place, ¬ IsTarget doc unions place →
      (∀ target, IsTarget doc unions target → ¬ target ++ ["blockTypes"] <+: place) →
      ((doc.enrich unions).at? place).map outline = (doc.at? place).map outline) ∧
    (∀ place, IsTarget doc unions place → ∃ members members' last,
      doc.at? place = some (.obj members) ∧
      (doc.enrich unions).at? place = some (.obj members') ∧
      Keyed.keys members' = (if "blockTypes" ∈ Keyed.keys members then Keyed.keys members
        else Keyed.keys members ++ ["blockTypes"]) ∧
      (unions.filter (·.path.place = place)).getLast? = some last ∧
      Keyed.find? members' "blockTypes" = some (.obj last.blockTypes)) ∧
    ∀ before union after, unions = before ++ union :: after → ¬ LeadsToArray union.path doc →
      doc.enrich unions = doc.enrich (before ++ after) := by
  refine ⟨fun place ↦ outline_at?_enrich, fun place ↦ exists_members_of_isTarget, ?_⟩
  rintro before union after rfl hunion
  have hbefore : ¬ LeadsToArray union.path (doc.enrich before) :=
    fun h ↦ hunion ((leadsToArray_enrich union.path doc before).1 h)
  rw [enrich_append, enrich_cons_of_not_leadsToArray hbefore, ← enrich_append]

/-- A document that is an array and has fields named like the keywords of documents. -/
def keywordPage : Json :=
  .obj [("blockTypes", .str "none yet"), ("type", .arr [.str "null", .str "array"]),
    ("properties", .obj [
      ("items", .str "array"),
      ("blockTypes", .obj [("type", .str "array"), ("items", .arr [])])])]

/-- Unions at the document itself, at its two fields, at a field that it does not have, and at the
document again. -/
def keywordUnions : List VariantUnion := [
  ⟨[.items], "kind", [⟨.str "text", "Text", .obj []⟩]⟩,
  ⟨[.field "items", .items], "kind", []⟩,
  ⟨[.field "blockTypes"], "kind", [⟨.str "quote", "Quote", .obj []⟩]⟩,
  ⟨[.field "type", .items, .items], "kind", []⟩,
  ⟨[], "kind", [⟨.bool true, "true", .null⟩]⟩]

theorem enrich_touches_blockTypes_keywords :
    ((keywordPage.enrich keywordUnions).at? ["properties", "items"]).map outline =
      some (.str "array") ∧
    (∃ members, (keywordPage.enrich keywordUnions).at? [] = some (.obj members) ∧
      Keyed.keys members = ["blockTypes", "type", "properties"] ∧
      Keyed.find? members "blockTypes" = some (.obj [("true", .null)])) ∧
    keywordPage.enrich keywordUnions = keywordPage.enrich (keywordUnions.eraseIdx 3) := by
  obtain ⟨hothers, htargets, hnone⟩ := enrich_touches_blockTypes keywordPage keywordUnions
  have hbelow : ∀ union ∈ keywordUnions,
      ¬ union.path.place ++ ["blockTypes"] <+: ["properties", "items"] := by decide
  refine ⟨(hothers ["properties", "items"] (by decide) ?_).trans rfl, ?_,
    hnone (keywordUnions.take 3) _ (keywordUnions.drop 4) rfl (by decide)⟩
  · rintro target ⟨union, hunion, rfl, -⟩
    exact hbelow union hunion
  · obtain ⟨members, members', last, hmembers, hmembers', hkeys, hlast, hblocks⟩ :=
      htargets [] (by decide)
    obtain rfl := Json.obj.inj (Option.some.inj hmembers)
    obtain rfl := Option.some.inj hlast
    exact ⟨members', hmembers', hkeys.trans (by decide), hblocks⟩

end Json

end ContentSchema
