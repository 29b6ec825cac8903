import Mathlib.Data.List.Chain
import Mathlib.Data.List.Induction
import ContentSchema.Proofs.Watch.Poll
/-!
# What a watcher reports

A watch is a first snapshot of some paths and the looks that follow it. `Watcher.after` is the watcher
that a sequence of looks leads to, and `Watcher.reports` is what it has reported on the way, each
report with the snapshot that it is about.

* `reports_sound`: a report is about a snapshot that has stayed for the debounce time, and names what
  differs from the baseline. Nothing else moves the baseline, so it can be read off the reports, and
  no change is told by two of them.
* `reports_of_stays`: a snapshot that stays for the debounce time is the baseline afterwards, and what
  is new in it has been reported once, whatever was pending when it was first seen.

The first rests on what is pending having been seen ever since (`exists_stay_of_pending`). The second
rests on a debt (`report?_append_due`): what a look reports and what is still to be reported after it
are together what was to be reported before, so that it does not matter which look pays.
-/

namespace ContentSchema

/-! ### Two snapshots of the same paths -/

/-- The paths at whose places two snapshots differ, in order. -/
def differing (paths : List String) (old new : List Fingerprint) : List String :=
  (paths.zipIdx.filter fun entry ↦ old[entry.2]? ≠ new[entry.2]?).map (·.1)

theorem differing_cons (path : String) (paths : List String) (before after : Fingerprint)
    (old new : List Fingerprint) :
    differing (path :: paths) (before :: old) (after :: new) =
      if before ≠ after then path :: differing paths old new else differing paths old new := by
  -- the numbers of the later entries are those that they have by themselves, plus one
  have hrest : ((paths.zipIdx 1).filter fun entry ↦
      (before :: old)[entry.2]? ≠ (after :: new)[entry.2]?).map (·.1) = differing paths old new := by
    rw [differing, List.zipIdx_succ, List.filter_map, List.map_map]
    rfl
  rw [differing, List.zipIdx_cons, List.filter_cons, ← hrest]
  by_cases h : before = after <;> simp [h]

section Snapshots

variable {paths : List String} {old new : List Fingerprint}

/-- Looking the paths up by their index and going through the three lists side by side come to the
same changed paths. -/
theorem changedPaths_eq_differing (hold : old.length = paths.length)
    (hnew : new.length = paths.length) : changedPaths paths old new = differing paths old new := by
  induction paths generalizing old new with
  | nil => rfl
  | cons path paths ih =>
    obtain ⟨before, old, rfl⟩ := List.exists_cons_of_length_eq_add_one hold
    obtain ⟨after, new, rfl⟩ := List.exists_cons_of_length_eq_add_one hnew
    rw [differing_cons, ← ih (Nat.succ.inj hold) (Nat.succ.inj hnew)]
    by_cases h : before = after <;> simp [changedPaths, h]

/-- No path differs just when the two looks are equal. -/
theorem differing_eq_nil_iff (hold : old.length = paths.length) (hnew : new.length = paths.length) :
    differing paths old new = [] ↔ old = new := by
  constructor
  · intro h
    exact eq_of_changedPaths_eq_nil ((changedPaths_eq_differing hold hnew).trans h) hold hnew
  · rintro rfl
    simp [differing]

namespace Watcher

/-- What a watcher tells of a change. -/
structure Report where
  /-- The paths that it names. -/
  changed : List String
  /-- The snapshot that it is about. -/
  snapshot : List Fingerprint
deriving DecidableEq

/-- A snapshot whose entries for the paths that a report names are those of the report's snapshot. -/
def adopt (paths : List String) (snapshot : List Fingerprint) (report : Report) : List Fingerprint :=
  (paths.zip (snapshot.zip report.snapshot)).map fun entry ↦
    if entry.1 ∈ report.changed then entry.2.2 else entry.2.1

/-- A baseline that adopts the changed paths of a look is that look. -/
theorem adopt_differing (hold : old.length = paths.length) (hnew : new.length = paths.length) :
    adopt paths old ⟨differing paths old new, new⟩ = new := by
  rw [← changedPaths_eq_differing hold hnew]
  have hentries : ∀ entry ∈ paths.zip (old.zip new),
      (if entry.1 ∈ changedPaths paths old new then entry.2.2 else entry.2.1) = entry.2.2 := by
    intro entry hentry
    split
    next => rfl
    next hunnamed =>
      by_contra hne
      exact hunnamed (List.mem_map.2 ⟨entry, List.mem_filter.2 ⟨hentry, by simpa using hne⟩, rfl⟩)
  calc adopt paths old ⟨changedPaths paths old new, new⟩
      = (paths.zip (old.zip new)).map (·.2.2) := List.map_congr_left hentries
    _ = ((paths.zip (old.zip new)).map (·.2)).map (·.2) := by rw [List.map_map]; rfl
    _ = new := by
      rw [List.map_snd_zip (by simp [hold, hnew]), List.map_snd_zip (by simp [hold, hnew])]

/-- The report that is due when one snapshot takes the place of another. -/
def due (paths : List String) (old new : List Fingerprint) : List Report :=
  if old = new then [] else [⟨differing paths old new, new⟩]

@[simp] theorem due_self (snapshot : List Fingerprint) : due paths snapshot snapshot = [] :=
  if_pos rfl

end Watcher

end Snapshots

/-! ### One look -/

namespace Watcher

/-- The watcher after a sequence of looks. -/
def after (paths : List String) (debounce : Nat) (watcher : Watcher) (looks : List Look) : Watcher :=
  looks.foldl (fun watcher look ↦ (watcher.poll paths debounce look).2) watcher

/-- What a look reports, if it reports anything. -/
def report? (paths : List String) (debounce : Nat) (watcher : Watcher) (look : Look) :
    Option Report :=
  let changed := (watcher.poll paths debounce look).1
  if changed = [] then none else some ⟨changed, look.snapshot⟩

/-- What a sequence of looks reports, in order. -/
def reports (paths : List String) (debounce : Nat) (watcher : Watcher) : List Look → List Report
  | [] => []
  | look :: looks =>
    (watcher.report? paths debounce look).toList ++
      reports paths debounce (watcher.poll paths debounce look).2 looks

variable {paths : List String} {debounce : Nat} {watcher : Watcher} {initial : List Fingerprint}
  {look : Look} {looks : List Look}

theorem Poll.of_poll (watcher : Watcher) (look : Look) :
    Poll paths debounce watcher look (watcher.poll paths debounce look).1
      (watcher.poll paths debounce look).2 :=
  poll_spec rfl

/-- A look leaves the baseline as it is and reports nothing, or it reports what differs from the
baseline in a snapshot that was pending for the debounce time and is the baseline from then on. -/
theorem report?_cases (hbaseline : watcher.baseline.length = paths.length)
    (hlook : look.snapshot.length = paths.length) :
    watcher.report? paths debounce look = none ∧
      (watcher.poll paths debounce look).2.baseline = watcher.baseline ∨
    watcher.report? paths debounce look =
        some ⟨differing paths watcher.baseline look.snapshot, look.snapshot⟩ ∧
      watcher.baseline ≠ look.snapshot ∧
      (watcher.poll paths debounce look).2.baseline = look.snapshot ∧
      ∃ since, watcher.pending = some (look.snapshot, since) ∧ debounce ≤ look.now - since := by
  obtain ⟨changed, next, hpoll⟩ : ∃ changed next,
      watcher.poll paths debounce look = (changed, next) := ⟨_, _, rfl⟩
  rw [report?, hpoll]
  cases poll_spec hpoll with
  | quiet | waits | turns => exact .inl ⟨rfl, rfl⟩
  | @reports since hpending hstayed =>
    rw [changedPaths_eq_differing hbaseline hlook]
    by_cases hsame : watcher.baseline = look.snapshot
    · -- the files have come back to what they were
      rw [if_pos ((differing_eq_nil_iff hbaseline hlook).2 hsame)]
      exact .inl ⟨rfl, hsame.symm⟩
    · rw [if_neg (mt (differing_eq_nil_iff hbaseline hlook).1 hsame)]
      exact .inr ⟨rfl, hsame, rfl, since, hpending, hstayed⟩

/-- A poll keeps one fingerprint for each path. -/
theorem length_baseline_poll (hbaseline : watcher.baseline.length = paths.length)
    (hlook : look.snapshot.length = paths.length) :
    (watcher.poll paths debounce look).2.baseline.length = paths.length := by
  rcases report?_cases hbaseline hlook with ⟨-, hsame⟩ | ⟨-, -, hmoved, -⟩
  · rwa [hsame]
  · rwa [hmoved]

/-- The baseline after a poll is the one before it with the report, if there is one, adopted. -/
theorem foldl_adopt_report? (hbaseline : watcher.baseline.length = paths.length)
    (hlook : look.snapshot.length = paths.length) :
    (watcher.report? paths debounce look).toList.foldl (adopt paths) watcher.baseline =
      (watcher.poll paths debounce look).2.baseline := by
  rcases report?_cases hbaseline hlook with ⟨hnone, hsame⟩ | ⟨hreport, -, hmoved, -⟩
  · rw [hnone, hsame]
    rfl
  · rw [hreport, hmoved]
    exact adopt_differing hbaseline hlook

/-- What a look reports, with what is due after it, was due before it. -/
theorem report?_append_due (hbaseline : watcher.baseline.length = paths.length)
    (hlook : look.snapshot.length = paths.length) :
    (watcher.report? paths debounce look).toList ++
        due paths (watcher.poll paths debounce look).2.baseline look.snapshot =
      due paths watcher.baseline look.snapshot := by
  rcases report?_cases hbaseline hlook with ⟨hnone, hsame⟩ | ⟨hreport, hne, hmoved, -⟩
  · rw [hnone, hsame]
    rfl
  · rw [hreport, hmoved, due_self, due, if_neg hne]
    rfl

/-! ### Sequences of looks -/

theorem after_cons (look : Look) (looks : List Look) :
    watcher.after paths debounce (look :: looks) =
      (watcher.poll paths debounce look).2.after paths debounce looks :=
  rfl

theorem after_append (before looks : List Look) :
    watcher.after paths debounce (before ++ looks) =
      (watcher.after paths debounce before).after paths debounce looks :=
  List.foldl_append

/-- The last poll is made by the watcher that the others left. -/
theorem after_concat (looks : List Look) (look : Look) :
    watcher.after paths debounce (looks ++ [look]) =
      ((watcher.after paths debounce looks).poll paths debounce look).2 :=
  after_append looks [look]

section Lengths

variable (hbaseline : watcher.baseline.length = paths.length)
  (hlooks : ∀ look ∈ looks, look.snapshot.length = paths.length)

include hbaseline hlooks

theorem length_baseline_after :
    (watcher.after paths debounce looks).baseline.length = paths.length := by
  induction looks generalizing watcher with
  | nil => exact hbaseline
  | cons look looks ih =>
    obtain ⟨hlook, hlooks⟩ := List.forall_mem_cons.1 hlooks
    exact ih (length_baseline_poll hbaseline hlook) hlooks

/-- Adopting one report after the other leads from one baseline to the other. -/
theorem foldl_adopt_reports :
    (watcher.reports paths debounce looks).foldl (adopt paths) watcher.baseline =
      (watcher.after paths debounce looks).baseline := by
  induction looks generalizing watcher with
  | nil => rfl
  | cons look looks ih =>
    obtain ⟨hlook, hlooks⟩ := List.forall_mem_cons.1 hlooks
    rw [reports, List.foldl_append, foldl_adopt_report? hbaseline hlook]
    exact ih (length_baseline_poll hbaseline hlook) hlooks

/-- Each report names what differs from the report before it, and the first one what differs from
what the watcher began with. -/
theorem isChain_reports {first : Report} (hfirst : first.snapshot = watcher.baseline) :
    (first :: watcher.reports paths debounce looks).IsChain fun report next ↦
      next.changed = differing paths report.snapshot next.snapshot := by
  induction looks generalizing watcher first with
  | nil => exact List.isChain_singleton first
  | cons look looks ih =>
    obtain ⟨hlook, hlooks⟩ := List.forall_mem_cons.1 hlooks
    have hnext : (watcher.poll paths debounce look).2.baseline.length = paths.length :=
      length_baseline_poll hbaseline hlook
    rw [reports]
    rcases report?_cases hbaseline hlook with ⟨hnone, hsame⟩ | ⟨hreport, -, hmoved, -⟩
    · rw [hnone]
      exact ih hnext hlooks (hfirst.trans hsame.symm)
    · rw [hreport]
      refine List.isChain_cons_cons.2 ⟨?_, ih hnext hlooks hmoved.symm⟩
      rw [hfirst]

/-- Looks that all see one snapshot report what is due for it, but for what is still due afterwards. -/
theorem reports_append_due {snapshot : List Fingerprint}
    (hsame : ∀ look ∈ looks, look.snapshot = snapshot) :
    watcher.reports paths debounce looks ++
        due paths (watcher.after paths debounce looks).baseline snapshot =
      due paths watcher.baseline snapshot := by
  induction looks generalizing watcher with
  | nil => rfl
  | cons look looks ih =>
    obtain ⟨hlook, hlooks⟩ := List.forall_mem_cons.1 hlooks
    obtain ⟨rfl, hsame⟩ := List.forall_mem_cons.1 hsame
    rw [reports, List.append_assoc, after_cons, ih (length_baseline_poll hbaseline hlook) hlooks hsame]
    exact report?_append_due hbaseline hlook

end Lengths

/-! ### What is pending has stayed -/

/-- What is pending has been seen by every look since it was first seen. -/
theorem exists_stay_of_pending {candidate : List Fingerprint} {since : Nat}
    (h : (after paths debounce { baseline := initial } looks).pending = some (candidate, since)) :
    ∃ earlier first stay, looks = earlier ++ first :: stay ∧ first.now = since ∧
      ∀ seen ∈ first :: stay, seen.snapshot = candidate := by
  induction looks using List.reverseRec with
  | nil => cases h
  | append_singleton looks look ih =>
    rw [after_concat] at h
    generalize hpoll : (after paths debounce { baseline := initial } looks).poll paths debounce
      look = result at h
    obtain ⟨changed, next⟩ := result
    cases poll_spec hpoll with
    | quiet hnone => cases hnone.symm.trans h
    | waits hpending =>
      -- the stay so far goes on with this look
      obtain ⟨earlier, first, stay, rfl, hfirst, hstay⟩ := ih h
      obtain ⟨rfl, -⟩ := Prod.mk.inj (Option.some.inj (h.symm.trans hpending))
      refine ⟨earlier, first, stay ++ [look], by simp, hfirst, ?_⟩
      exact List.forall_mem_append.2 ⟨hstay, List.forall_mem_singleton.2 rfl⟩
    | turns =>
      obtain ⟨rfl, rfl⟩ := Prod.mk.inj (Option.some.inj h)
      exact ⟨looks, look, [], rfl, rfl, List.forall_mem_singleton.2 rfl⟩
    | reports => cases h

/-- A watch of some paths: a first snapshot of them and the looks that follow, by a clock that does
not go back. -/
structure Watch (paths : List String) (initial : List Fingerprint) (looks : List Look) : Prop where
  length_initial : initial.length = paths.length
  length_look : ∀ look ∈ looks, look.snapshot.length = paths.length
  clock : looks.Pairwise fun look later ↦ look.now ≤ later.now

namespace Watch

variable {before : List Look}

theorem left (h : Watch paths initial (before ++ looks)) : Watch paths initial before :=
  ⟨h.length_initial, fun look hlook ↦ h.length_look look (List.mem_append_left looks hlook),
    (List.pairwise_append.1 h.clock).1⟩

theorem length_baseline (h : Watch paths initial looks) :
    (after paths debounce { baseline := initial } looks).baseline.length = paths.length :=
  length_baseline_after h.length_initial h.length_look

/-- What is pending is not pending since later than the next look. -/
theorem since_le {candidate : List Fingerprint} {since : Nat}
    (h : Watch paths initial (before ++ look :: looks))
    (hpending : (after paths debounce { baseline := initial } before).pending =
      some (candidate, since)) : since ≤ look.now := by
  obtain ⟨earlier, first, stay, rfl, rfl, -⟩ := exists_stay_of_pending hpending
  have hclock := (List.pairwise_append.1 h.clock).2.2
  exact hclock first (List.mem_append_right earlier List.mem_cons_self) look List.mem_cons_self

end Watch

/-- **Reports are sound, and none tells a change again.** In a watch,

* a look that reports has seen a snapshot that all looks since an earlier one have seen, and the
  earlier one was at least the debounce time before it; the report names the paths, of which there is
  one at least, whose fingerprints in the snapshot differ from the baseline, in order; and the
  snapshot is the baseline afterwards;
* adopting one report after the other makes the baseline of the first snapshot, at any time;
* each report names what differs from the snapshot of the report before it, and the first one what
  differs from the first snapshot. -/
theorem reports_sound (h : Watch paths initial looks) :
    (∀ before look rest report, looks = before ++ look :: rest →
      (after paths debounce { baseline := initial } before).report? paths debounce look =
        some report →
      (∃ earlier first stay, before = earlier ++ first :: stay ∧
        (∀ seen ∈ first :: stay, seen.snapshot = look.snapshot) ∧
        first.now + debounce ≤ look.now) ∧
      report.snapshot = look.snapshot ∧ report.changed ≠ [] ∧
      report.changed = differing paths
        (after paths debounce { baseline := initial } before).baseline look.snapshot ∧
      (after paths debounce { baseline := initial } (before ++ [look])).baseline = look.snapshot) ∧
    (∀ before rest, looks = before ++ rest →
      (reports paths debounce { baseline := initial } before).foldl (adopt paths) initial =
        (after paths debounce { baseline := initial } before).baseline) ∧
    (⟨[], initial⟩ :: reports paths debounce { baseline := initial } looks).IsChain
      fun report next ↦ next.changed = differing paths report.snapshot next.snapshot := by
  refine ⟨?_, ?_, isChain_reports h.length_initial h.length_look rfl⟩
  · rintro before look rest report rfl hreport
    have hlook : look.snapshot.length = paths.length :=
      h.length_look look (List.mem_append_right before List.mem_cons_self)
    have hbaseline :
        (after paths debounce { baseline := initial } before).baseline.length = paths.length :=
      h.left.length_baseline
    rcases report?_cases hbaseline hlook with ⟨hnone, -⟩ | ⟨hsome, hne, hmoved, since, hpending, hlate⟩
    · cases hnone.symm.trans hreport
    · obtain rfl := Option.some.inj (hsome.symm.trans hreport)
      have hsince := h.since_le hpending
      obtain ⟨earlier, first, stay, hbefore, rfl, hstay⟩ := exists_stay_of_pending hpending
      refine ⟨⟨earlier, first, stay, hbefore, hstay, by omega⟩, rfl, ?_, rfl, ?_⟩
      · exact mt (differing_eq_nil_iff hbaseline hlook).1 hne
      · rw [after_concat, hmoved]
  · rintro before rest rfl
    exact @foldl_adopt_reports paths debounce { baseline := initial } before h.length_initial
      h.left.length_look

/-- An edit that is undone too early to be reported, and one that comes again together with another. -/
def undoneAndRepeated : List Look :=
  [⟨0, [.present "b", .missing]⟩, ⟨10, [.present "a", .missing]⟩, ⟨80, [.present "a", .missing]⟩,
    ⟨90, [.present "b", .missing]⟩, ⟨120, [.present "b", .present "c"]⟩,
    ⟨180, [.present "b", .present "c"]⟩]

theorem reports_sound_undone :
    Watch ["config.ts", "content.config.ts"] [.present "a", .missing] undoneAndRepeated ∧
    reports ["config.ts", "content.config.ts"] 60 { baseline := [.present "a", .missing] }
      undoneAndRepeated =
        [⟨["config.ts", "content.config.ts"], [.present "b", .present "c"]⟩] ∧
    (∃ earlier first stay, undoneAndRepeated.take 5 = earlier ++ first :: stay ∧
      (∀ seen ∈ first :: stay, seen.snapshot = [.present "b", .present "c"]) ∧
      first.now + 60 ≤ 180) ∧
    adopt ["config.ts", "content.config.ts"] [.present "a", .missing]
      ⟨["config.ts", "content.config.ts"], [.present "b", .present "c"]⟩ =
        [.present "b", .present "c"] := by
  have hwatch : Watch ["config.ts", "content.config.ts"] [.present "a", .missing]
      undoneAndRepeated :=
    ⟨rfl, by simp [undoneAndRepeated], by simp [undoneAndRepeated]⟩
  obtain ⟨hreports, hreplay, -⟩ := @reports_sound _ 60 _ _ hwatch
  exact ⟨hwatch, rfl, (hreports (undoneAndRepeated.take 5) _ [] _ rfl rfl).1,
    hreplay undoneAndRepeated [] rfl⟩

/-! ### What stays is reported -/

section Stays

variable {snapshot : List Fingerprint}

/-- While a snapshot stays, it goes on being expected or pending, and the latter since no later. -/
theorem expects_or_pending_after {till : Nat} (hsame : ∀ look ∈ looks, look.snapshot = snapshot)
    (h : watcher.Expects snapshot ∨ ∃ since ≤ till, watcher.pending = some (snapshot, since)) :
    (watcher.after paths debounce looks).Expects snapshot ∨
      ∃ since ≤ till, (watcher.after paths debounce looks).pending = some (snapshot, since) := by
  induction looks generalizing watcher with
  | nil => exact h
  | cons look looks ih =>
    obtain ⟨rfl, hsame⟩ := List.forall_mem_cons.1 hsame
    have hlook : Poll paths debounce watcher look _ _ := .of_poll watcher look
    rw [after_cons]
    refine ih hsame ?_
    rcases h with hexpects | ⟨since, hle, hpending⟩
    · exact .inl (by rwa [hlook.of_expects hexpects])
    · rcases hlook.of_pending hpending with ⟨hwaits, -⟩ | hexpects
      · exact .inr ⟨since, hle, by rwa [hwaits]⟩
      · exact .inl hexpects

variable {before between : List Look} {first last : Look}

/-- A snapshot that stays for the debounce time is expected afterwards, whatever was pending before,
unless that was pending since later than the first look at it. -/
theorem expects_after_of_stays
    (hsame : ∀ look ∈ first :: (between ++ [last]), look.snapshot = snapshot)
    (hspan : first.now + debounce ≤ last.now)
    (hsince : ∀ since, watcher.pending = some (snapshot, since) → since ≤ first.now) :
    (watcher.after paths debounce (first :: (between ++ [last]))).Expects snapshot := by
  obtain ⟨rfl, hsame⟩ := List.forall_mem_cons.1 hsame
  obtain ⟨hbetween, hlast⟩ := List.forall_mem_append.1 hsame
  have hlast : last.snapshot = first.snapshot := hlast last List.mem_cons_self
  have hfirst : Poll paths debounce watcher first _ _ := .of_poll watcher first
  -- after the first look the snapshot is expected, or it is pending since then or for longer
  have hseen : (watcher.poll paths debounce first).2.Expects first.snapshot ∨
      ∃ since ≤ first.now,
        (watcher.poll paths debounce first).2.pending = some (first.snapshot, since) := by
    refine hfirst.expects_or_pending.imp_right ?_
    rintro ⟨since, hpending, rfl | hearlier⟩
    · exact ⟨first.now, Nat.le_refl _, hpending⟩
    · exact ⟨since, hsince since hearlier, hpending⟩
  rw [after_cons, after_concat]
  have hreached := @expects_or_pending_after paths debounce _ _ _ _ hbetween hseen
  generalize (watcher.poll paths debounce first).2.after paths debounce between = reached at hreached ⊢
  have hlook : Poll paths debounce reached last _ _ := .of_poll reached last
  rw [← hlast] at hreached ⊢
  rcases hreached with hexpects | ⟨since, hle, hpending⟩
  · rwa [hlook.of_expects hexpects]
  · rcases hlook.of_pending hpending with ⟨-, hearly⟩ | hexpects
    · -- the last look comes too late to wait any more
      omega
    · exact hexpects

end Stays

/-- **No change that stays is lost.** In a watch let all looks from `first` to a later one, `last`, see
one snapshot, and `last` come at least the debounce time after `first`. Then the snapshot is the
baseline after `last`. If it was the baseline before `first`, nothing has been reported in between, and
else one report has been made, which names exactly the paths whose fingerprints in the snapshot differ
from that baseline, in order. -/
theorem reports_of_stays {before between : List Look} {first last : Look}
    {snapshot : List Fingerprint}
    (h : Watch paths initial (before ++ first :: (between ++ [last])))
    (hwatcher : after paths debounce { baseline := initial } before = watcher)
    (hsame : ∀ look ∈ first :: (between ++ [last]), look.snapshot = snapshot)
    (hspan : first.now + debounce ≤ last.now) :
    (watcher.after paths debounce (first :: (between ++ [last]))).baseline = snapshot ∧
      watcher.reports paths debounce (first :: (between ++ [last])) =
        if watcher.baseline = snapshot then []
        else [⟨differing paths watcher.baseline snapshot, snapshot⟩] := by
  have hlength : watcher.baseline.length = paths.length := hwatcher ▸ h.left.length_baseline
  have hexpects : (watcher.after paths debounce (first :: (between ++ [last]))).Expects snapshot :=
    expects_after_of_stays hsame hspan fun since hpending ↦ h.since_le (hwatcher ▸ hpending)
  refine ⟨hexpects.baseline, ?_⟩
  calc watcher.reports paths debounce (first :: (between ++ [last]))
      = watcher.reports paths debounce (first :: (between ++ [last])) ++
          due paths (watcher.after paths debounce (first :: (between ++ [last]))).baseline
            snapshot := by rw [hexpects.baseline, due_self, List.append_nil]
    _ = due paths watcher.baseline snapshot :=
      reports_append_due hlength
        (fun look hlook ↦ h.length_look look (List.mem_append_right before hlook)) hsame

/-- Without a debounce time a new file is reported by the second look at it, although something else
was pending. -/
theorem reports_of_stays_created :
    Watch ["content.config.ts", "config.ts"] [.missing, .present "a"]
      ([⟨5, [.missing, .present "b"]⟩] ++
        ⟨5, [.present "c", .present "a"]⟩ :: ([] ++ [⟨5, [.present "c", .present "a"]⟩])) ∧
    reports ["content.config.ts", "config.ts"] 0
      { baseline := [.missing, .present "a"], pending := some ([.missing, .present "b"], 5) }
      [⟨5, [.present "c", .present "a"]⟩, ⟨5, [.present "c", .present "a"]⟩] =
        [⟨["content.config.ts"], [.present "c", .present "a"]⟩] := by
  have hwatch : Watch ["content.config.ts", "config.ts"] [.missing, .present "a"]
      ([⟨5, [.missing, .present "b"]⟩] ++
        ⟨5, [.present "c", .present "a"]⟩ :: ([] ++ [⟨5, [.present "c", .present "a"]⟩])) :=
    ⟨rfl, by simp, by simp⟩
  have hsame : ∀ look ∈ (⟨5, [.present "c", .present "a"]⟩ : Look) ::
      ([] ++ [⟨5, [.present "c", .present "a"]⟩]), look.snapshot = [.present "c", .present "a"] := by
    simp
  exact ⟨hwatch, (reports_of_stays hwatch rfl hsame (Nat.le_refl 5)).2⟩

end Watcher

end ContentSchema
