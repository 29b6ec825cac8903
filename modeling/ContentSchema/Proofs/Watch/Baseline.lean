import ContentSchema.Proofs.Watch.Poll
import ContentSchema.Proofs.Watch.Session
/-!
# Baselines

What the baseline of a watcher says about the files of its session. It is what one look saw, the first
one or one that reported a change (`exists_since`), and each report is followed by dropping the set
before the watcher looks again (`exists_drop_of_reports`). A look sees each file as it is when it reads
that file (`Saw`), so that a baseline need not be a snapshot of any one time. After looks that span the
debounce time it is the snapshot of files that have not changed since the first of these looks began
(`Stays.expects`).

The steps are told apart by what they do to the watcher, once in `Transition.watcher_cases`, and by what
they do to the present look, once in `Transition.seen_cases`; the inductions over the schedule go by
these.
-/

namespace ContentSchema

namespace Session

variable {α : Type} {settings : Settings} {files : FileTree} {schedule : List (SessionStep α)}
  {session next : Session α} {step : SessionStep α}

/-! ### What a look has seen -/

/-- At this time, when things stand as in `now`, the watcher reads the file at a path. -/
structure ReadsAt (settings : Settings) (files : FileTree) (schedule : List (SessionStep α))
    (time : Nat) (path : String) (now : Session α) : Prop where
  step : schedule[time]? = some .read
  session : after? settings files schedule time = some now
  path : settings.candidatePaths[now.seen.length]? = some path

/-- No look ends between two times. -/
def OneLook (schedule : List (SessionStep α)) (opening closing : Nat) : Prop :=
  ∀ time : Nat, opening ≤ time → time < closing →
    schedule[time]? ≠ some .baseline ∧ ∀ now, schedule[time]? ≠ some (.poll now)

/-- What one look has seen between two times: the fingerprint of each path is that of a file which was
read at a time of its own. -/
structure Saw (settings : Settings) (files : FileTree) (schedule : List (SessionStep α))
    (opening closing : Nat) (seen : List Fingerprint) : Prop where
  le : opening ≤ closing
  oneLook : OneLook schedule opening closing
  reads : ∀ (index : Nat) (fingerprint : Fingerprint), seen[index]? = some fingerprint →
    ∃ (time : Nat) (path : String) (now : Session α), opening ≤ time ∧ time < closing ∧
      settings.candidatePaths[index]? = some path ∧
      ReadsAt settings files schedule time path now ∧ now.files.fingerprint path = fingerprint

/-- Only a read and the end of a look change what the present look has seen. -/
theorem Transition.seen_cases (h : Transition settings session step next) :
    (next.seen = session.seen ∧ step ≠ .baseline ∧ ∀ now, step ≠ .poll now) ∨
    (∃ path, step = .read ∧ settings.candidatePaths[session.seen.length]? = some path ∧
      next.seen = session.seen ++ [session.files.fingerprint path]) ∨
    (step = .baseline ∨ ∃ now, step = .poll now) ∧
      session.seen.length = settings.candidatePaths.length ∧ next.seen = [] := by
  cases h with
  | edit | call | drop | reload | resume => exact .inl ⟨rfl, nofun, nofun⟩
  | read hduty hpath => exact .inr (.inl ⟨_, rfl, hpath, rfl⟩)
  | baseline hsees => exact .inr (.inr ⟨.inl rfl, hsees.2, rfl⟩)
  | poll hsees => exact .inr (.inr ⟨.inr ⟨_, rfl⟩, hsees.2, rfl⟩)

/-- A step that is neither a baseline nor a poll does not end a look. -/
theorem OneLook.succ {opening time : Nat} (h : OneLook schedule opening time)
    (hstep : schedule[time]? = some step) (hbaseline : step ≠ .baseline)
    (hpoll : ∀ now, step ≠ .poll now) : OneLook schedule opening (time + 1) := by
  intro earlier hle hlt
  rcases Nat.lt_succ_iff_lt_or_eq.1 hlt with hlt | rfl
  · exact h earlier hle hlt
  · rw [hstep]
    exact ⟨fun heq ↦ hbaseline (Option.some.inj heq), fun now heq ↦ hpoll now (Option.some.inj heq)⟩

/-- What the present look has seen it has seen since it began. -/
theorem exists_saw {time : Nat} (hlen : time ≤ schedule.length)
    (h : after? settings files schedule time = some session) :
    ∃ opening, Saw settings files schedule opening time session.seen := by
  refine after?_induction_from
    (motive := fun time session ↦ ∃ opening, Saw settings files schedule opening time session.seen)
    0 ?_ ?_ (Nat.zero_le time) hlen h
  · intro session hsession
    obtain rfl := Option.some.inj hsession
    exact ⟨0, Nat.le_refl 0, fun time _ hlt ↦ absurd hlt (Nat.not_lt_zero time), by simp [start]⟩
  · rintro time session step next - hsession - hstep htransition ⟨opening, hsaw⟩
    rcases htransition.seen_cases with ⟨hsame, hbaseline, hpoll⟩ | ⟨path, rfl, hpath, hseen⟩ |
      ⟨-, -, hnone⟩
    · refine ⟨opening, Nat.le_succ_of_le hsaw.le, hsaw.oneLook.succ hstep hbaseline hpoll, ?_⟩
      intro index fingerprint hindex
      obtain ⟨earlier, path, now, hle, hlt, hread⟩ := hsaw.reads index fingerprint (hsame ▸ hindex)
      exact ⟨earlier, path, now, hle, by omega, hread⟩
    · refine ⟨opening, Nat.le_succ_of_le hsaw.le, hsaw.oneLook.succ hstep nofun nofun, ?_⟩
      intro index fingerprint hindex
      rw [hseen, List.getElem?_append] at hindex
      split at hindex
      · obtain ⟨earlier, path, now, hle, hlt, hread⟩ := hsaw.reads index fingerprint hindex
        exact ⟨earlier, path, now, hle, by omega, hread⟩
      · -- the last fingerprint is the one that has just been read
        obtain ⟨hlast, hvalue⟩ := List.getElem?_eq_some_iff.1 hindex
        obtain rfl : index = session.seen.length := by
          simp only [List.length_singleton] at hlast
          omega
        refine ⟨time, path, session, hsaw.le, Nat.lt_succ_self time, hpath,
          ⟨hstep, hsession, hpath⟩, ?_⟩
        simpa using hvalue
    · exact ⟨time + 1, Nat.le_refl _, fun later hle hlt ↦ by omega, by simp [hnone]⟩

/-! ### Reports -/

/-- The look that ends at this time reports a change. -/
def Reports (settings : Settings) (files : FileTree) (schedule : List (SessionStep α)) (time : Nat) :
    Prop :=
  ∃ now next, schedule[time]? = some (.poll now) ∧
    after? settings files schedule (time + 1) = some next ∧ next.duty = .dropping

/-- Only the end of a look changes the watcher. The first look gives it its baseline, and after a poll
the set is about to be dropped if it reports a change. -/
theorem Transition.watcher_cases (h : Transition settings session step next) :
    (next.watcher = session.watcher ∧ step ≠ .baseline ∧ ∀ now, step ≠ .poll now) ∨
    (step = .baseline ∧ session.watcher = none ∧
      session.seen.length = settings.candidatePaths.length ∧
      next.watcher = some { baseline := session.seen }) ∨
    ∃ now watcher polled changed, step = .poll now ∧ session.watcher = some watcher ∧
      next.watcher = some polled ∧ session.seen.length = settings.candidatePaths.length ∧
      (next.duty = .dropping ↔ changed ≠ []) ∧
      Watcher.Poll settings.candidatePaths settings.watch.debounce watcher ⟨now, session.seen⟩
        changed polled := by
  cases h with
  | edit | call | read | drop | reload | resume => exact .inl ⟨rfl, nofun, nofun⟩
  | baseline hsees hwatcher => exact .inr (.inl ⟨rfl, hwatcher, hsees.2, rfl⟩)
  | @poll now changed watcher polled hsees hwatcher hpoll =>
    refine .inr (.inr ⟨now, watcher, polled, changed, rfl, hwatcher, rfl, hsees.2, ?_,
      Watcher.poll_spec hpoll⟩)
    cases changed <;> simp

/-- A watcher that has its baseline keeps on watching. -/
theorem Transition.watcher_isSome (h : Transition settings session step next)
    (hwatcher : session.watcher ≠ none) : next.watcher ≠ none := by
  rcases h.watcher_cases with ⟨hsame, -⟩ | ⟨-, hnone, -⟩ | ⟨now, watcher, polled, changed, -, -, hnext, -⟩
  · rwa [hsame]
  · exact absurd hnone hwatcher
  · rw [hnext]
    exact Option.some_ne_none polled

/-- There is only one first look. -/
theorem baseline_unique {first second : Nat} (hlt : first < second)
    (hfirst : schedule[first]? = some .baseline) (hsecond : schedule[second]? = some .baseline)
    (hlater : after? settings files schedule (second + 1) = some next) : False := by
  have hlen : second < schedule.length := (List.getElem?_eq_some_iff.1 hsecond).1
  obtain ⟨session, step, hsession, hstep, htransition⟩ := exists_transition hlen hlater
  have hwatches : session.watcher ≠ none := by
    refine after?_induction_from (motive := fun _ session ↦ session.watcher ≠ none) (first + 1) ?_ ?_
      hlt (Nat.le_of_lt hlen) hsession
    · intro now hnow
      obtain ⟨before, taken, -, htaken, htransition⟩ := exists_transition (by omega) hnow
      obtain rfl := Option.some.inj (htaken.symm.trans hfirst)
      cases htransition with
      | baseline => exact Option.some_ne_none _
    · exact fun _ _ _ _ _ _ _ _ htransition ih ↦ htransition.watcher_isSome ih
  obtain rfl := Option.some.inj (hstep.symm.trans hsecond)
  cases htransition with
  | baseline hsees hwatcher => exact hwatches hwatcher

/-- Only a poll can report. -/
theorem not_reports_of_ne {time : Nat} (hstep : schedule[time]? = some step)
    (hpoll : ∀ now, step ≠ .poll now) : ¬Reports settings files schedule time := by
  rintro ⟨now, next, hnow, -⟩
  exact hpoll now (Option.some.inj (hstep.symm.trans hnow))

/-- A session that owes no invalidation after a step reported nothing by it. -/
theorem not_reports_of_duty_ne {time : Nat}
    (hnext : after? settings files schedule (time + 1) = some next) (hduty : next.duty ≠ .dropping) :
    ¬Reports settings files schedule time := by
  rintro ⟨now, other, -, hother, hdropping⟩
  obtain rfl := Option.some.inj (hnext.symm.trans hother)
  exact hduty hdropping

theorem Reports.lt_length {time : Nat} (h : Reports settings files schedule time) :
    time < schedule.length := by
  obtain ⟨now, next, hstep, -⟩ := h
  exact (List.getElem?_eq_some_iff.1 hstep).1

/-- A baseline is what one look has seen, the first one or one that has reported a change, and nothing
has been reported since. -/
structure Since (settings : Settings) (files : FileTree) (schedule : List (SessionStep α))
    (baseline : List Fingerprint) (time opening closing : Nat) : Prop where
  lt : closing < time
  /-- The look is the first one, or it has reported a change. -/
  ends : schedule[closing]? = some .baseline ∨ Reports settings files schedule closing
  saw : Saw settings files schedule opening closing baseline
  length : baseline.length = settings.candidatePaths.length
  none : ∀ later, closing < later → later < time → ¬Reports settings files schedule later

/-- A step that reports nothing changes nothing. -/
theorem Since.succ {time opening closing : Nat} {baseline : List Fingerprint}
    (h : Since settings files schedule baseline time opening closing)
    (hquiet : ¬Reports settings files schedule time) :
    Since settings files schedule baseline (time + 1) opening closing := by
  refine ⟨Nat.lt_succ_of_lt h.lt, h.ends, h.saw, h.length, fun later hgt hlt ↦ ?_⟩
  rcases Nat.lt_succ_iff_lt_or_eq.1 hlt with hlt | rfl
  · exact h.none later hgt hlt
  · exact hquiet

/-- The baseline of a watcher was adopted from one look, and no poll since has reported. -/
theorem exists_since {time : Nat} {watcher : Watcher} (hlen : time ≤ schedule.length)
    (h : after? settings files schedule time = some session) (hwatcher : session.watcher = some watcher) :
    ∃ opening closing, Since settings files schedule watcher.baseline time opening closing := by
  revert hwatcher watcher
  refine after?_induction_from
    (motive := fun time session ↦ ∀ {watcher}, session.watcher = some watcher →
      ∃ opening closing, Since settings files schedule watcher.baseline time opening closing)
    0 ?_ ?_ (Nat.zero_le time) hlen h
  · intro session hsession watcher hwatcher
    obtain rfl := Option.some.inj hsession
    cases hwatcher
  · intro time session step next _ hsession hnext hstep htransition ih watcher hwatcher
    have hlt : time < schedule.length := (List.getElem?_eq_some_iff.1 hstep).1
    obtain ⟨opening, hsaw⟩ := exists_saw (Nat.le_of_lt hlt) hsession
    rcases htransition.watcher_cases with ⟨hsame, -, hpoll⟩ | ⟨rfl, -, hall, hfirst⟩ |
      ⟨now, before, polled, changed, rfl, hbefore, hpolled, hall, hduty, hlook⟩
    · obtain ⟨opening, closing, hsince⟩ := ih (hsame ▸ hwatcher)
      exact ⟨opening, closing, hsince.succ (not_reports_of_ne hstep hpoll)⟩
    · obtain rfl := Option.some.inj (hwatcher.symm.trans hfirst)
      exact ⟨opening, time, Nat.lt_succ_self time, .inl hstep, hsaw, hall,
        fun later hgt hlt ↦ by omega⟩
    · -- only a look that reports something may move the baseline to what it has seen
      obtain rfl := Option.some.inj (hwatcher.symm.trans hpolled)
      obtain ⟨earlier, closing, hsince⟩ := ih hbefore
      have hunreported : changed = [] → ¬Reports settings files schedule time :=
        fun hchanged ↦ not_reports_of_duty_ne hnext fun hdropping ↦ hduty.1 hdropping hchanged
      cases hlook with
      | quiet | waits | turns => exact ⟨earlier, closing, hsince.succ (hunreported rfl)⟩
      | reports hpending hstayed =>
        by_cases hchanged : changedPaths settings.candidatePaths before.baseline session.seen = []
        · -- what stayed is what was expected: the files have come back to it
          have hequal : before.baseline = session.seen :=
            eq_of_changedPaths_eq_nil hchanged hsince.length hall
          exact ⟨earlier, closing, hequal ▸ hsince.succ (hunreported hchanged)⟩
        · have hreports : Reports settings files schedule time :=
            ⟨now, next, hstep, hnext, hduty.2 hchanged⟩
          exact ⟨opening, time, Nat.lt_succ_self time, .inr hreports, hsaw, hall,
            fun later hgt hlt ↦ by omega⟩

/-- A watcher that is not about to drop the set has done so after each report. -/
theorem exists_drop_of_reports {time report : Nat} (hlen : time ≤ schedule.length)
    (h : after? settings files schedule time = some session) (hduty : session.duty ≠ .dropping)
    (hreport : Reports settings files schedule report) (hlt : report < time) :
    ∃ drop : Nat, report < drop ∧ schedule[drop]? = some .drop := by
  revert hduty report
  refine after?_induction_from
    (motive := fun time session ↦ ∀ {report}, session.duty ≠ .dropping →
      Reports settings files schedule report → report < time →
        ∃ drop : Nat, report < drop ∧ schedule[drop]? = some .drop)
    0 ?_ ?_ (Nat.zero_le time) hlen h
  · intro session _ report _ _ hlt
    exact absurd hlt (Nat.not_lt_zero report)
  · intro time session step next _ hsession hnext hstep htransition ih report hduty hreport hlt
    -- the step just taken is no report, for after one the set is about to be dropped
    have hbefore : report ≠ time := by
      rintro rfl
      exact not_reports_of_duty_ne hnext hduty hreport
    by_cases hdropping : session.duty = .dropping
    · -- the step that ends the duty is the one that drops the set
      cases htransition with
      | drop => exact ⟨time, by omega, hstep⟩
      | edit | call => exact absurd hdropping hduty
      | read hlooking => cases hlooking.symm.trans hdropping
      | baseline hsees | poll hsees => cases hsees.1.symm.trans hdropping
      | reload hreloading => cases hreloading.symm.trans hdropping
      | resume hawaiting => cases hawaiting.symm.trans hdropping
    · exact ih hdropping hreport (by omega)

/-! ### Files that stay as they are -/

/-- The clock of the watcher does not go back. -/
def Clock (schedule : List (SessionStep α)) : Prop :=
  ∀ (time later now now' : Nat), time < later → schedule[time]? = some (.poll now) →
    schedule[later]? = some (.poll now') → now ≤ now'

/-- It is enough to compare the looks of two places. -/
theorem clock_of_pairwise (h : schedule.Pairwise fun step later ↦
    ∀ now now', step = .poll now → later = .poll now' → now ≤ now') : Clock schedule := by
  intro time later now now' hlt htime hlater
  obtain ⟨hlen, htime⟩ := List.getElem?_eq_some_iff.1 htime
  obtain ⟨hlen', hlater⟩ := List.getElem?_eq_some_iff.1 hlater
  exact List.pairwise_iff_getElem.1 h time later hlen hlen' hlt now now' htime hlater

/-- From `opening` on the files have the contents that they have in `session`. A look begins there, it
or a later one ends at `first`, and the look that ends at `last` comes at least the debounce time after
that one. -/
structure Stays (settings : Settings) (files : FileTree) (schedule : List (SessionStep α))
    (session : Session α) (opening first last : Nat) : Prop where
  le : opening ≤ first
  lt : first < last
  looks : ∃ since till : Nat, schedule[first]? = some (.poll since) ∧
    schedule[last]? = some (.poll till) ∧ since + settings.watch.debounce ≤ till
  /-- The present look has not read a file yet. -/
  opens : ∀ now, after? settings files schedule opening = some now → now.seen = []
  contents : ∀ time now, opening ≤ time → after? settings files schedule time = some now →
    now.files.contents settings.candidatePaths = session.files.contents settings.candidatePaths

/-- The end of a look has a session that it is taken in, with a watcher. -/
theorem exists_poll {time now : Nat} (hstep : schedule[time]? = some (.poll now))
    (hnext : after? settings files schedule (time + 1) = some next) :
    ∃ session watcher polled changed, after? settings files schedule time = some session ∧
      session.seen.length = settings.candidatePaths.length ∧ session.watcher = some watcher ∧
      next.watcher = some polled ∧
      Watcher.Poll settings.candidatePaths settings.watch.debounce watcher ⟨now, session.seen⟩
        changed polled := by
  obtain ⟨session, step, hsession, htaken, htransition⟩ :=
    exists_transition (List.getElem?_eq_some_iff.1 hstep).1 hnext
  obtain rfl := Option.some.inj (htaken.symm.trans hstep)
  rcases htransition.watcher_cases with ⟨-, -, hpoll⟩ | ⟨hbaseline, -⟩ |
    ⟨now, watcher, polled, changed, hnow, hwatcher, hpolled, hall, -, hlook⟩
  · exact absurd rfl (hpoll now)
  · cases hbaseline
  · cases hnow
    exact ⟨session, watcher, polled, changed, hsession, hall, hwatcher, hpolled, hlook⟩

/-- What is pending was first seen by an earlier look. -/
theorem exists_poll_of_pending {time since : Nat} {watcher : Watcher} {candidate : List Fingerprint}
    (hlen : time ≤ schedule.length) (h : after? settings files schedule time = some session)
    (hwatcher : session.watcher = some watcher)
    (hpending : watcher.pending = some (candidate, since)) :
    ∃ look : Nat, look < time ∧ schedule[look]? = some (.poll since) := by
  revert hwatcher hpending watcher candidate since
  refine after?_induction_from
    (motive := fun time session ↦ ∀ {since watcher candidate}, session.watcher = some watcher →
      watcher.pending = some (candidate, since) →
        ∃ look : Nat, look < time ∧ schedule[look]? = some (.poll since))
    0 ?_ ?_ (Nat.zero_le time) hlen h
  · intro session hsession since watcher candidate hwatcher hpending
    obtain rfl := Option.some.inj hsession
    cases hwatcher
  · intro time session step next _ _ _ hstep htransition ih since watcher candidate hwatcher hpending
    have hearlier : ∀ {before : Watcher}, session.watcher = some before →
        before.pending = some (candidate, since) →
          ∃ look : Nat, look < time + 1 ∧ schedule[look]? = some (.poll since) := by
      intro before hwatcher hbefore
      obtain ⟨look, hlt, hlook⟩ := ih hwatcher hbefore
      exact ⟨look, by omega, hlook⟩
    rcases htransition.watcher_cases with ⟨hsame, -⟩ | ⟨-, -, -, hfirst⟩ |
      ⟨now, before, polled, changed, rfl, hbefore, hpolled, -, -, hlook⟩
    · exact hearlier (hsame ▸ hwatcher) hpending
    · obtain rfl := Option.some.inj (hwatcher.symm.trans hfirst)
      cases hpending
    · obtain rfl := Option.some.inj (hwatcher.symm.trans hpolled)
      rcases hlook.pending_inv hpending with hpending | rfl
      · exact hearlier hbefore hpending
      · exact ⟨time, Nat.lt_succ_self time, hstep⟩

section Stays

variable {opening first last : Nat}

/-- A look that began when the contents were the present ones sees these. -/
theorem Stays.seen_eq_take (h : Stays settings files schedule session opening first last)
    {time : Nat} {now : Session α} (hle : opening ≤ time) (hlen : time ≤ schedule.length)
    (hnow : after? settings files schedule time = some now) :
    now.seen = (session.files.snapshot settings.candidatePaths).take now.seen.length := by
  refine after?_induction_from
    (motive := fun _ now ↦
      now.seen = (session.files.snapshot settings.candidatePaths).take now.seen.length)
    opening ?_ ?_ hle hlen hnow
  · intro now hnow
    rw [h.opens now hnow]
    rfl
  · intro time before step next hle hbefore _ _ htransition ih
    rcases htransition.seen_cases with ⟨hsame, -⟩ | ⟨path, -, hpath, hseen⟩ | ⟨-, -, hnone⟩
    · rwa [hsame]
    · -- what is read next is the next fingerprint of the present contents
      have hsnapshot : before.files.snapshot settings.candidatePaths =
          session.files.snapshot settings.candidatePaths :=
        FileTree.snapshot_congr (h.contents time before hle hbefore)
      have hread : (session.files.snapshot settings.candidatePaths)[before.seen.length]? =
          some (before.files.fingerprint path) := by
        rw [← hsnapshot, FileTree.snapshot_eq_map, List.getElem?_map, hpath]
        rfl
      rw [hseen, List.length_append, List.length_singleton, List.take_add_one, hread, ← ih]
      rfl
    · rw [hnone]
      rfl

/-- A look that has read all of the files has seen the present contents. -/
theorem Stays.seen_eq (h : Stays settings files schedule session opening first last)
    {time : Nat} {now : Session α} (hle : opening ≤ time) (hlen : time ≤ schedule.length)
    (hnow : after? settings files schedule time = some now)
    (hall : now.seen.length = settings.candidatePaths.length) :
    now.seen = session.files.snapshot settings.candidatePaths := by
  rw [h.seen_eq_take hle hlen hnow, List.take_of_length_le]
  rw [FileTree.length_snapshot, hall]

/-- After the first look at them, contents that stay are expected, or pending since then or for
longer. -/
theorem Stays.expects_or_pending (h : Stays settings files schedule session opening first last)
    (hclock : Clock schedule) {since time : Nat} {now : Session α}
    (hsince : schedule[first]? = some (.poll since)) (hlt : first < time)
    (hlen : time ≤ schedule.length) (hnow : after? settings files schedule time = some now) :
    ∃ watcher, now.watcher = some watcher ∧
      (watcher.Expects (session.files.snapshot settings.candidatePaths) ∨
        ∃ seen, seen ≤ since ∧ watcher.pending =
          some (session.files.snapshot settings.candidatePaths, seen)) := by
  have hopening := h.le
  refine after?_induction_from
    (motive := fun _ now ↦ ∃ watcher, now.watcher = some watcher ∧
      (watcher.Expects (session.files.snapshot settings.candidatePaths) ∨
        ∃ seen, seen ≤ since ∧ watcher.pending =
          some (session.files.snapshot settings.candidatePaths, seen)))
    (first + 1) ?_ ?_ hlt hlen hnow
  · intro now hnow
    obtain ⟨before, watcher, polled, changed, hbefore, hall, hwatcher, hpolled, hlook⟩ :=
      exists_poll hsince hnow
    have hfirst : first < schedule.length := (List.getElem?_eq_some_iff.1 hsince).1
    rw [h.seen_eq hopening (Nat.le_of_lt hfirst) hbefore hall] at hlook
    refine ⟨polled, hpolled, ?_⟩
    rcases hlook.expects_or_pending with hexpects | ⟨seen, hpending, hwhen⟩
    · exact .inl hexpects
    · refine .inr ⟨seen, ?_, hpending⟩
      rcases hwhen with rfl | hearlier
      · exact Nat.le_refl _
      · -- it has been pending since an earlier look
        obtain ⟨look, hlt, hearlier⟩ :=
          exists_poll_of_pending (Nat.le_of_lt hfirst) hbefore hwatcher hearlier
        exact hclock look first seen since hlt hearlier hsince
  · rintro time before step next hle hbefore - hstep htransition ⟨watcher, hwatcher, ih⟩
    rcases htransition.watcher_cases with ⟨hsame, -⟩ | ⟨-, hnone, -⟩ |
      ⟨now, other, polled, changed, rfl, hother, hpolled, hall, -, hlook⟩
    · exact ⟨watcher, hsame.trans hwatcher, ih⟩
    · cases hnone.symm.trans hwatcher
    · obtain rfl := Option.some.inj (hwatcher.symm.trans hother)
      have hlen : time ≤ schedule.length := (List.getElem?_eq_some_iff.1 hstep).1.le
      rw [h.seen_eq (by omega) hlen hbefore hall] at hlook
      refine ⟨polled, hpolled, ?_⟩
      rcases ih with hexpects | ⟨seen, hle, hpending⟩
      · exact .inl (hlook.of_expects hexpects ▸ hexpects)
      · rcases hlook.of_pending hpending with ⟨rfl, -⟩ | hexpects
        · exact .inr ⟨seen, hle, hpending⟩
        · exact .inl hexpects

/-- After looks that span the debounce time, contents that stay are expected. -/
theorem Stays.expects (h : Stays settings files schedule session opening first last)
    (hclock : Clock schedule)
    (hsession : after? settings files schedule schedule.length = some session) :
    ∃ watcher, session.watcher = some watcher ∧
      watcher.Expects (session.files.snapshot settings.candidatePaths) := by
  obtain ⟨since, till, hsince, htill, hspan⟩ := h.looks
  have hopening := h.le
  have hfirst := h.lt
  have hlast : last < schedule.length := (List.getElem?_eq_some_iff.1 htill).1
  refine after?_induction_from
    (motive := fun _ now ↦ ∃ watcher, now.watcher = some watcher ∧
      watcher.Expects (session.files.snapshot settings.candidatePaths))
    (last + 1) ?_ ?_ hlast (Nat.le_refl _) hsession
  · intro now hnow
    obtain ⟨before, watcher, polled, changed, hbefore, hall, hwatcher, hpolled, hlook⟩ :=
      exists_poll htill hnow
    obtain ⟨other, hother, hstands⟩ :=
      h.expects_or_pending hclock hsince hfirst (Nat.le_of_lt hlast) hbefore
    obtain rfl := Option.some.inj (hwatcher.symm.trans hother)
    rw [h.seen_eq (by omega) (Nat.le_of_lt hlast) hbefore hall] at hlook
    refine ⟨polled, hpolled, ?_⟩
    rcases hstands with hexpects | ⟨seen, hle, hpending⟩
    · exact hlook.of_expects hexpects ▸ hexpects
    · rcases hlook.of_pending hpending with ⟨-, hearly⟩ | hexpects
      · -- the look comes too late for that
        have htime : till - seen < settings.watch.debounce := hearly
        omega
      · exact hexpects
  · rintro time before step next hle hbefore - hstep htransition ⟨watcher, hwatcher, hexpects⟩
    rcases htransition.watcher_cases with ⟨hsame, -⟩ | ⟨-, hnone, -⟩ |
      ⟨now, other, polled, changed, rfl, hother, hpolled, hall, -, hlook⟩
    · exact ⟨watcher, hsame.trans hwatcher, hexpects⟩
    · cases hnone.symm.trans hwatcher
    · obtain rfl := Option.some.inj (hwatcher.symm.trans hother)
      have hlen : time ≤ schedule.length := (List.getElem?_eq_some_iff.1 hstep).1.le
      rw [h.seen_eq (by omega) hlen hbefore hall] at hlook
      exact ⟨polled, hpolled, hlook.of_expects hexpects ▸ hexpects⟩

end Stays

end Session

end ContentSchema
