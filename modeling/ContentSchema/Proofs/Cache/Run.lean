import ContentSchema.Proofs.Cache.Flight
/-!
# Runs and invalidations

A cache is on the flight of a run from the run's beginning until it ends or an invalidation comes,
whichever is first (`loading_of_quiet`), and not a moment longer (`begins_of_loading`). So a run
that was invalidated while it was under way finds the cache elsewhere when it ends, and leaves it
as it is (`cache_eq_of_invalidated`); a run that was not, finds its own flight. A set that is
stored stays until the next invalidation (`ready_of_quiet`), and every set in the cache was stored
by a run that began after the last one (`stores_of_ready`).

From these come the two properties of the cache. `outcome_fresh`: no load returns the outcome of a
run that is older than an invalidation before the load's check. `single_flight`: two runs overlap
only if an invalidation lies between their beginnings.
-/

namespace ContentSchema

namespace Loads

variable {α : Type} {schedule : List (LoadStep α)} {loads next : Loads α}

/-! ### The cache during a run -/

/-- Until an invalidation comes, the cache is on the flight of a run that has begun and not
ended. -/
theorem loading_of_quiet {start time owner flight : Nat}
    (hbegins : Begins schedule start owner flight) (hlt : start < time)
    (hlen : time ≤ schedule.length) (hloads : after? schedule time = some loads)
    (hquiet : Quiet schedule start time)
    (hunfinished : ∀ finish outcome,
      schedule[finish]? = some (.finish owner outcome) → time ≤ finish) :
    loads.cache.state = .loading flight := by
  obtain ⟨before, -, -, -, hsucc⟩ := hbegins.exists_after?_succ
  refine after?_induction_from
    (motive := fun time loads ↦ Quiet schedule start time →
      (∀ finish outcome, schedule[finish]? = some (.finish owner outcome) → time ≤ finish) →
        loads.cache.state = .loading flight)
    hsucc (fun _ _ ↦ (hbegins.own_succ hsucc).1) ?_ hlt hlen hloads hquiet hunfinished
  intro time now step next hle hnow hstep htransition ih hquiet hunfinished
  have hlen : time ≤ schedule.length := Nat.le_of_lt (lt_length_of_step hstep)
  have hstate : now.cache.state = .loading flight :=
    ih (hquiet.mono (Nat.le_refl _) (Nat.le_succ _)) fun finish outcome hfinish ↦
      Nat.le_of_succ_le (hunfinished finish outcome hfinish)
  rcases htransition.state_of_loading_before hstate with
    hstate' | rfl | ⟨load, outcome, rfl, hrunning⟩
  · exact hstate'
  · exact absurd hstep (hquiet time (by omega) (Nat.lt_succ_self time))
  · -- the flight's own owner would have finished
    obtain ⟨start', owner', -, hbegins', -, hcompiles⟩ := begins_of_loading hlen hnow hstate
    obtain ⟨-, rfl⟩ := hbegins'.unique hbegins
    obtain rfl := owner_unique hlen hnow (.inl hcompiles) (.inl (.inr hrunning))
    exact absurd (hunfinished time outcome hstep) (by omega)

/-- A set in the cache stays until an invalidation comes. -/
theorem ready_of_quiet {time later : Nat} {set : α} (hle : time ≤ later)
    (hlater : later ≤ schedule.length) (hloads : after? schedule time = some loads)
    (hnext : after? schedule later = some next) (hquiet : Quiet schedule time later)
    (hstate : loads.cache.state = .ready set) : next.cache.state = .ready set := by
  refine after?_induction_from
    (motive := fun later now ↦ Quiet schedule time later → now.cache.state = .ready set)
    hloads (fun _ ↦ hstate) ?_ hle hlater hnext hquiet
  intro later now step next hle _ hstep htransition ih hquiet
  refine htransition.state_of_ready (ih (hquiet.mono (Nat.le_refl _) (Nat.le_succ _))) ?_
  rintro rfl
  exact hquiet later hle (Nat.lt_succ_self later) hstep

/-- A run that ends began before, has not ended before, and settles the cache on its flight. -/
theorem exists_begins_of_finish {finish owner : Nat} {outcome : RunOutcome α}
    (hfinish : schedule[finish]? = some (.finish owner outcome))
    (hnext : after? schedule (finish + 1) = some next) :
    ∃ loads start flight, after? schedule finish = some loads ∧ start < finish ∧
      Begins schedule start owner flight ∧
      next.cache = loads.cache.settle flight outcome.published ∧
      ∀ finish' outcome',
        schedule[finish']? = some (.finish owner outcome') → finish ≤ finish' := by
  have hlt : finish < schedule.length := lt_length_of_step hfinish
  obtain ⟨loads, hloads, htransition⟩ := transition_of_step hfinish hnext
  obtain ⟨flight, hrunning, hcache, -⟩ := htransition.finish_inv
  obtain ⟨start, hstart, hbegins⟩ :=
    begins_of_owns (Nat.le_of_lt hlt) hloads (.inl (.inr hrunning))
  refine ⟨loads, start, flight, hloads, hstart, hbegins, hcache, ?_⟩
  cases ownerStage_of_begins hbegins hstart (Nat.le_of_lt hlt) hloads with
  | compiling _ hunfinished _ => exact hunfinished
  | settled _ _ hsettled _ => cases hsettled.symm.trans hrunning
  | done _ _ hdone _ => cases hdone.symm.trans hrunning

/-- A run that was invalidated while it was under way leaves the cache as it finds it. -/
theorem cache_eq_of_invalidated {start stop finish owner flight : Nat} {outcome : RunOutcome α}
    (hbegins : Begins schedule start owner flight) (hstart : start < stop) (hstop : stop < finish)
    (hinvalidate : schedule[stop]? = some .invalidate)
    (hfinish : schedule[finish]? = some (.finish owner outcome))
    (hnext : after? schedule (finish + 1) = some next) :
    ∃ loads, after? schedule finish = some loads ∧ next.cache = loads.cache := by
  obtain ⟨loads, start', flight', hloads, -, hbegins', hcache, -⟩ :=
    exists_begins_of_finish hfinish hnext
  obtain ⟨rfl, hentry⟩ := Checks.unique hbegins hbegins'
  cases hentry
  refine ⟨loads, hloads, ?_⟩
  rw [hcache, Cache.settle_of_not_current]
  intro hstate
  have hlen : finish ≤ schedule.length := Nat.le_of_lt (lt_length_of_step hfinish)
  obtain ⟨begun, other, -, hother, hquiet, -⟩ := begins_of_loading hlen hloads hstate
  obtain ⟨rfl, -⟩ := hbegins.unique hother
  exact hquiet stop (Nat.le_of_lt hstart) hstop hinvalidate

/-- A set in the cache was stored by a run that no invalidation has followed. -/
theorem stores_of_ready {time : Nat} {set : α} (hlen : time ≤ schedule.length)
    (hloads : after? schedule time = some loads) (hstate : loads.cache.state = .ready set) :
    ∃ start finish owner flight, Begins schedule start owner flight ∧
      Stores schedule finish owner flight set ∧ start < finish ∧ finish < time ∧
      Quiet schedule start time := by
  revert set
  refine after?_induction
    (motive := fun time loads ↦ ∀ {set : α}, loads.cache.state = .ready set →
      ∃ start finish owner flight, Begins schedule start owner flight ∧
        Stores schedule finish owner flight set ∧ start < finish ∧ finish < time ∧
        Quiet schedule start time) ?_ ?_ hlen hloads
  · intro set h
    cases h
  · intro time loads step next hloads hstep htransition ih set hstate
    have hlen : time ≤ schedule.length := Nat.le_of_lt (lt_length_of_step hstep)
    rcases htransition.state_of_ready_after hstate with
      ⟨hbefore, hne⟩ | ⟨owner, flight, rfl, hrunning, hcurrent⟩
    · obtain ⟨start, finish, owner, flight, hbegins, hstores, hlt, hfinish, hquiet⟩ := ih hbefore
      exact ⟨start, finish, owner, flight, hbegins, hstores, hlt, by omega,
        hquiet.succ (by rw [hstep]; simpa using hne)⟩
    · -- the step itself stores the set, on the flight that the cache has been on since it began
      obtain ⟨start, owner', hlt, hbegins, hquiet, hcompiles⟩ :=
        begins_of_loading hlen hloads hcurrent
      obtain rfl := owner_unique hlen hloads (.inl (.inr hrunning)) (.inl hcompiles)
      have hnext := after?_succ_of_transition hloads hstep htransition
      exact ⟨start, time, owner', flight, hbegins,
        ⟨hstep, ⟨loads, hloads, hcurrent⟩, next, hnext, hstate⟩, hlt, Nat.lt_succ_self time,
        hquiet.succ (by rw [hstep]; nofun)⟩

/-- A run that stores its set was not invalidated before. -/
theorem Stores.quiet {start finish owner flight : Nat} {set : α}
    (h : Stores schedule finish owner flight set) (hbegins : Begins schedule start owner flight) :
    Quiet schedule start finish := by
  obtain ⟨loads, hloads, hstate⟩ := h.before
  have hlen : finish ≤ schedule.length := Nat.le_of_lt (lt_length_of_step h.step)
  obtain ⟨begun, other, -, hother, hquiet, -⟩ := begins_of_loading hlen hloads hstate
  obtain ⟨rfl, -⟩ := hbegins.unique hother
  exact hquiet

/-! ### Freshness -/

/-- The load that came in at `check` ended with `answer`, and that is the outcome of the run that
began at the given time: its own run, or the run whose flight it joined, or the run whose set it
found. -/
inductive DrawsOn (schedule : List (LoadStep α)) (check load : Nat) (answer : RunOutcome α) :
    Nat → Prop where
  | own {finish flight : Nat} (hbegins : Begins schedule check load flight)
    (hfinish : schedule[finish]? = some (.finish load answer)) :
    DrawsOn schedule check load answer check
  | join {start finish owner flight : Nat} {outcome : RunOutcome α}
    (hcheck : Checks schedule check load (.join flight))
    (hbegins : Begins schedule start owner flight)
    (hfinish : schedule[finish]? = some (.finish owner outcome))
    (hanswer : answer = .finished outcome.published) :
    DrawsOn schedule check load answer start
  | hit {start finish owner flight : Nat} {set : α} (hcheck : Checks schedule check load (.hit set))
    (hbegins : Begins schedule start owner flight)
    (hstores : Stores schedule finish owner flight set) (hlt : finish < check)
    (hquiet : Quiet schedule finish check) (hanswer : answer = .finished (.ok set)) :
    DrawsOn schedule check load answer start

/-- A load that is over draws on a run. -/
theorem exists_drawsOn_of_done {check load : Nat} {entry : CacheEntry α} {answer : RunOutcome α}
    (hrun : run? {} schedule = some loads) (hcheck : Checks schedule check load entry)
    (hdone : loads.phases[load]? = some (.done answer)) :
    ∃ start, DrawsOn schedule check load answer start := by
  have hloads : after? schedule schedule.length = some loads := after?_length.trans hrun
  obtain ⟨now, hnow, -, hentry⟩ := hcheck.found
  have hlen : check ≤ schedule.length := Nat.le_of_lt hcheck.lt_length
  cases entry with
  | hit set =>
    cases (done_of_hit hcheck hcheck.lt_length (Nat.le_refl _) hloads).symm.trans hdone
    obtain ⟨start, finish, owner, flight, hbegins, hstores, hlt, hfinish, hquiet⟩ :=
      stores_of_ready hlen hnow (Cache.enter_fst_eq_hit_iff.1 hentry)
    exact ⟨start, .hit hcheck hbegins hstores hfinish
      (hquiet.mono (Nat.le_of_lt hlt) (Nat.le_refl _)) rfl⟩
  | join flight =>
    -- the flight was under way at the check, so it had an owner, and that is over by now
    obtain ⟨start, owner, -, hbegins, -, -⟩ :=
      begins_of_loading hlen hnow (Cache.enter_fst_eq_join_iff.1 hentry)
    rcases waiting_or_done_of_join hcheck hcheck.lt_length (Nat.le_refl _) hloads with
      hwaiting | ⟨result, hresult, hdone'⟩
    · cases hwaiting.symm.trans hdone
    · cases hdone'.symm.trans hdone
      have hstage := ownerStage_of_begins hbegins hbegins.lt_length (Nat.le_refl _) hloads
      obtain ⟨outcome, howner⟩ := hstage.of_result hresult
      obtain ⟨⟨finish, -, hfinish⟩, hpublished⟩ := hstage.of_done howner
      cases hpublished.symm.trans hresult
      exact ⟨start, .join hcheck hbegins hfinish rfl⟩
  | own flight =>
    have hstage := ownerStage_of_begins hcheck hcheck.lt_length (Nat.le_refl _) hloads
    obtain ⟨⟨finish, -, hfinish⟩, -⟩ := hstage.of_done hdone
    exact ⟨check, .own hcheck hfinish⟩

/-- No invalidation lies between the beginning of a run and the check of a load that draws on it. -/
theorem DrawsOn.quiet {check load start : Nat} {answer : RunOutcome α}
    (h : DrawsOn schedule check load answer start) :
    start ≤ check ∧ Quiet schedule start check := by
  cases h with
  | own => exact ⟨Nat.le_refl _, fun time hle hlt ↦ absurd hlt (Nat.not_lt_of_le hle)⟩
  | join hcheck hbegins hfinish hanswer =>
    obtain ⟨now, hnow, -, hentry⟩ := hcheck.found
    obtain ⟨start', owner', hlt, hbegins', hquiet, -⟩ :=
      begins_of_loading (Nat.le_of_lt hcheck.lt_length) hnow (Cache.enter_fst_eq_join_iff.1 hentry)
    obtain ⟨rfl, -⟩ := hbegins.unique hbegins'
    exact ⟨Nat.le_of_lt hlt, hquiet⟩
  | @hit _ finish _ _ _ hcheck hbegins hstores hlt hquiet hanswer =>
    have hstart : start < finish := hbegins.lt_of_finish hstores.step
    refine ⟨by omega, fun time hle hlt' ↦ ?_⟩
    rcases Nat.lt_or_ge time finish with hbefore | hafter
    · exact hstores.quiet hbegins time hle hbefore
    · exact hquiet time hafter hlt'

/-- **No stale outcome is served.** In every schedule:

* a load that is over draws on a run, and every run on which it draws began after every
  invalidation that came before the load's check;
* a set in the cache, which is what `cached?` gives, was stored by a run that began after every
  invalidation;
* a run that was invalidated before its end, whatever that is, leaves the cache as it finds it. -/
theorem outcome_fresh (hrun : run? {} schedule = some loads) :
    (∀ (check load : Nat) (entry : CacheEntry α) (answer : RunOutcome α),
      Checks schedule check load entry → loads.phases[load]? = some (.done answer) →
        (∃ start, DrawsOn schedule check load answer start) ∧
        ∀ start, DrawsOn schedule check load answer start → start ≤ check ∧
          ∀ stop : Nat, stop < check → schedule[stop]? = some .invalidate → stop < start) ∧
    (∀ set : α, (loads.cache.cached? = some set ↔ loads.cache.state = .ready set) ∧
      (loads.cache.state = .ready set →
        ∃ start finish owner flight, Begins schedule start owner flight ∧
          Stores schedule finish owner flight set ∧
          ∀ stop : Nat, schedule[stop]? = some .invalidate → stop < start)) ∧
    (∀ (start stop finish owner flight : Nat) (outcome : RunOutcome α),
      Begins schedule start owner flight → start < stop → stop < finish →
        schedule[stop]? = some .invalidate → schedule[finish]? = some (.finish owner outcome) →
          ∃ before next, after? schedule finish = some before ∧
            after? schedule (finish + 1) = some next ∧ next.cache = before.cache) := by
  have hloads : after? schedule schedule.length = some loads := after?_length.trans hrun
  refine ⟨?_, ?_, ?_⟩
  · intro check load entry answer hcheck hdone
    refine ⟨exists_drawsOn_of_done hrun hcheck hdone, fun start hdraws ↦ ?_⟩
    obtain ⟨hle, hquiet⟩ := hdraws.quiet
    refine ⟨hle, fun stop hstop hinvalidate ↦ ?_⟩
    by_contra hge
    exact hquiet stop (Nat.le_of_not_lt hge) hstop hinvalidate
  · intro set
    refine ⟨Cache.cached?_eq_some_iff, fun hstate ↦ ?_⟩
    obtain ⟨start, finish, owner, flight, hbegins, hstores, -, -, hquiet⟩ :=
      stores_of_ready (Nat.le_refl _) hloads hstate
    refine ⟨start, finish, owner, flight, hbegins, hstores, fun stop hinvalidate ↦ ?_⟩
    by_contra hge
    exact hquiet stop (Nat.le_of_not_lt hge) (lt_length_of_step hinvalidate) hinvalidate
  · intro start stop finish owner flight outcome hbegins hstart hstop hinvalidate hfinish
    have hlt : finish < schedule.length := lt_length_of_step hfinish
    obtain ⟨next, hnext⟩ := exists_after?_of_le hlt (Nat.le_refl _) hloads
    obtain ⟨before, hbefore, hcache⟩ :=
      cache_eq_of_invalidated hbegins hstart hstop hinvalidate hfinish hnext
    exact ⟨before, next, hbefore, hnext, hcache⟩

/-- The fourth load of `overlap` draws on the run that began after the invalidation, and the old run
leaves the cache as it finds it. -/
theorem outcome_fresh_overlap :
    ∃ loads, run? {} overlap = some loads ∧ Checks overlap 8 3 (.hit 7) ∧
      loads.phases[3]? = some (.done (.finished (.ok 7))) ∧
      (∃ start, DrawsOn overlap 8 3 (.finished (.ok 7)) start ∧ 3 < start) ∧
      ∃ before next, after? overlap 7 = some before ∧ after? overlap 8 = some next ∧
        next.cache = before.cache := by
  have hcheck : Checks overlap 8 3 (.hit 7) := ⟨rfl, _, rfl, rfl, rfl⟩
  have hbegins : Begins overlap 0 0 0 := ⟨rfl, _, rfl, rfl, rfl⟩
  obtain ⟨⟨start, hdraws⟩, hfresh⟩ := (outcome_fresh rfl).1 8 3 (.hit 7) _ hcheck rfl
  exact ⟨_, rfl, hcheck, rfl, ⟨start, hdraws, (hfresh start hdraws).2 3 (by decide) rfl⟩,
    (outcome_fresh rfl).2.2 0 3 7 0 0 .died hbegins (by decide) (by decide) rfl rfl⟩

/-! ### Single flight -/

/-- Two runs are under way at one time only if an invalidation lies between their beginnings. -/
theorem exists_invalidate_of_underWay {start start' owner owner' time : Nat}
    (h : UnderWay schedule start owner time) (h' : UnderWay schedule start' owner' time)
    (hlt : start < start') :
    ∃ stop, start < stop ∧ stop < start' ∧ schedule[stop]? = some .invalidate := by
  obtain ⟨flight, hbegins⟩ := h.begins
  obtain ⟨flight', hbegins'⟩ := h'.begins
  by_cases hquiet : Quiet schedule start start'
  · -- then the second run finds the cache on the flight of the first
    obtain ⟨now, hnow, -, hentry⟩ := hbegins'.found
    have hstate := loading_of_quiet hbegins hlt (Nat.le_of_lt hbegins'.lt_length) hnow hquiet
      fun finish outcome hfinish ↦
        Nat.le_trans (Nat.le_of_lt h'.begun) (h.unfinished finish outcome hfinish)
    cases (Cache.enter_fst_eq_own_iff.1 hentry).1.symm.trans hstate
  · obtain ⟨stop, hle, hstop, hinvalidate⟩ := exists_invalidate_of_not_quiet hquiet
    refine ⟨stop, Nat.lt_of_le_of_ne hle ?_, hstop, hinvalidate⟩
    rintro rfl
    cases hbegins.step.symm.trans hinvalidate

/-- After a set was stored, a run begins only if an invalidation has come. -/
theorem exists_invalidate_of_stores {finish start owner owner' flight flight' : Nat} {set : α}
    (hstores : Stores schedule finish owner flight set) (hlt : finish < start)
    (hbegins : Begins schedule start owner' flight') :
    ∃ stop, finish < stop ∧ stop < start ∧ schedule[stop]? = some .invalidate := by
  obtain ⟨stored, hstored, hstate⟩ := hstores.after
  obtain ⟨now, hnow, -, hentry⟩ := hbegins.found
  by_cases hquiet : Quiet schedule (finish + 1) start
  · have hstate' :=
      ready_of_quiet hlt (Nat.le_of_lt hbegins.lt_length) hstored hnow hquiet hstate
    cases (Cache.enter_fst_eq_own_iff.1 hentry).1.symm.trans hstate'
  · exact exists_invalidate_of_not_quiet hquiet

/-- Without an invalidation a run that ends with a set stores it. -/
theorem stores_of_finish {finish owner : Nat} {set : α} (hquiet : Quiet schedule 0 finish)
    (hfinish : schedule[finish]? = some (.finish owner (.finished (.ok set))))
    (hnext : after? schedule (finish + 1) = some next) :
    ∃ flight, Stores schedule finish owner flight set := by
  obtain ⟨before, start, flight, hbefore, hstart, hbegins, hcache, hunfinished⟩ :=
    exists_begins_of_finish hfinish hnext
  have hlen : finish ≤ schedule.length := Nat.le_of_lt (lt_length_of_step hfinish)
  have hstate := loading_of_quiet hbegins hstart hlen hbefore
    (hquiet.mono (Nat.zero_le _) (Nat.le_refl _)) hunfinished
  refine ⟨flight, hfinish, ⟨before, hbefore, hstate⟩, next, hnext, ?_⟩
  rw [hcache, RunOutcome.published, Cache.settle_ok hstate]

/-- Without invalidations no run ends with a set after another has: that one's set would still be
there. -/
theorem not_lt_of_finish {finish finish' owner owner' : Nat} {set set' : α}
    (hrun : run? {} schedule = some loads)
    (hnone : ∀ stop : Nat, schedule[stop]? ≠ some .invalidate)
    (hfinish : schedule[finish]? = some (.finish owner (.finished (.ok set))))
    (hfinish' : schedule[finish']? = some (.finish owner' (.finished (.ok set')))) :
    ¬ finish < finish' := by
  intro hlt
  have hloads : after? schedule schedule.length = some loads := after?_length.trans hrun
  have hlen : finish' < schedule.length := lt_length_of_step hfinish'
  have hquiet : ∀ start stop, Quiet schedule start stop := fun _ _ time _ _ ↦ hnone time
  obtain ⟨next, hnext⟩ := exists_after?_of_le (Nat.lt_trans hlt hlen) (Nat.le_refl _) hloads
  obtain ⟨next', hnext'⟩ := exists_after?_of_le hlen (Nat.le_refl _) hloads
  obtain ⟨flight, hstores⟩ := stores_of_finish (hquiet 0 finish) hfinish hnext
  obtain ⟨flight', hstores'⟩ := stores_of_finish (hquiet 0 finish') hfinish' hnext'
  obtain ⟨stored, hstored, hready⟩ := hstores.after
  obtain ⟨now, hnow, hloading⟩ := hstores'.before
  have hready' :=
    ready_of_quiet hlt (Nat.le_of_lt hlen) hstored hnow (hquiet (finish + 1) finish') hready
  cases hready'.symm.trans hloading

/-- **Single flight.** In every schedule, whatever the number of loads and the outcomes of runs:

* two runs are under way at one time only if an invalidation came after the beginning of the
  earlier one and before that of the later one;
* after a run has stored its set, no run begins before the next invalidation;
* without invalidations no two runs are ever under way at one time, and at most one run ends with a
  set. -/
theorem single_flight (hrun : run? {} schedule = some loads) :
    (∀ start start' owner owner' time, UnderWay schedule start owner time →
      UnderWay schedule start' owner' time → start < start' →
        ∃ stop, start < stop ∧ stop < start' ∧ schedule[stop]? = some .invalidate) ∧
    (∀ finish start owner owner' flight flight' set, Stores schedule finish owner flight set →
      finish < start → Begins schedule start owner' flight' →
        ∃ stop, finish < stop ∧ stop < start ∧ schedule[stop]? = some .invalidate) ∧
    ((∀ stop : Nat, schedule[stop]? ≠ some .invalidate) →
      (∀ start start' owner owner' time, UnderWay schedule start owner time →
        UnderWay schedule start' owner' time → start = start' ∧ owner = owner') ∧
      ∀ (finish finish' owner owner' : Nat) (set set' : α),
        schedule[finish]? = some (.finish owner (.finished (.ok set))) →
          schedule[finish']? = some (.finish owner' (.finished (.ok set'))) →
            finish = finish') := by
  have hloads : after? schedule schedule.length = some loads := after?_length.trans hrun
  refine ⟨?_, ?_, fun hnone ↦ ⟨?_, ?_⟩⟩
  · intro start start' owner owner' time h h' hlt
    exact exists_invalidate_of_underWay h h' hlt
  · intro finish start owner owner' flight flight' set hstores hlt hbegins
    exact exists_invalidate_of_stores hstores hlt hbegins
  · intro start start' owner owner' time h h'
    obtain rfl : start = start' := by
      rcases Nat.lt_trichotomy start start' with hlt | heq | hlt
      · obtain ⟨stop, -, -, hinvalidate⟩ := exists_invalidate_of_underWay h h' hlt
        exact absurd hinvalidate (hnone stop)
      · exact heq
      · obtain ⟨stop, -, -, hinvalidate⟩ := exists_invalidate_of_underWay h' h hlt
        exact absurd hinvalidate (hnone stop)
    obtain ⟨flight, hbegins⟩ := h.begins
    obtain ⟨flight', hbegins'⟩ := h'.begins
    exact ⟨rfl, (Checks.load_eq hbegins hbegins').1⟩
  · intro finish finish' owner owner' set set' hfinish hfinish'
    exact Nat.le_antisymm
      (Nat.le_of_not_lt (not_lt_of_finish hrun hnone hfinish' hfinish))
      (Nat.le_of_not_lt (not_lt_of_finish hrun hnone hfinish hfinish'))

/-- The two runs of `overlap` are both under way at time 5, after the invalidation at time 3. -/
theorem single_flight_overlap :
    (∃ loads, run? {} overlap = some loads) ∧ UnderWay overlap 0 0 5 ∧ UnderWay overlap 4 2 5 ∧
      ∃ stop : Nat, 0 < stop ∧ stop < 4 ∧ overlap[stop]? = some .invalidate := by
  have hfirst : UnderWay overlap 0 0 5 := by
    refine ⟨⟨0, rfl, _, rfl, rfl, rfl⟩, by decide, fun finish outcome hfinish ↦ ?_⟩
    by_contra hge
    have hcases : finish = 0 ∨ finish = 1 ∨ finish = 2 ∨ finish = 3 ∨ finish = 4 := by omega
    rcases hcases with rfl | rfl | rfl | rfl | rfl <;> cases hfinish
  have hsecond : UnderWay overlap 4 2 5 := by
    refine ⟨⟨1, rfl, _, rfl, rfl, rfl⟩, by decide, fun finish outcome hfinish ↦ ?_⟩
    by_contra hge
    have hcases : finish = 0 ∨ finish = 1 ∨ finish = 2 ∨ finish = 3 ∨ finish = 4 := by omega
    rcases hcases with rfl | rfl | rfl | rfl | rfl <;> cases hfinish
  exact ⟨⟨_, rfl⟩, hfirst, hsecond,
    (single_flight rfl).1 0 4 0 2 5 hfirst hsecond (by decide)⟩

end Loads

end ContentSchema
