import ContentSchema.Proofs.Cache.Transition
import Mathlib.Data.Nat.Init
import Mathlib.Tactic.Push
/-!
# Reading a schedule by time

The *time* of a step is its number in the schedule, and `after? schedule time` is what the first
`time` steps lead to. An event is read off the schedule at its time: `Checks` is a load coming in,
with what it finds, and `Begins` is the case in which it finds nothing and so begins a run. The run
of a flight lasts from there to the owner's `finish` step. `Quiet` is the absence of invalidations
over a span of times.

`after?_induction` is the one induction over schedules: what holds of the empty loads and survives
every transition, the time of the step in hand, holds at all times. Numbers are never used twice,
so a load comes in at one time only and a flight has one owner (`Checks.unique`, `Begins.unique`).
-/

namespace ContentSchema

namespace Loads

variable {α : Type} {schedule : List (LoadStep α)} {loads next : Loads α}

/-! ### The loads at a time -/

/-- The loads after the first `time` steps of a schedule, if these can be taken. -/
def after? (schedule : List (LoadStep α)) (time : Nat) : Option (Loads α) :=
  run? {} (schedule.take time)

@[simp] theorem after?_zero : after? schedule 0 = some {} := rfl

theorem after?_length : after? schedule schedule.length = run? {} schedule := by
  rw [after?, List.take_length]

/-- The loads after one step more. -/
theorem after?_succ {time : Nat} {step : LoadStep α} (hstep : schedule[time]? = some step) :
    after? schedule (time + 1) = (after? schedule time).bind (step? · step) := by
  rw [after?, after?, List.take_add_one, hstep, run?, run?, List.foldlM_append]
  cases List.foldlM step? {} (schedule.take time) with
  | none => rfl
  | some loads => cases h : loads.step? step <;> simp [h]

theorem lt_length_of_step {time : Nat} {step : LoadStep α} (hstep : schedule[time]? = some step) :
    time < schedule.length :=
  (List.getElem?_eq_some_iff.1 hstep).1

theorem after?_succ_of_transition {time : Nat} {step : LoadStep α}
    (hloads : after? schedule time = some loads) (hstep : schedule[time]? = some step)
    (htransition : Transition loads step next) : after? schedule (time + 1) = some next := by
  rw [after?_succ hstep, hloads]
  exact step?_eq_some_iff.2 htransition

/-- The step at a time is a transition from the loads at that time to those at the next. -/
theorem transition_of_step {time : Nat} {step : LoadStep α} (hstep : schedule[time]? = some step)
    (hnext : after? schedule (time + 1) = some next) :
    ∃ loads, after? schedule time = some loads ∧ Transition loads step next := by
  rw [after?_succ hstep] at hnext
  obtain ⟨loads, hloads, hnext⟩ := Option.bind_eq_some_iff.1 hnext
  exact ⟨loads, hloads, step?_eq_some_iff.1 hnext⟩

/-- Every time but the last has a step. -/
theorem exists_transition {time : Nat} (hlt : time < schedule.length)
    (hnext : after? schedule (time + 1) = some next) :
    ∃ loads step, after? schedule time = some loads ∧ schedule[time]? = some step ∧
      Transition loads step next := by
  have hstep : schedule[time]? = some schedule[time] := List.getElem?_eq_getElem hlt
  obtain ⟨loads, hloads, htransition⟩ := transition_of_step hstep hnext
  exact ⟨loads, schedule[time], hloads, hstep, htransition⟩

/-- If a schedule can be taken up to a time, it can be taken up to every earlier one. -/
theorem exists_after?_of_le {time later : Nat} (hle : time ≤ later)
    (hlater : later ≤ schedule.length) (h : after? schedule later = some next) :
    ∃ loads, after? schedule time = some loads := by
  induction later, hle using Nat.le_induction generalizing next with
  | base => exact ⟨next, h⟩
  | succ later hle ih =>
    obtain ⟨loads, -, hloads, -, -⟩ := exists_transition (by omega) h
    exact ih (by omega) hloads

/-- The induction over a schedule from a time on. -/
theorem after?_induction_from {motive : Nat → Loads α → Prop} {start : Nat} {first : Loads α}
    (hfirst : after? schedule start = some first) (init : motive start first)
    (step : ∀ time loads step next, start ≤ time → after? schedule time = some loads →
      schedule[time]? = some step → Transition loads step next → motive time loads →
        motive (time + 1) next) :
    ∀ {time loads}, start ≤ time → time ≤ schedule.length → after? schedule time = some loads →
      motive time loads := by
  intro time loads hle
  induction time, hle using Nat.le_induction generalizing loads with
  | base =>
    intro _ h
    rw [hfirst] at h
    exact Option.some.inj h ▸ init
  | succ time hle ih =>
    intro hlen h
    obtain ⟨before, taken, hbefore, htaken, htransition⟩ := exists_transition (by omega) h
    exact step time before taken loads hle hbefore htaken htransition (ih (by omega) hbefore)

/-- The induction over a schedule: an invariant of the loads and the time holds at all times. -/
theorem after?_induction {motive : Nat → Loads α → Prop} (init : motive 0 {})
    (step : ∀ time loads step next, after? schedule time = some loads →
      schedule[time]? = some step → Transition loads step next → motive time loads →
        motive (time + 1) next)
    {time : Nat} (hlen : time ≤ schedule.length) (h : after? schedule time = some loads) :
    motive time loads :=
  after?_induction_from after?_zero init (fun time loads taken next _ ↦ step time loads taken next)
    (Nat.zero_le time) hlen h

/-- No load is ever taken from the list, so its number stays its own. -/
theorem length_phases_mono {time later : Nat} (hle : time ≤ later)
    (hlater : later ≤ schedule.length)
    (hloads : after? schedule time = some loads) (hnext : after? schedule later = some next) :
    loads.phases.length ≤ next.phases.length :=
  after?_induction_from (motive := fun _ now ↦ loads.phases.length ≤ now.phases.length)
    hloads (Nat.le_refl _)
    (fun _ _ _ _ _ _ _ h ih ↦ Nat.le_trans ih h.length_phases_le) hle hlater hnext

/-- Neither is a flight. -/
theorem length_flights_mono {time later : Nat} (hle : time ≤ later)
    (hlater : later ≤ schedule.length)
    (hloads : after? schedule time = some loads) (hnext : after? schedule later = some next) :
    loads.cache.flights.length ≤ next.cache.flights.length :=
  after?_induction_from
    (motive := fun _ now ↦ loads.cache.flights.length ≤ now.cache.flights.length)
    hloads (Nat.le_refl _)
    (fun _ _ _ _ _ _ _ h ih ↦ Nat.le_trans ih h.length_flights_le) hle hlater hnext

/-! ### Events -/

/-- No invalidation has a time from `start` on and before `stop`. -/
def Quiet (schedule : List (LoadStep α)) (start stop : Nat) : Prop :=
  ∀ time, start ≤ time → time < stop → schedule[time]? ≠ some .invalidate

/-- At this time the load comes in and finds `entry`. -/
structure Checks (schedule : List (LoadStep α)) (time load : Nat) (entry : CacheEntry α) :
    Prop where
  step : schedule[time]? = some .enter
  found : ∃ loads, after? schedule time = some loads ∧ loads.phases.length = load ∧
    loads.cache.enter.1 = entry

/-- At this time the load finds nothing and begins a run on a new flight, which it owns. -/
abbrev Begins (schedule : List (LoadStep α)) (time owner flight : Nat) : Prop :=
  Checks schedule time owner (.own flight)

/-- The run that the load began at `start` is under way: its owner has not finished before
`time`. -/
structure UnderWay (schedule : List (LoadStep α)) (start owner time : Nat) : Prop where
  begins : ∃ flight, Begins schedule start owner flight
  begun : start < time
  unfinished : ∀ finish outcome, schedule[finish]? = some (.finish owner outcome) → time ≤ finish

/-- At this time the run of the owner ends with a set, and the cache goes from its flight to the
set. -/
structure Stores (schedule : List (LoadStep α)) (time owner flight : Nat) (set : α) : Prop where
  step : schedule[time]? = some (.finish owner (.finished (.ok set)))
  before : ∃ loads, after? schedule time = some loads ∧ loads.cache.state = .loading flight
  after : ∃ loads, after? schedule (time + 1) = some loads ∧ loads.cache.state = .ready set

theorem Quiet.succ {start stop : Nat} (h : Quiet schedule start stop)
    (hstop : schedule[stop]? ≠ some .invalidate) : Quiet schedule start (stop + 1) := by
  intro time hle hlt
  rcases Nat.lt_succ_iff_lt_or_eq.1 hlt with hlt | rfl
  · exact h time hle hlt
  · exact hstop

theorem Quiet.mono {start start' stop stop' : Nat} (h : Quiet schedule start stop)
    (hstart : start ≤ start') (hstop : stop' ≤ stop) : Quiet schedule start' stop' :=
  fun time hle hlt ↦ h time (Nat.le_trans hstart hle) (Nat.lt_of_lt_of_le hlt hstop)

/-- A span of time that is not quiet has an invalidation in it. -/
theorem exists_invalidate_of_not_quiet {start stop : Nat} (h : ¬ Quiet schedule start stop) :
    ∃ time, start ≤ time ∧ time < stop ∧ schedule[time]? = some .invalidate := by
  unfold Quiet at h
  push Not at h
  obtain ⟨time, hle, hlt, hstep⟩ := h
  exact ⟨time, hle, hlt, hstep⟩

section Checks

variable {time time' load load' : Nat} {entry entry' : CacheEntry α}

theorem Checks.lt_length (h : Checks schedule time load entry) : time < schedule.length :=
  lt_length_of_step h.step

/-- A load that comes in invalidates nothing. -/
theorem Checks.quiet_succ (h : Checks schedule time load entry) :
    Quiet schedule time (time + 1) := by
  intro other hle hlt
  obtain rfl : other = time := by omega
  rw [h.step]
  nofun

/-- The loads after a load has come in. -/
theorem Checks.exists_after?_succ (h : Checks schedule time load entry) :
    ∃ loads, after? schedule time = some loads ∧ loads.phases.length = load ∧
      loads.cache.enter.1 = entry ∧
      after? schedule (time + 1) =
        some ⟨loads.cache.enter.2, loads.phases ++ [firstPhase entry]⟩ := by
  obtain ⟨loads, hloads, hload, hentry⟩ := h.found
  refine ⟨loads, hloads, hload, hentry, ?_⟩
  rw [after?_succ h.step, hloads, ← hentry]
  rfl

/-- A load that has come in is in its first phase, and the next one to come in has the next
number. -/
theorem Checks.phase_succ (h : Checks schedule time load entry)
    (hnext : after? schedule (time + 1) = some next) :
    next.phases[load]? = some (firstPhase entry) ∧ next.phases.length = load + 1 := by
  obtain ⟨loads, -, rfl, -, hsucc⟩ := h.exists_after?_succ
  rw [hnext, Option.some.injEq] at hsucc
  subst hsucc
  simp

/-- A load that has a number came in before. -/
theorem Checks.lt_of_lt_length (h : Checks schedule time load entry)
    (hloads : after? schedule time' = some loads) (hload : load < loads.phases.length) :
    time < time' := by
  by_contra hge
  obtain ⟨before, hbefore, rfl, -⟩ := h.found
  have hmono :=
    length_phases_mono (Nat.le_of_not_lt hge) (Nat.le_of_lt h.lt_length) hloads hbefore
  omega

/-- A run ends after its load has come in. -/
theorem Checks.lt_of_finish (h : Checks schedule time load entry) {outcome : RunOutcome α}
    (hfinish : schedule[time']? = some (.finish load outcome)) : time < time' := by
  by_contra hge
  have hne : time' ≠ time := by
    rintro rfl
    cases h.step.symm.trans hfinish
  obtain ⟨now, hnow, -, -⟩ := h.found
  obtain ⟨next, hnext⟩ :=
    exists_after?_of_le (show time' + 1 ≤ time by omega) (Nat.le_of_lt h.lt_length) hnow
  obtain ⟨before, hbefore, htransition⟩ := transition_of_step hfinish hnext
  obtain ⟨flight, hrunning, -, -⟩ := htransition.finish_inv
  exact hge (h.lt_of_lt_length hbefore (List.getElem?_eq_some_iff.1 hrunning).1)

/-- Loads are numbered in the order in which they come in. -/
theorem Checks.load_lt (h : Checks schedule time load entry)
    (h' : Checks schedule time' load' entry') (hlt : time < time') : load < load' := by
  obtain ⟨loads, -, -, -, hsucc⟩ := h.exists_after?_succ
  obtain ⟨loads', hloads', rfl, -⟩ := h'.found
  have hmono := length_phases_mono hlt (Nat.le_of_lt h'.lt_length) hsucc hloads'
  have hlength := (h.phase_succ hsucc).2
  omega

/-- One load comes in at a time. -/
theorem Checks.load_eq (h : Checks schedule time load entry)
    (h' : Checks schedule time load' entry') :
    load = load' ∧ entry = entry' := by
  obtain ⟨loads, hloads, rfl, rfl⟩ := h.found
  obtain ⟨loads', hloads', rfl, rfl⟩ := h'.found
  rw [hloads, Option.some.injEq] at hloads'
  exact ⟨hloads' ▸ rfl, hloads' ▸ rfl⟩

/-- A load comes in at one time only, and finds one thing. -/
theorem Checks.unique (h : Checks schedule time load entry)
    (h' : Checks schedule time' load entry') :
    time = time' ∧ entry = entry' := by
  rcases Nat.lt_trichotomy time time' with hlt | rfl | hlt
  · exact absurd (h.load_lt h' hlt) (Nat.lt_irrefl load)
  · exact ⟨rfl, (h.load_eq h').2⟩
  · exact absurd (h'.load_lt h hlt) (Nat.lt_irrefl load)

end Checks

section Begins

variable {time time' owner owner' flight flight' : Nat}

/-- After its check an owner is about to compile and the cache is on its flight, which is the
last. -/
theorem Begins.own_succ (h : Begins schedule time owner flight)
    (hnext : after? schedule (time + 1) = some next) :
    next.cache.state = .loading flight ∧ next.cache.flights.length = flight + 1 := by
  obtain ⟨loads, -, -, hentry, hsucc⟩ := h.exists_after?_succ
  obtain ⟨hempty, rfl⟩ := Cache.enter_fst_eq_own_iff.1 hentry
  rw [hnext, Option.some.injEq, Cache.enter_of_empty hempty] at hsucc
  subst hsucc
  simp

/-- Flights are numbered in the order in which they begin. -/
theorem Begins.flight_lt (h : Begins schedule time owner flight)
    (h' : Begins schedule time' owner' flight') (hlt : time < time') : flight < flight' := by
  obtain ⟨loads, -, -, -, hsucc⟩ := h.exists_after?_succ
  obtain ⟨loads', hloads', -, hentry'⟩ := h'.found
  obtain ⟨-, rfl⟩ := Cache.enter_fst_eq_own_iff.1 hentry'
  have hmono := length_flights_mono hlt (Nat.le_of_lt h'.lt_length) hsucc hloads'
  have hlength := (h.own_succ hsucc).2
  omega

/-- From its check on, a flight is among those of the cache. -/
theorem Begins.flight_lt_length (h : Begins schedule time owner flight) {later : Nat}
    (hlt : time < later) (hlater : later ≤ schedule.length)
    (hloads : after? schedule later = some loads) : flight < loads.cache.flights.length := by
  obtain ⟨before, -, -, -, hsucc⟩ := h.exists_after?_succ
  have hmono := length_flights_mono hlt hlater hsucc hloads
  have hlength := (h.own_succ hsucc).2
  omega

/-- A flight begins once and has one owner. -/
theorem Begins.unique (h : Begins schedule time owner flight)
    (h' : Begins schedule time' owner' flight) : time = time' ∧ owner = owner' := by
  rcases Nat.lt_trichotomy time time' with hlt | rfl | hlt
  · exact absurd (h.flight_lt h' hlt) (Nat.lt_irrefl flight)
  · exact ⟨rfl, (Checks.load_eq h h').1⟩
  · exact absurd (h'.flight_lt h hlt) (Nat.lt_irrefl flight)

end Begins

/-! ### Two runs at one time -/

/-- A run is invalidated while a second load waits for it, a third load runs anew and stores its
set, the old run dies, and a fourth load comes in. -/
def overlap : List (LoadStep Nat) :=
  [.enter, .start 0, .enter, .invalidate, .enter, .start 2, .finish 2 (.finished (.ok 7)),
    .finish 0 .died, .enter, .publish 0, .receive 1, .publish 2]

end Loads

end ContentSchema
