import ContentSchema.Cache.Load
import Mathlib.Data.List.Basic
/-!
# What a step of a load does

`Loads.Transition` is the step function read as a relation: one constructor for each way a step can
go, with its guard and the whole state after it. `step?_eq_some_iff` says the two are the same, and
every invariant of a shared cache is a case analysis over the constructors, never over `step?`
itself.

The laws after it are what the invariants rest on, each read off the constructors once:

* a step changes the phase of the load that it names and of no other (`phase_of_ne`), so the list
  of phases only grows;
* a step changes what a flight has published only if it publishes to that flight (`result?_eq`),
  and what has been published stays (`result?_mono`);
* the state of the cache changes only by an invalidation, by a load that finds it empty, and by the
  end of the run of the flight that it is on (`state_of_loading_before`, `state_of_ready`).
-/

namespace ContentSchema

namespace Cache

variable {α : Type} {cache : Cache α} {flight other : Nat} {result : Except CompileError α}

/-! ### Operations -/

/-- The entry of a cache that holds a set takes that set and counts a hit. -/
theorem enter_of_ready {set : α} (h : cache.state = .ready set) :
    cache.enter = (.hit set, { cache with stats.hits := cache.stats.hits + 1 }) := by
  simp only [enter, h]

/-- The entry of a cache that is on a flight joins it and is counted as such. -/
theorem enter_of_loading (h : cache.state = .loading flight) :
    cache.enter = (.join flight, { cache with stats.joined := cache.stats.joined + 1 }) := by
  simp only [enter, h]

/-- The entry of an empty cache opens a new flight, with the next number, and is not counted yet. -/
theorem enter_of_empty (h : cache.state = .empty) :
    cache.enter = (.own cache.flights.length,
      { cache with
        state := .loading cache.flights.length
        flights := cache.flights ++ [none] }) := by
  simp only [enter, h]

theorem enter_fst_eq_hit_iff {set : α} : cache.enter.1 = .hit set ↔ cache.state = .ready set := by
  unfold enter
  cases cache.state <;> simp

theorem enter_fst_eq_join_iff : cache.enter.1 = .join flight ↔ cache.state = .loading flight := by
  unfold enter
  cases cache.state <;> simp

theorem enter_fst_eq_own_iff :
    cache.enter.1 = .own flight ↔ cache.state = .empty ∧ cache.flights.length = flight := by
  unfold enter
  cases cache.state <;> simp

theorem settle_ok {set : α} (h : cache.state = .loading flight) :
    cache.settle flight (.ok set) = { cache with state := .ready set } := by
  simp only [settle, h, if_true]

theorem settle_error {error : CompileError} (h : cache.state = .loading flight) :
    cache.settle flight (.error error) = { cache with state := .empty } := by
  simp only [settle, h, if_true]

/-- A run whose flight the cache is no longer on stores nothing: it was invalidated. -/
theorem settle_of_not_current (h : cache.state ≠ .loading flight) :
    cache.settle flight result = cache := by
  unfold settle
  split
  · rename_i current hstate
    have hne : current ≠ flight := fun heq ↦ h (heq ▸ hstate)
    rw [if_neg hne]
  · rfl

/-- A cache is not on a flight that has been settled. -/
theorem state_settle_ne (h : cache.state = .loading flight) :
    (cache.settle flight result).state ≠ .loading flight := by
  cases result with
  | ok set => rw [settle_ok h]; nofun
  | error error => rw [settle_error h]; nofun

@[simp] theorem flights_settle : (cache.settle flight result).flights = cache.flights := by
  by_cases h : cache.state = .loading flight
  · cases result with
    | ok set => rw [settle_ok h]
    | error error => rw [settle_error h]
  · rw [settle_of_not_current h]

theorem result?_congr {cache' : Cache α} (h : cache'.flights = cache.flights) (flight : Nat) :
    cache'.result? flight = cache.result? flight := by
  rw [result?, result?, h]

/-- A new flight has published nothing, which is also what is read of a flight that never was. -/
theorem result?_of_flights_append {cache' : Cache α} (h : cache'.flights = cache.flights ++ [none])
    (flight : Nat) : cache'.result? flight = cache.result? flight := by
  rw [result?, result?, h]
  rcases Nat.lt_trichotomy flight cache.flights.length with hlt | rfl | hgt
  · rw [List.getElem?_append_left hlt]
  · simp
  · rw [List.getElem?_eq_none (by simp; omega), List.getElem?_eq_none (by omega)]

/-- A publication reaches no other flight. -/
theorem result?_publish_of_ne (h : other ≠ flight) :
    (cache.publish flight result).result? other = cache.result? other := by
  simp [publish, result?, Ne.symm h]

/-- The first result of a flight is the one that is published. -/
theorem result?_publish_self (hflight : flight < cache.flights.length) :
    (cache.publish flight result).result? flight = (cache.result? flight).or (some result) := by
  simp [publish, result?, List.getElem?_eq_getElem hflight]

/-- Only a flight of the cache has a result. -/
theorem lt_length_of_result? (h : cache.result? flight = some result) :
    flight < cache.flights.length := by
  by_contra hge
  rw [result?, List.getElem?_eq_none (Nat.le_of_not_lt hge)] at h
  cases h

theorem cached?_eq_some_iff {set : α} : cache.cached? = some set ↔ cache.state = .ready set := by
  unfold cached?
  cases cache.state <;> simp

end Cache

/-- The load that a step moves on. -/
def LoadStep.load? {α : Type} : LoadStep α → Option Nat
  | .start load | .finish load _ | .publish load | .receive load => some load
  | .enter | .invalidate => none

namespace Loads

variable {α : Type}

/-! ### Steps as a relation -/

/-- A step can be taken and leads to the given loads. -/
inductive Transition (loads : Loads α) : LoadStep α → Loads α → Prop where
  /-- A load finds a set and is over. -/
  | hit {set : α} (hstate : loads.cache.state = .ready set) :
    Transition loads .enter
      ⟨{ loads.cache with stats.hits := loads.cache.stats.hits + 1 },
        loads.phases ++ [.done (.finished (.ok set))]⟩
  /-- A load finds a flight and joins it. -/
  | join {flight : Nat} (hstate : loads.cache.state = .loading flight) :
    Transition loads .enter
      ⟨{ loads.cache with stats.joined := loads.cache.stats.joined + 1 },
        loads.phases ++ [.waiting flight]⟩
  /-- A load finds nothing and owns a new flight. -/
  | own (hstate : loads.cache.state = .empty) :
    Transition loads .enter
      ⟨{ loads.cache with
          state := .loading loads.cache.flights.length
          flights := loads.cache.flights ++ [none] },
        loads.phases ++ [.starting loads.cache.flights.length]⟩
  | start {load flight : Nat} (hphase : loads.phases[load]? = some (.starting flight)) :
    Transition loads (.start load)
      ⟨loads.cache.start, loads.phases.set load (.running flight)⟩
  | finish {load flight : Nat} {outcome : RunOutcome α}
      (hphase : loads.phases[load]? = some (.running flight)) :
    Transition loads (.finish load outcome)
      ⟨loads.cache.settle flight outcome.published,
        loads.phases.set load (.settled flight outcome)⟩
  | publish {load flight : Nat} {outcome : RunOutcome α}
      (hphase : loads.phases[load]? = some (.settled flight outcome)) :
    Transition loads (.publish load)
      ⟨loads.cache.publish flight outcome.published, loads.phases.set load (.done outcome)⟩
  | receive {load flight : Nat} {result : Except CompileError α}
      (hphase : loads.phases[load]? = some (.waiting flight))
      (hresult : loads.cache.result? flight = some result) :
    Transition loads (.receive load)
      ⟨loads.cache, loads.phases.set load (.done (.finished result))⟩
  | invalidate : Transition loads .invalidate ⟨loads.cache.invalidate, loads.phases⟩

/-- The step function takes exactly the transitions. -/
theorem step?_eq_some_iff {loads next : Loads α} {step : LoadStep α} :
    loads.step? step = some next ↔ Transition loads step next := by
  constructor
  · intro h
    cases step with
    | enter =>
      cases hstate : loads.cache.state with
      | empty =>
        rw [step?, Cache.enter_of_empty hstate] at h
        cases h
        exact .own hstate
      | loading flight =>
        rw [step?, Cache.enter_of_loading hstate] at h
        cases h
        exact .join hstate
      | ready set =>
        rw [step?, Cache.enter_of_ready hstate] at h
        cases h
        exact .hit hstate
    | start load =>
      simp only [step?] at h
      split at h
      · rename_i flight hphase; cases h; exact .start hphase
      · cases h
    | finish load outcome =>
      simp only [step?] at h
      split at h
      · rename_i flight hphase; cases h; exact .finish hphase
      · cases h
    | publish load =>
      simp only [step?] at h
      split at h
      · rename_i flight outcome hphase; cases h; exact .publish hphase
      · cases h
    | receive load =>
      simp only [step?] at h
      split at h
      · rename_i flight hphase
        obtain ⟨result, hresult, rfl⟩ := Option.map_eq_some_iff.1 h
        exact .receive hphase hresult
      · cases h
    | invalidate => cases h; exact .invalidate
  · intro h
    cases h with
    | hit hstate => rw [step?, Cache.enter_of_ready hstate]; rfl
    | join hstate => rw [step?, Cache.enter_of_loading hstate]; rfl
    | own hstate => rw [step?, Cache.enter_of_empty hstate]; rfl
    | start hphase => simp [step?, hphase, move]
    | finish hphase => simp [step?, hphase, move]
    | publish hphase => simp [step?, hphase, move]
    | receive hphase hresult => simp [step?, hphase, hresult, move]
    | invalidate => rfl

/-! ### What a step leaves alone -/

section Frame

variable {loads next : Loads α} {step : LoadStep α}

/-- A step keeps the phases of all loads but the one that it moves. -/
theorem Transition.phase_of_ne (h : Transition loads step next) {load : Nat} {phase : LoadPhase α}
    (hne : step.load? ≠ some load) (hphase : loads.phases[load]? = some phase) :
    next.phases[load]? = some phase := by
  obtain ⟨hlt, -⟩ := List.getElem?_eq_some_iff.1 hphase
  cases h with
  | hit | join | own => rwa [List.getElem?_append_left hlt]
  | start | finish | publish | receive =>
    rwa [List.getElem?_set_ne fun heq ↦ hne (congrArg some heq)]
  | invalidate => exact hphase

/-- A step may add a load and never takes one away. -/
theorem Transition.length_phases_le (h : Transition loads step next) :
    loads.phases.length ≤ next.phases.length := by
  cases h <;> simp

/-- Flights are never taken away. -/
theorem Transition.length_flights_le (h : Transition loads step next) :
    loads.cache.flights.length ≤ next.cache.flights.length := by
  cases h <;> simp [Cache.start, Cache.invalidate, Cache.publish]

/-- Only a step that publishes to a flight changes what the flight has published. -/
theorem Transition.result?_eq (h : Transition loads step next) {flight : Nat}
    (hne : ∀ load outcome, step = .publish load →
      loads.phases[load]? ≠ some (.settled flight outcome)) :
    next.cache.result? flight = loads.cache.result? flight := by
  cases h with
  | hit | join | start | receive | invalidate => exact Cache.result?_congr rfl flight
  | own => exact Cache.result?_of_flights_append rfl flight
  | finish => exact Cache.result?_congr Cache.flights_settle flight
  | @publish load current outcome hphase =>
    refine Cache.result?_publish_of_ne fun heq ↦ ?_
    exact hne load outcome rfl (heq ▸ hphase)

/-- What a flight has published stays. -/
theorem Transition.result?_mono (h : Transition loads step next) {flight : Nat}
    {result : Except CompileError α} (hresult : loads.cache.result? flight = some result) :
    next.cache.result? flight = some result := by
  cases h with
  | hit | join | start | receive | invalidate => exact hresult
  | own => rwa [Cache.result?_of_flights_append rfl]
  | finish => rwa [Cache.result?_congr Cache.flights_settle]
  | @publish load current outcome hphase =>
    by_cases heq : flight = current
    · subst heq
      rw [Cache.result?_publish_self (Cache.lt_length_of_result? hresult), hresult]
      rfl
    · rwa [Cache.result?_publish_of_ne heq]

/-- A set stays in the cache until it is dropped. -/
theorem Transition.state_of_ready (h : Transition loads step next) {set : α}
    (hstate : loads.cache.state = .ready set) (hstep : step ≠ .invalidate) :
    next.cache.state = .ready set := by
  cases h with
  | hit | start | publish | receive => exact hstate
  | join hloading => rw [hstate] at hloading; cases hloading
  | own hempty => rw [hstate] at hempty; cases hempty
  | finish => rwa [Cache.settle_of_not_current (by rw [hstate]; nofun)]
  | invalidate => exact absurd rfl hstep

/-- A cache on a flight stays on it unless it is invalidated or the run of that flight ends. -/
theorem Transition.state_of_loading_before (h : Transition loads step next) {flight : Nat}
    (hstate : loads.cache.state = .loading flight) :
    next.cache.state = .loading flight ∨ step = .invalidate ∨
      ∃ load outcome,
        step = .finish load outcome ∧ loads.phases[load]? = some (.running flight) := by
  cases h with
  | hit | join | start | publish | receive => exact .inl hstate
  | own hempty => cases hempty.symm.trans hstate
  | @finish load current outcome hphase =>
    by_cases hcurrent : current = flight
    · exact .inr (.inr ⟨load, outcome, rfl, hcurrent ▸ hphase⟩)
    · refine .inl ?_
      rwa [Cache.settle_of_not_current]
      rw [hstate]
      exact fun heq ↦ hcurrent (CacheState.loading.inj heq).symm
  | invalidate => exact .inr (.inl rfl)

/-- A set in the cache after a step was there before, or the step stored it. -/
theorem Transition.state_of_ready_after (h : Transition loads step next) {set : α}
    (hstate : next.cache.state = .ready set) :
    loads.cache.state = .ready set ∧ step ≠ .invalidate ∨
      ∃ load flight, step = .finish load (.finished (.ok set)) ∧
        loads.phases[load]? = some (.running flight) ∧ loads.cache.state = .loading flight := by
  cases h with
  | hit | join | start | publish | receive => exact .inl ⟨hstate, nofun⟩
  | own | invalidate => cases hstate
  | @finish load flight outcome hphase =>
    by_cases hcurrent : loads.cache.state = .loading flight
    · refine .inr ⟨load, flight, ?_, hphase, hcurrent⟩
      cases outcome with
      | died =>
        rw [RunOutcome.published, Cache.settle_error hcurrent] at hstate
        cases hstate
      | finished result =>
        cases result with
        | error error =>
          rw [RunOutcome.published, Cache.settle_error hcurrent] at hstate
          cases hstate
        | ok stored =>
          rw [RunOutcome.published, Cache.settle_ok hcurrent] at hstate
          cases hstate
          rfl
    · rw [Cache.settle_of_not_current hcurrent] at hstate
      exact .inl ⟨hstate, nofun⟩

/-- A cache that is on a flight after a step either was on it before or has just begun it. -/
theorem Transition.state_of_loading (h : Transition loads step next) {flight : Nat}
    (hstate : next.cache.state = .loading flight) :
    loads.cache.state = .loading flight ∧ step ≠ .invalidate ∨
      step = .enter ∧ loads.cache.enter.1 = .own flight := by
  cases h with
  | hit | start | publish | receive => exact .inl ⟨hstate, nofun⟩
  | join => exact .inl ⟨hstate, nofun⟩
  | own hempty =>
    cases hstate
    exact .inr ⟨rfl, by rw [Cache.enter_of_empty hempty]⟩
  | @finish load current outcome hphase =>
    refine .inl ⟨?_, nofun⟩
    by_cases hcurrent : loads.cache.state = .loading current
    · cases hresult : outcome.published with
      | ok set => rw [hresult, Cache.settle_ok hcurrent] at hstate; cases hstate
      | error error => rw [hresult, Cache.settle_error hcurrent] at hstate; cases hstate
    · rwa [Cache.settle_of_not_current hcurrent] at hstate
  | invalidate => cases hstate

end Frame

/-! ### The phases of a load -/

/-- The load owns the flight and its run has not ended. -/
def Compiles (loads : Loads α) (load flight : Nat) : Prop :=
  loads.phases[load]? = some (.starting flight) ∨ loads.phases[load]? = some (.running flight)

/-- The load owns the flight and has not published its result. -/
def Owns (loads : Loads α) (load flight : Nat) : Prop :=
  loads.Compiles load flight ∨ ∃ outcome, loads.phases[load]? = some (.settled flight outcome)

section Phase

variable {loads next : Loads α} {step : LoadStep α} {load flight : Nat}

/-- A phase after a step was there before, or is the first one of a load that came in, or is the one
to which the step moved its load. -/
theorem Transition.phase_inv (h : Transition loads step next) {phase : LoadPhase α}
    (hphase : next.phases[load]? = some phase) :
    loads.phases[load]? = some phase ∨
      step = .enter ∧ load = loads.phases.length ∧ phase = firstPhase loads.cache.enter.1 ∨
      step.load? = some load := by
  by_cases hmoved : step.load? = some load
  · exact .inr (.inr hmoved)
  have hnew : ∀ {added : LoadPhase α}, (loads.phases ++ [added])[load]? = some phase →
      loads.phases[load]? = some phase ∨ load = loads.phases.length ∧ phase = added := by
    intro added hadded
    rcases Nat.lt_trichotomy load loads.phases.length with hlt | rfl | hgt
    · exact .inl (by rwa [List.getElem?_append_left hlt] at hadded)
    · exact .inr ⟨rfl, by simpa using hadded.symm⟩
    · rw [List.getElem?_eq_none (by simp; omega)] at hadded
      cases hadded
  cases h with
  | hit hstate =>
    rw [Cache.enter_of_ready hstate]
    exact (hnew hphase).imp id fun hadded ↦ .inl ⟨rfl, hadded⟩
  | join hstate =>
    rw [Cache.enter_of_loading hstate]
    exact (hnew hphase).imp id fun hadded ↦ .inl ⟨rfl, hadded⟩
  | own hstate =>
    rw [Cache.enter_of_empty hstate]
    exact (hnew hphase).imp id fun hadded ↦ .inl ⟨rfl, hadded⟩
  | start | finish | publish | receive =>
    rw [List.getElem?_set_ne fun heq ↦ hmoved (congrArg some heq)] at hphase
    exact .inl hphase
  | invalidate => exact .inl hphase

theorem phase_set_self {phases : List (LoadPhase α)} {phase : LoadPhase α}
    (hphase : phases[load]? = some phase) (phase' : LoadPhase α) :
    (phases.set load phase')[load]? = some phase' := by
  obtain ⟨hlt, -⟩ := List.getElem?_eq_some_iff.1 hphase
  exact List.getElem?_set_self hlt

/-- A step that finishes a run settles the cache on its flight. -/
theorem Transition.finish_inv {outcome : RunOutcome α}
    (h : Transition loads (.finish load outcome) next) :
    ∃ flight, loads.phases[load]? = some (.running flight) ∧
      next.cache = loads.cache.settle flight outcome.published ∧
      next.phases[load]? = some (.settled flight outcome) := by
  cases h with
  | @finish load flight outcome hphase => exact ⟨flight, hphase, rfl, phase_set_self hphase _⟩

/-- A step that publishes hands its flight the result of the load's run. -/
theorem Transition.publish_inv (h : Transition loads (.publish load) next) :
    ∃ flight outcome, loads.phases[load]? = some (.settled flight outcome) ∧
      next.cache = loads.cache.publish flight outcome.published := by
  cases h with
  | publish hphase => exact ⟨_, _, hphase, rfl⟩

/-- How a step that names the load takes it from one phase to the next. -/
inductive Advances (cache : Cache α) (load : Nat) :
    LoadPhase α → LoadStep α → LoadPhase α → Prop where
  | start {flight : Nat} : Advances cache load (.starting flight) (.start load) (.running flight)
  | finish {flight : Nat} {outcome : RunOutcome α} :
    Advances cache load (.running flight) (.finish load outcome) (.settled flight outcome)
  | publish {flight : Nat} {outcome : RunOutcome α} :
    Advances cache load (.settled flight outcome) (.publish load) (.done outcome)
  | receive {flight : Nat} {result : Except CompileError α}
      (hresult : cache.result? flight = some result) :
    Advances cache load (.waiting flight) (.receive load) (.done (.finished result))

/-- A step that names a load finds it in a phase that the step goes with, and takes it to the next.
-/
theorem Transition.advances (h : Transition loads step next) (hmoved : step.load? = some load) :
    ∃ phase phase', loads.phases[load]? = some phase ∧ next.phases[load]? = some phase' ∧
      Advances loads.cache load phase step phase' := by
  cases h with
  | hit | join | own | invalidate => cases hmoved
  | start hphase =>
    cases hmoved
    exact ⟨_, _, hphase, phase_set_self hphase _, .start⟩
  | finish hphase =>
    cases hmoved
    exact ⟨_, _, hphase, phase_set_self hphase _, .finish⟩
  | publish hphase =>
    cases hmoved
    exact ⟨_, _, hphase, phase_set_self hphase _, .publish⟩
  | receive hphase hresult =>
    cases hmoved
    exact ⟨_, _, hphase, phase_set_self hphase _, .receive hresult⟩

/-- An owner compiles until it finishes. -/
theorem Transition.compiles (h : Transition loads step next)
    (hcompiles : loads.Compiles load flight) :
    next.Compiles load flight ∨ ∃ outcome, step = .finish load outcome ∧
      next.phases[load]? = some (.settled flight outcome) := by
  by_cases hmoved : step.load? = some load
  · obtain ⟨phase, phase', hphase, hphase', hadvances⟩ := h.advances hmoved
    rcases hcompiles with hstarting | hrunning
    · cases hphase.symm.trans hstarting
      cases hadvances
      exact .inl (.inr hphase')
    · cases hphase.symm.trans hrunning
      cases hadvances
      exact .inr ⟨_, rfl, hphase'⟩
  · exact .inl (hcompiles.imp (h.phase_of_ne hmoved) (h.phase_of_ne hmoved))

/-- A settled owner stays so until it publishes, and is done then. -/
theorem Transition.settled (h : Transition loads step next) {outcome : RunOutcome α}
    (hsettled : loads.phases[load]? = some (.settled flight outcome)) :
    next.phases[load]? = some (.settled flight outcome) ∨
      step = .publish load ∧ next.phases[load]? = some (.done outcome) := by
  by_cases hmoved : step.load? = some load
  · obtain ⟨phase, phase', hphase, hphase', hadvances⟩ := h.advances hmoved
    cases hphase.symm.trans hsettled
    cases hadvances
    exact .inr ⟨rfl, hphase'⟩
  · exact .inl (h.phase_of_ne hmoved hsettled)

/-- A waiting load waits until it receives what its flight has published. -/
theorem Transition.waiting (h : Transition loads step next)
    (hwaiting : loads.phases[load]? = some (.waiting flight)) :
    next.phases[load]? = some (.waiting flight) ∨
      ∃ result, loads.cache.result? flight = some result ∧
        next.phases[load]? = some (.done (.finished result)) := by
  by_cases hmoved : step.load? = some load
  · obtain ⟨phase, phase', hphase, hphase', hadvances⟩ := h.advances hmoved
    cases hphase.symm.trans hwaiting
    cases hadvances with
    | receive hresult => exact .inr ⟨_, hresult, hphase'⟩
  · exact .inl (h.phase_of_ne hmoved hwaiting)

/-- A load that is over stays so, with its outcome. -/
theorem Transition.done (h : Transition loads step next) {outcome : RunOutcome α}
    (hdone : loads.phases[load]? = some (.done outcome)) :
    next.phases[load]? = some (.done outcome) := by
  refine h.phase_of_ne (fun hmoved ↦ ?_) hdone
  obtain ⟨phase, phase', hphase, -, hadvances⟩ := h.advances hmoved
  cases hphase.symm.trans hdone
  cases hadvances

/-- A load that owns a flight after a step owned it before or has just begun it. -/
theorem Transition.owns_inv (h : Transition loads step next) (howns : next.Owns load flight) :
    loads.Owns load flight ∨
      step = .enter ∧ load = loads.phases.length ∧ loads.cache.enter.1 = .own flight := by
  -- a load owns a flight from its first phase on only if it found nothing
  have hfirst : ∀ {entry : CacheEntry α},
      .starting flight = firstPhase entry → entry = .own flight := by
    intro entry heq
    cases entry <;> cases heq
    rfl
  rcases howns with (hstarting | hrunning) | ⟨outcome, hsettled⟩
  · rcases h.phase_inv hstarting with hbefore | ⟨hstep, hload, hentry⟩ | hmoved
    · exact .inl (.inl (.inl hbefore))
    · exact .inr ⟨hstep, hload, hfirst hentry⟩
    · obtain ⟨phase, phase', -, hphase', hadvances⟩ := h.advances hmoved
      cases hphase'.symm.trans hstarting
      cases hadvances
  · rcases h.phase_inv hrunning with hbefore | ⟨-, -, hentry⟩ | hmoved
    · exact .inl (.inl (.inr hbefore))
    · cases hentry' : loads.cache.enter.1 <;> rw [hentry'] at hentry <;> cases hentry
    · obtain ⟨phase, phase', hphase, hphase', hadvances⟩ := h.advances hmoved
      cases hphase'.symm.trans hrunning
      cases hadvances
      exact .inl (.inl (.inl hphase))
  · rcases h.phase_inv hsettled with hbefore | ⟨-, -, hentry⟩ | hmoved
    · exact .inl (.inr ⟨outcome, hbefore⟩)
    · cases hentry' : loads.cache.enter.1 <;> rw [hentry'] at hentry <;> cases hentry
    · obtain ⟨phase, phase', hphase, hphase', hadvances⟩ := h.advances hmoved
      cases hphase'.symm.trans hsettled
      cases hadvances
      exact .inl (.inl (.inr hphase))

/-- A load that waits after a step waited before or has just joined the cache's flight. -/
theorem Transition.waiting_inv (h : Transition loads step next)
    (hwaiting : next.phases[load]? = some (.waiting flight)) :
    loads.phases[load]? = some (.waiting flight) ∨
      step = .enter ∧ load = loads.phases.length ∧ loads.cache.enter.1 = .join flight := by
  rcases h.phase_inv hwaiting with hbefore | ⟨hstep, hload, hentry⟩ | hmoved
  · exact .inl hbefore
  · refine .inr ⟨hstep, hload, ?_⟩
    cases hentry' : loads.cache.enter.1 <;> rw [hentry'] at hentry <;> cases hentry
    rfl
  · obtain ⟨phase, phase', -, hphase', hadvances⟩ := h.advances hmoved
    cases hphase'.symm.trans hwaiting
    cases hadvances

end Phase

end Loads

end ContentSchema
