import Mathlib.Data.Set.Card
import ContentSchema.Proofs.Cache.Run
/-!
# What the counters count

A hit and a join are counted by the step in which the load finds them, a run by a later step of the
load that owns it, which may die and never return. So between its check and its count an owner is in
none of the counters, and those owners are what the counters are short of the loads that came in.

`Account` ties every counter to the loads that account for it: `hits` and `joined` to the loads that
found a set or a flight, `runs`, together with the owners that are still `starting`, to the loads
that found nothing. Its step lemma has two cases. A load that comes in is a new number and counts
once, for what it finds (`ncard_cameIn_succ`, `Cache.stats_enter`); any other step brings no load in
and counts only if it starts a run, which then is one less to be counted
(`Transition.stats_of_ne_enter`).

Once no load is in progress no owner is left to count its run, and each load that joined has received
the result of another one (`receives_of_join`).
-/

namespace ContentSchema

variable {α : Type}

/-- Whether a load found a set. -/
def CacheEntry.isHit : CacheEntry α → Bool
  | .hit _ => true
  | _ => false

/-- Whether a load found a flight. -/
def CacheEntry.isJoin : CacheEntry α → Bool
  | .join _ => true
  | _ => false

/-- Whether a load found nothing. -/
def CacheEntry.isOwn : CacheEntry α → Bool
  | .own _ => true
  | _ => false

/-- Whether a load owns a flight and has not counted its run. -/
def LoadPhase.isStarting : LoadPhase α → Bool
  | .starting _ => true
  | _ => false

/-- Whether a load is over. -/
def LoadPhase.isDone : LoadPhase α → Bool
  | .done _ => true
  | _ => false

/-- Whether a step starts a compilation. -/
def LoadStep.isStart : LoadStep α → Bool
  | .start _ => true
  | _ => false

/-! ### What a step counts -/

/-- Overwriting one element of a list trades its share of a count for the new element's. It is
stated as a sum, so that nothing is subtracted. -/
theorem countP_set_add {β : Type} (p : β → Bool) {xs : List β} {place : Nat} {x : β}
    (h : xs[place]? = some x) (y : β) :
    (xs.set place y).countP p + (p x).toNat = xs.countP p + (p y).toNat := by
  obtain ⟨hlt, rfl⟩ := List.getElem?_eq_some_iff.1 h
  have hpos : p xs[place] = true → 0 < xs.countP p :=
    fun hp ↦ List.countP_pos_iff.2 ⟨_, List.getElem_mem hlt, hp⟩
  rw [List.countP_set hlt]
  cases hx : p xs[place] with
  | false => cases p y <;> rfl
  | true =>
    have hcount : 0 < xs.countP p := hpos hx
    cases p y <;> simp only [Bool.toNat_true, Bool.toNat_false, if_true, Bool.false_eq_true, if_false]
    all_goals omega

namespace Cache

variable {cache : Cache α}

/-- A load that finds a set or a flight is counted on the spot, one that finds nothing is not. -/
theorem stats_enter : cache.enter.2.stats =
    { runs := cache.stats.runs
      hits := cache.stats.hits + cache.enter.1.isHit.toNat
      joined := cache.stats.joined + cache.enter.1.isJoin.toNat } := by
  unfold enter
  cases cache.state <;> rfl

/-- The end of a run is counted nowhere: the run was counted when it started. -/
theorem stats_settle {flight : Nat} {result : Except CompileError α} :
    (cache.settle flight result).stats = cache.stats := by
  by_cases h : cache.state = .loading flight
  · cases result with
    | ok set => rw [settle_ok h]
    | error error => rw [settle_error h]
  · rw [settle_of_not_current h]

end Cache

namespace Loads

variable {schedule : List (LoadStep α)} {loads next : Loads α} {step : LoadStep α}

/-- The loads that begin as `starting` are the owners, and no other load ever is. -/
theorem isStarting_firstPhase (entry : CacheEntry α) :
    (firstPhase entry).isStarting = entry.isOwn := by
  cases entry <;> rfl

/-- Whatever a load finds, it comes in at the end of the list. -/
theorem Transition.enter_inv (h : Transition loads .enter next) :
    next = ⟨loads.cache.enter.2, loads.phases ++ [firstPhase loads.cache.enter.1]⟩ :=
  (Option.some.inj (step?_eq_some_iff.2 h)).symm

/-- A step that brings no load in counts a run if it starts one, and then the owner of that run is
no longer `starting`. -/
theorem Transition.stats_of_ne_enter (h : Transition loads step next) (hne : step ≠ .enter) :
    next.cache.stats = { loads.cache.stats with
        runs := loads.cache.stats.runs + step.isStart.toNat } ∧
      next.phases.length = loads.phases.length ∧
      next.phases.countP LoadPhase.isStarting + step.isStart.toNat =
        loads.phases.countP LoadPhase.isStarting := by
  cases h with
  | hit | join | own => exact absurd rfl hne
  | start hphase => exact ⟨rfl, List.length_set, countP_set_add _ hphase _⟩
  | finish hphase =>
    exact ⟨Cache.stats_settle, List.length_set, countP_set_add LoadPhase.isStarting hphase _⟩
  | publish hphase | receive hphase =>
    exact ⟨rfl, List.length_set, countP_set_add LoadPhase.isStarting hphase _⟩
  | invalidate => exact ⟨rfl, rfl, rfl⟩

/-! ### The loads that came in -/

/-- The loads that came in before a time and found a thing of this sort. -/
def cameIn (schedule : List (LoadStep α)) (time : Nat) (found : CacheEntry α → Bool) : Set Nat :=
  {load | ∃ check entry, check < time ∧ Checks schedule check load entry ∧ found entry = true}

variable {time : Nat} {found : CacheEntry α → Bool}

theorem cameIn_zero : cameIn schedule 0 found = ∅ :=
  Set.eq_empty_of_forall_notMem fun _ ⟨_, _, hlt, _⟩ ↦ absurd hlt (Nat.not_lt_zero _)

theorem lt_length_of_mem_cameIn (hlen : time ≤ schedule.length)
    (hloads : after? schedule time = some loads) {load : Nat}
    (h : load ∈ cameIn schedule time found) : load < loads.phases.length := by
  obtain ⟨check, entry, hlt, hcheck, -⟩ := h
  obtain ⟨before, -, -, -, hsucc⟩ := hcheck.exists_after?_succ
  have hmono := length_phases_mono hlt hlen hsucc hloads
  have hlength := (hcheck.phase_succ hsucc).2
  omega

/-- Only a load that comes in adds to those that came in. -/
theorem cameIn_succ_of_ne_enter (hne : schedule[time]? ≠ some .enter) :
    cameIn schedule (time + 1) found = cameIn schedule time found := by
  refine Set.ext fun load ↦ ⟨?_, ?_⟩
  · rintro ⟨check, entry, hlt, hcheck, hfound⟩
    rcases Nat.lt_succ_iff_lt_or_eq.1 hlt with hlt | rfl
    · exact ⟨check, entry, hlt, hcheck, hfound⟩
    · exact absurd hcheck.step hne
  · rintro ⟨check, entry, hlt, hcheck, hfound⟩
    exact ⟨check, entry, Nat.lt_succ_of_lt hlt, hcheck, hfound⟩

/-- The load that comes in next has a new number. -/
theorem cameIn_succ (hloads : after? schedule time = some loads)
    (hstep : schedule[time]? = some .enter) :
    cameIn schedule (time + 1) found =
      if found loads.cache.enter.1 then insert loads.phases.length (cameIn schedule time found)
      else cameIn schedule time found := by
  have hnow : Checks schedule time loads.phases.length loads.cache.enter.1 :=
    ⟨hstep, loads, hloads, rfl, rfl⟩
  have hold : ∀ load, load ∈ cameIn schedule (time + 1) found ↔
      load ∈ cameIn schedule time found ∨
        load = loads.phases.length ∧ found loads.cache.enter.1 = true := by
    refine fun load ↦ ⟨?_, ?_⟩
    · rintro ⟨check, entry, hlt, hcheck, hfound⟩
      rcases Nat.lt_succ_iff_lt_or_eq.1 hlt with hlt | rfl
      · exact .inl ⟨check, entry, hlt, hcheck, hfound⟩
      · obtain ⟨rfl, rfl⟩ := hcheck.load_eq hnow
        exact .inr ⟨rfl, hfound⟩
    · rintro (⟨check, entry, hlt, hcheck, hfound⟩ | ⟨rfl, hfound⟩)
      · exact ⟨check, entry, Nat.lt_succ_of_lt hlt, hcheck, hfound⟩
      · exact ⟨time, _, Nat.lt_succ_self time, hnow, hfound⟩
  ext load
  rw [hold]
  split_ifs with hfound <;> simp [hfound, or_comm]

/-- So it counts once. -/
theorem ncard_cameIn_succ (hloads : after? schedule time = some loads)
    (hstep : schedule[time]? = some .enter) :
    (cameIn schedule (time + 1) found).ncard =
      (cameIn schedule time found).ncard + (found loads.cache.enter.1).toNat := by
  have hlt : ∀ load ∈ cameIn schedule time found, load < loads.phases.length :=
    fun load ↦ lt_length_of_mem_cameIn (Nat.le_of_lt (lt_length_of_step hstep)) hloads
  rw [cameIn_succ hloads hstep]
  cases found loads.cache.enter.1 with
  | false => rfl
  | true =>
    have hfinite : (cameIn schedule time found).Finite := (Set.finite_lt_nat _).subset hlt
    exact Set.ncard_insert_of_notMem (fun hmem ↦ Nat.lt_irrefl _ (hlt _ hmem)) hfinite

/-- At the end of a schedule the time no longer matters. -/
theorem cameIn_length : cameIn schedule schedule.length found =
    {load | ∃ check entry, Checks schedule check load entry ∧ found entry = true} := by
  refine Set.ext fun load ↦ ⟨?_, ?_⟩
  · rintro ⟨check, entry, -, hcheck, hfound⟩
    exact ⟨check, entry, hcheck, hfound⟩
  · rintro ⟨check, entry, hcheck, hfound⟩
    exact ⟨check, entry, hcheck.lt_length, hcheck, hfound⟩

/-! ### The account at a time -/

/-- Which loads and steps stand behind the counters. -/
structure Account (schedule : List (LoadStep α)) (time : Nat) (loads : Loads α) : Prop where
  hits : loads.cache.stats.hits = (cameIn schedule time CacheEntry.isHit).ncard
  joined : loads.cache.stats.joined = (cameIn schedule time CacheEntry.isJoin).ncard
  owners : loads.cache.stats.runs + loads.phases.countP LoadPhase.isStarting =
    (cameIn schedule time CacheEntry.isOwn).ncard
  starts : loads.cache.stats.runs = (schedule.take time).countP LoadStep.isStart
  all : loads.phases.length = (cameIn schedule time fun _ ↦ true).ncard
  sum : loads.phases.length = loads.cache.stats.runs + loads.cache.stats.hits +
    loads.cache.stats.joined + loads.phases.countP LoadPhase.isStarting

theorem countP_take_succ {p : LoadStep α → Bool} (hstep : schedule[time]? = some step) :
    (schedule.take (time + 1)).countP p = (schedule.take time).countP p + (p step).toNat := by
  rw [List.take_add_one, hstep, List.countP_append]
  cases h : p step <;> simp [h]

/-- A load that comes in adds one to one of three: the hits, the joined loads, or the owners that
have yet to start their run. -/
theorem Account.enter (h : Account schedule time loads) (hloads : after? schedule time = some loads)
    (hstep : schedule[time]? = some .enter) :
    Account schedule (time + 1)
      ⟨loads.cache.enter.2, loads.phases ++ [firstPhase loads.cache.enter.1]⟩ := by
  have hstarting : (loads.phases ++ [firstPhase loads.cache.enter.1]).countP LoadPhase.isStarting =
      loads.phases.countP LoadPhase.isStarting + loads.cache.enter.1.isOwn.toNat := by
    rw [List.countP_append, List.countP_singleton, isStarting_firstPhase]
    cases loads.cache.enter.1.isOwn <;> rfl
  -- a load finds exactly one of the three things, so the sum grows by one as the loads do
  have hone : loads.cache.enter.1.isHit.toNat + loads.cache.enter.1.isJoin.toNat +
      loads.cache.enter.1.isOwn.toNat = 1 := by
    cases loads.cache.enter.1 <;> rfl
  have hsum := h.sum
  constructor
  · rw [Cache.stats_enter, h.hits, ncard_cameIn_succ hloads hstep]
  · rw [Cache.stats_enter, h.joined, ncard_cameIn_succ hloads hstep]
  · rw [Cache.stats_enter, hstarting, ncard_cameIn_succ hloads hstep, ← h.owners, Nat.add_assoc]
  · rw [Cache.stats_enter, countP_take_succ hstep]
    exact h.starts
  · rw [List.length_append, h.all, ncard_cameIn_succ hloads hstep]
    rfl
  · rw [Cache.stats_enter, hstarting, List.length_append, List.length_singleton]
    show loads.phases.length + 1 = loads.cache.stats.runs + (loads.cache.stats.hits + _) +
      (loads.cache.stats.joined + _) + _
    omega

/-- Any other step leaves the loads that came in as they are; a start moves an owner from those that
have yet to start to the runs. -/
theorem Account.of_ne_enter (h : Account schedule time loads) (hstep : schedule[time]? = some step)
    (htransition : Transition loads step next) (hne : step ≠ .enter) :
    Account schedule (time + 1) next := by
  obtain ⟨hstats, hlength, hstarting⟩ := htransition.stats_of_ne_enter hne
  -- no load came in, so only the runs and the owners that have yet to start one can have changed
  have hcame : ∀ found : CacheEntry α → Bool,
      cameIn schedule (time + 1) found = cameIn schedule time found :=
    fun found ↦ cameIn_succ_of_ne_enter (by rw [hstep]; simpa using hne)
  have howners := h.owners
  have hsum := h.sum
  constructor
  · rw [hstats, hcame, ← h.hits]
  · rw [hstats, hcame, ← h.joined]
  · rw [hstats, hcame]
    show loads.cache.stats.runs + _ + _ = _
    omega
  · rw [hstats, countP_take_succ hstep, ← h.starts]
  · rw [hlength, hcame, h.all]
  · rw [hstats, hlength]
    show loads.phases.length = loads.cache.stats.runs + _ + loads.cache.stats.hits +
      loads.cache.stats.joined + _
    omega

/-- The counters of a shared cache account for the loads at all times. -/
theorem account_after? (hlen : time ≤ schedule.length) (hloads : after? schedule time = some loads) :
    Account schedule time loads := by
  refine after?_induction (motive := fun time loads ↦ Account schedule time loads) ?_ ?_ hlen hloads
  · constructor <;> simp [cameIn_zero]
  · intro time loads step next hloads hstep htransition ih
    by_cases henter : step = .enter
    · subst henter
      rw [htransition.enter_inv]
      exact ih.enter hloads hstep
    · exact ih.of_ne_enter hstep htransition henter

/-! ### When no load is in progress -/

/-- The load joined the flight of the owner, and it is over with what the owner's run came to. -/
structure Receives (schedule : List (LoadStep α)) (loads : Loads α) (load owner : Nat) : Prop where
  joined : ∃ check start flight, Checks schedule check load (.join flight) ∧
    Begins schedule start owner flight
  received : ∃ (finish : Nat) (outcome : RunOutcome α),
    schedule[finish]? = some (.finish owner outcome) ∧
      loads.phases[load]? = some (.done (.finished outcome.published))

/-- No load joins the flight that it owns. -/
theorem Checks.ne_of_begins {check start load owner flight flight' : Nat}
    (h : Checks schedule check load (.join flight)) (hbegins : Begins schedule start owner flight') :
    owner ≠ load := by
  rintro rfl
  cases (h.unique hbegins).2

theorem exists_done_of_isDone (hdone : ∀ phase ∈ loads.phases, phase.isDone = true) {load : Nat}
    (hlt : load < loads.phases.length) : ∃ outcome, loads.phases[load]? = some (.done outcome) := by
  have hphase : loads.phases[load]? = some loads.phases[load] := List.getElem?_eq_getElem hlt
  have hover := hdone _ (List.getElem_mem hlt)
  cases heq : loads.phases[load] with
  | done outcome => exact ⟨outcome, by rw [hphase, heq]⟩
  | starting | running | settled | waiting => rw [heq] at hover; cases hover

/-- A load that joined and is over has received the result of another load. -/
theorem receives_of_join {check load flight : Nat} {answer : RunOutcome α}
    (hrun : run? {} schedule = some loads) (hcheck : Checks schedule check load (.join flight))
    (hdone : loads.phases[load]? = some (.done answer)) :
    ∃ owner, owner ≠ load ∧ Receives schedule loads load owner := by
  obtain ⟨start, hdraws⟩ := exists_drawsOn_of_done hrun hcheck hdone
  cases hdraws with
  | own hbegins => cases (hcheck.unique hbegins).2
  | hit hhit => cases (hcheck.unique hhit).2
  | @join _ _ owner flight outcome hjoin hbegins hfinish hanswer =>
    exact ⟨owner, hcheck.ne_of_begins hbegins, ⟨check, start, flight, hjoin, hbegins⟩, _, outcome,
      hfinish, hanswer ▸ hdone⟩

/-- The runs that have ended are those of the loads that found nothing, once these are over. -/
theorem finished_eq_cameIn (hrun : run? {} schedule = some loads)
    (hdone : ∀ phase ∈ loads.phases, phase.isDone = true) :
    {load | ∃ (finish : Nat) (outcome : RunOutcome α),
        schedule[finish]? = some (.finish load outcome)} =
      cameIn schedule schedule.length CacheEntry.isOwn := by
  have hloads : after? schedule schedule.length = some loads := after?_length.trans hrun
  refine Set.ext fun load ↦ ⟨?_, fun hmem ↦ ?_⟩
  · rintro ⟨finish, outcome, hfinish⟩
    have hlt : finish < schedule.length := lt_length_of_step hfinish
    obtain ⟨next, hnext⟩ := exists_after?_of_le hlt (Nat.le_refl _) hloads
    obtain ⟨-, start, flight, -, -, hbegins, -⟩ := exists_begins_of_finish hfinish hnext
    exact ⟨start, _, hbegins.lt_length, hbegins, rfl⟩
  · obtain ⟨outcome, hover⟩ :=
      exists_done_of_isDone hdone (lt_length_of_mem_cameIn (Nat.le_refl _) hloads hmem)
    obtain ⟨check, entry, hlt, hcheck, hfound⟩ := hmem
    cases entry with
    | hit | join => cases hfound
    | own flight =>
      have hstage := ownerStage_of_begins hcheck hlt (Nat.le_refl _) hloads
      obtain ⟨⟨finish, -, hfinish⟩, -⟩ := hstage.of_done hover
      exact ⟨finish, outcome, hfinish⟩

/-- **The counters account for every load.** At the end of every schedule, and so in every state that
loads, invalidations and runs of any outcome can reach, the loads that have passed their check are as
many as the counters say together with the owners that have not counted their runs. Once no load is
in progress:

* the counters add up to the loads that were made;
* `runs` is the number of compilations that were started, each of which has ended;
* `hits` is the number of loads that found a set;
* `joined` is the number of loads that received the result of another load.

No counter is ever above the number of loads, so words of 64 bits hold them as long as they hold that
number. -/
theorem counters_account (hrun : run? {} schedule = some loads) :
    {load | ∃ check entry, Checks schedule check load entry}.ncard =
        loads.cache.stats.runs + loads.cache.stats.hits + loads.cache.stats.joined +
          loads.phases.countP LoadPhase.isStarting ∧
      ((∀ phase ∈ loads.phases, phase.isDone = true) →
        loads.cache.stats.runs + loads.cache.stats.hits + loads.cache.stats.joined =
            {load | ∃ check entry, Checks schedule check load entry}.ncard ∧
          loads.cache.stats.runs = schedule.countP LoadStep.isStart ∧
          loads.cache.stats.runs = {load | ∃ (finish : Nat) (outcome : RunOutcome α),
            schedule[finish]? = some (.finish load outcome)}.ncard ∧
          loads.cache.stats.hits = {load | ∃ check set, Checks schedule check load (.hit set)}.ncard ∧
          loads.cache.stats.joined =
            {load | ∃ owner, owner ≠ load ∧ Receives schedule loads load owner}.ncard) ∧
      ({load | ∃ check entry, Checks schedule check load entry}.ncard < 2 ^ 64 →
        loads.cache.stats.runs < 2 ^ 64 ∧ loads.cache.stats.hits < 2 ^ 64 ∧
          loads.cache.stats.joined < 2 ^ 64) := by
  have hloads : after? schedule schedule.length = some loads := after?_length.trans hrun
  have haccount : Account schedule schedule.length loads := account_after? (Nat.le_refl _) hloads
  have hall : {load | ∃ check entry, Checks schedule check load entry}.ncard =
      loads.phases.length := by
    rw [haccount.all, cameIn_length]
    simp
  have hsum := haccount.sum
  refine ⟨by rw [hall, hsum], fun hdone ↦ ?_, fun _ ↦ by omega⟩
  have hstarting : loads.phases.countP LoadPhase.isStarting = 0 := by
    refine List.countP_eq_zero.2 fun phase hmem hstarting ↦ ?_
    have hover := hdone phase hmem
    cases phase with
    | done => cases hstarting
    | starting | running | settled | waiting => cases hover
  refine ⟨by rw [hall]; omega, ?_, ?_, ?_, ?_⟩
  · rw [haccount.starts, List.take_length]
  · rw [finished_eq_cameIn hrun hdone, ← haccount.owners, hstarting, Nat.add_zero]
  · rw [haccount.hits, cameIn_length]
    refine congrArg Set.ncard (Set.ext fun load ↦ ⟨?_, ?_⟩)
    · rintro ⟨check, entry, hcheck, hfound⟩
      cases entry with
      | hit set => exact ⟨check, set, hcheck⟩
      | join | own => cases hfound
    · rintro ⟨check, set, hcheck⟩
      exact ⟨check, _, hcheck, rfl⟩
  · rw [haccount.joined]
    refine congrArg Set.ncard (Set.ext fun load ↦ ⟨fun hmem ↦ ?_, ?_⟩)
    · obtain ⟨outcome, hover⟩ :=
        exists_done_of_isDone hdone (lt_length_of_mem_cameIn (Nat.le_refl _) hloads hmem)
      obtain ⟨check, entry, -, hcheck, hfound⟩ := hmem
      cases entry with
      | join flight => exact receives_of_join hrun hcheck hover
      | hit | own => cases hfound
    · rintro ⟨owner, -, ⟨check, start, flight, hcheck, -⟩, -⟩
      exact ⟨check, _, hcheck.lt_length, hcheck, rfl⟩

/-- At the end of `overlap` all four loads are over: two of them compiled, one of these to die, one
joined the run that died and one found the set of the other. -/
theorem counters_account_overlap :
    ∃ loads, run? {} overlap = some loads ∧ (∀ phase ∈ loads.phases, phase.isDone = true) ∧
      loads.cache.stats = ⟨2, 1, 1⟩ ∧ overlap.countP LoadStep.isStart = 2 ∧
      {load | ∃ check entry, Checks overlap check load entry}.ncard = 4 ∧
      {load | ∃ owner, owner ≠ load ∧ Receives overlap loads load owner}.ncard = 1 := by
  have hrun : run? {} overlap = some _ := rfl
  obtain ⟨hall, hidle, -⟩ := counters_account hrun
  have hdone : ∀ phase ∈ ((run? {} overlap).getD {}).phases, phase.isDone = true := by decide
  obtain ⟨-, hruns, -, -, hjoined⟩ := hidle hdone
  exact ⟨_, hrun, hdone, rfl, hruns.symm, hall, hjoined.symm⟩

end Loads

end ContentSchema
