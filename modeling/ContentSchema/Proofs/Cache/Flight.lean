import ContentSchema.Proofs.Cache.Schedule
/-!
# Flights

A flight has one owner from the check at which it begins, and its owner goes through three stages:
it compiles, it is settled, it has published. `OwnerStage` says which stage goes with which result,
and `ownerStage_of_begins` that every owner is in one of them at all later times. So a flight
without a result has an owner that will publish one, whatever has become of the cache in the
meantime, and a flight with a result has the result of its owner's run.

Every flight that a load or the cache still refers to began at some time (`begins_of_owns`,
`begins_of_loading`, `begins_of_waiting`), and a load that joined one ends with what it published
(`waiting_or_done_of_join`).
-/

namespace ContentSchema

namespace Loads

variable {α : Type} {schedule : List (LoadStep α)} {loads next : Loads α}

/-! ### Flights have begun -/

/-- An owner began its flight. -/
theorem begins_of_owns {time owner flight : Nat} (hlen : time ≤ schedule.length)
    (hloads : after? schedule time = some loads) (howns : loads.Owns owner flight) :
    ∃ start, start < time ∧ Begins schedule start owner flight := by
  revert owner flight
  refine after?_induction
    (motive := fun time loads ↦ ∀ {owner flight}, loads.Owns owner flight →
      ∃ start, start < time ∧ Begins schedule start owner flight) ?_ ?_ hlen hloads
  · rintro owner flight ((h | h) | ⟨outcome, h⟩) <;> cases h
  · intro time loads step next hloads hstep htransition ih owner flight howns
    rcases htransition.owns_inv howns with hbefore | ⟨rfl, rfl, hentry⟩
    · obtain ⟨start, hlt, hbegins⟩ := ih hbefore
      exact ⟨start, by omega, hbegins⟩
    · exact ⟨time, by omega, hstep, loads, hloads, rfl, hentry⟩

/-- A flight that has not published has one owner at most. -/
theorem owner_unique {time owner other flight : Nat} (hlen : time ≤ schedule.length)
    (hloads : after? schedule time = some loads) (howner : loads.Owns owner flight)
    (hother : loads.Owns other flight) : other = owner := by
  obtain ⟨start, -, hbegins⟩ := begins_of_owns hlen hloads howner
  obtain ⟨start', -, hbegins'⟩ := begins_of_owns hlen hloads hother
  exact (hbegins'.unique hbegins).2

/-- The flight that the cache is on began, has not been invalidated since, and its owner
compiles. -/
theorem begins_of_loading {time flight : Nat} (hlen : time ≤ schedule.length)
    (hloads : after? schedule time = some loads) (hstate : loads.cache.state = .loading flight) :
    ∃ start owner, start < time ∧ Begins schedule start owner flight ∧
      Quiet schedule start time ∧ loads.Compiles owner flight := by
  revert flight
  refine after?_induction
    (motive := fun time loads ↦ ∀ {flight}, loads.cache.state = .loading flight →
      ∃ start owner, start < time ∧ Begins schedule start owner flight ∧
        Quiet schedule start time ∧ loads.Compiles owner flight) ?_ ?_ hlen hloads
  · intro flight h
    cases h
  · intro time loads step next hloads hstep htransition ih flight hstate
    rcases htransition.state_of_loading hstate with ⟨hbefore, hne⟩ | ⟨rfl, hentry⟩
    · obtain ⟨start, owner, hlt, hbegins, hquiet, hcompiles⟩ := ih hbefore
      refine ⟨start, owner, by omega, hbegins, hquiet.succ (by rw [hstep]; simpa using hne), ?_⟩
      rcases htransition.compiles hcompiles with hcompiles | ⟨outcome, rfl, hsettled⟩
      · exact hcompiles
      · -- the owner's own finish takes the cache off its flight
        obtain ⟨current, -, hcache, hsettled'⟩ := htransition.finish_inv
        cases hsettled'.symm.trans hsettled
        exact absurd (hcache ▸ hstate) (Cache.state_settle_ne hbefore)
    · have hbegins : Begins schedule time loads.phases.length flight :=
        ⟨hstep, loads, hloads, rfl, hentry⟩
      have hnext := after?_succ_of_transition hloads hstep htransition
      exact ⟨time, loads.phases.length, by omega, hbegins, hbegins.quiet_succ,
        .inl (hbegins.phase_succ hnext).1⟩

/-- The flight that a load waits for began. -/
theorem begins_of_waiting {time load flight : Nat} (hlen : time ≤ schedule.length)
    (hloads : after? schedule time = some loads)
    (hwaiting : loads.phases[load]? = some (.waiting flight)) :
    ∃ start owner, start < time ∧ Begins schedule start owner flight := by
  revert load flight
  refine after?_induction
    (motive := fun time loads ↦ ∀ {load flight : Nat},
      loads.phases[load]? = some (LoadPhase.waiting flight) →
        ∃ start owner, start < time ∧ Begins schedule start owner flight) ?_ ?_ hlen hloads
  · intro load flight h
    cases h
  · intro time loads step next hloads hstep htransition ih load flight hwaiting
    have hlen : time ≤ schedule.length := Nat.le_of_lt (lt_length_of_step hstep)
    rcases htransition.waiting_inv hwaiting with hbefore | ⟨-, -, hentry⟩
    · obtain ⟨start, owner, hlt, hbegins⟩ := ih hbefore
      exact ⟨start, owner, by omega, hbegins⟩
    · obtain ⟨start, owner, hlt, hbegins, -⟩ :=
        begins_of_loading hlen hloads (Cache.enter_fst_eq_join_iff.1 hentry)
      exact ⟨start, owner, by omega, hbegins⟩

/-! ### The stages of an owner -/

/-- How far the owner of a flight has come, and what the flight has published then. -/
inductive OwnerStage (schedule : List (LoadStep α)) (time : Nat) (loads : Loads α)
    (owner flight : Nat) : Prop where
  | compiling (hcompiles : loads.Compiles owner flight)
    (hunfinished : ∀ finish outcome,
      schedule[finish]? = some (.finish owner outcome) → time ≤ finish)
    (hresult : loads.cache.result? flight = none)
  | settled {finish : Nat} {outcome : RunOutcome α} (hlt : finish < time)
    (hfinish : schedule[finish]? = some (.finish owner outcome))
    (hphase : loads.phases[owner]? = some (.settled flight outcome))
    (hresult : loads.cache.result? flight = none)
  | done {finish : Nat} {outcome : RunOutcome α} (hlt : finish < time)
    (hfinish : schedule[finish]? = some (.finish owner outcome))
    (hphase : loads.phases[owner]? = some (.done outcome))
    (hresult : loads.cache.result? flight = some outcome.published)

/-- A step that is not the owner's publication publishes nothing to the owner's flight. -/
theorem result?_eq_none_of_transition {time owner flight : Nat} {step : LoadStep α}
    (hlen : time ≤ schedule.length) (hloads : after? schedule time = some loads)
    (htransition : Transition loads step next) (howns : loads.Owns owner flight)
    (hne : step ≠ .publish owner) (hresult : loads.cache.result? flight = none) :
    next.cache.result? flight = none := by
  rw [htransition.result?_eq ?_, hresult]
  rintro load outcome rfl hsettled
  obtain rfl := owner_unique hlen hloads howns (.inr ⟨outcome, hsettled⟩)
  exact hne rfl

/-- In each of its stages a flight has an owner that can still publish or has a result, and never
both. -/
theorem OwnerStage.owns_or_result {time owner flight : Nat}
    (h : OwnerStage schedule time loads owner flight) :
    loads.cache.result? flight = none ∧ loads.Owns owner flight ∨
      ∃ result, loads.cache.result? flight = some result := by
  cases h with
  | compiling hcompiles _ hresult => exact .inl ⟨hresult, .inl hcompiles⟩
  | settled _ _ hphase hresult => exact .inl ⟨hresult, .inr ⟨_, hphase⟩⟩
  | done _ _ _ hresult => exact .inr ⟨_, hresult⟩

/-- An owner that is over has published the outcome of its run. -/
theorem OwnerStage.of_done {time owner flight : Nat} {outcome : RunOutcome α}
    (h : OwnerStage schedule time loads owner flight)
    (hdone : loads.phases[owner]? = some (.done outcome)) :
    (∃ finish, finish < time ∧ schedule[finish]? = some (.finish owner outcome)) ∧
      loads.cache.result? flight = some outcome.published := by
  cases h with
  | compiling hcompiles _ _ => rcases hcompiles with h | h <;> cases h.symm.trans hdone
  | settled _ _ hphase _ => cases hphase.symm.trans hdone
  | done hlt hfinish hphase hresult =>
    cases hphase.symm.trans hdone
    exact ⟨⟨_, hlt, hfinish⟩, hresult⟩

/-- A flight with a result has an owner that is over. -/
theorem OwnerStage.of_result {time owner flight : Nat} {result : Except CompileError α}
    (h : OwnerStage schedule time loads owner flight)
    (hresult : loads.cache.result? flight = some result) :
    ∃ outcome, loads.phases[owner]? = some (.done outcome) := by
  cases h with
  | compiling _ _ hnone => cases hnone.symm.trans hresult
  | settled _ _ _ hnone => cases hnone.symm.trans hresult
  | done _ _ hphase _ => exact ⟨_, hphase⟩

/-- The stages follow one another: only the end of its run, and then its publication, take an owner
on. -/
theorem OwnerStage.succ {time owner flight : Nat} {step : LoadStep α}
    (hloads : after? schedule time = some loads) (hstep : schedule[time]? = some step)
    (htransition : Transition loads step next) (h : OwnerStage schedule time loads owner flight) :
    OwnerStage schedule (time + 1) next owner flight := by
  have hlen : time ≤ schedule.length := Nat.le_of_lt (lt_length_of_step hstep)
  cases h with
  | compiling hcompiles hunfinished hresult =>
    -- only a settled load publishes, and this one still compiles
    have hne : step ≠ .publish owner := by
      rintro rfl
      obtain ⟨current, outcome, hphase, -⟩ := htransition.publish_inv
      rcases hcompiles with h | h <;> cases hphase.symm.trans h
    have hresult' :=
      result?_eq_none_of_transition hlen hloads htransition (.inl hcompiles) hne hresult
    rcases htransition.compiles hcompiles with hcompiles' | ⟨outcome, rfl, hsettled⟩
    · refine .compiling hcompiles' (fun finish outcome hfinish ↦ ?_) hresult'
      refine Nat.lt_of_le_of_ne (hunfinished finish outcome hfinish) ?_
      rintro rfl
      cases hstep.symm.trans hfinish
      obtain ⟨current, -, -, hsettled⟩ := htransition.finish_inv
      rcases hcompiles' with h | h <;> cases h.symm.trans hsettled
    · exact .settled (Nat.lt_succ_self time) hstep hsettled hresult'
  | @settled finish outcome hlt hfinish hphase hresult =>
    rcases htransition.settled hphase with hphase' | ⟨rfl, hdone⟩
    · have hne : step ≠ .publish owner := by
        rintro rfl
        obtain ⟨phase, phase', -, hmoved, hadvances⟩ := htransition.advances rfl
        cases hmoved.symm.trans hphase'
        cases hadvances
      exact .settled (Nat.lt_succ_of_lt hlt) hfinish hphase'
        (result?_eq_none_of_transition hlen hloads htransition (.inr ⟨outcome, hphase⟩) hne hresult)
    · obtain ⟨current, result, hphase', hcache⟩ := htransition.publish_inv
      cases hphase'.symm.trans hphase
      refine .done (Nat.lt_succ_of_lt hlt) hfinish hdone ?_
      rw [hcache, Cache.result?_publish_self ?_, hresult]
      · rfl
      · obtain ⟨start, hstart, hbegins⟩ := begins_of_owns hlen hloads (.inr ⟨outcome, hphase⟩)
        exact hbegins.flight_lt_length hstart hlen hloads
  | done hlt hfinish hphase hresult =>
    exact .done (Nat.lt_succ_of_lt hlt) hfinish (htransition.done hphase)
      (htransition.result?_mono hresult)

/-- From its check on, the owner of a flight is in one of its stages. -/
theorem ownerStage_of_begins {start time owner flight : Nat}
    (hbegins : Begins schedule start owner flight) (hlt : start < time)
    (hlen : time ≤ schedule.length) (hloads : after? schedule time = some loads) :
    OwnerStage schedule time loads owner flight := by
  obtain ⟨before, -, -, hentry, hsucc⟩ := hbegins.exists_after?_succ
  obtain ⟨hempty, rfl⟩ := Cache.enter_fst_eq_own_iff.1 hentry
  refine after?_induction_from
    (motive := fun time loads ↦ OwnerStage schedule time loads owner before.cache.flights.length)
    hsucc ?_ ?_ hlt hlen hloads
  · refine .compiling (.inl (hbegins.phase_succ hsucc).1) (fun finish outcome hfinish ↦ ?_) ?_
    · exact hbegins.lt_of_finish hfinish
    · rw [Cache.enter_of_empty hempty, Cache.result?_of_flights_append rfl, Cache.result?,
        List.getElem?_eq_none (Nat.le_refl _)]
      rfl
  · intro time loads step next _ hloads hstep htransition ih
    exact ih.succ hloads hstep htransition

/-! ### What a load ends with -/

/-- What a flight has published never changes. -/
theorem result?_stable {time later flight : Nat} {result : Except CompileError α}
    (hle : time ≤ later) (hlater : later ≤ schedule.length)
    (hloads : after? schedule time = some loads) (hnext : after? schedule later = some next)
    (hresult : loads.cache.result? flight = some result) :
    next.cache.result? flight = some result :=
  after?_induction_from (motive := fun _ now ↦ now.cache.result? flight = some result) hloads
    hresult
    (fun _ _ _ _ _ _ _ h ih ↦ h.result?_mono ih) hle hlater hnext

/-- A load that joined a flight waits for it or has ended with what it published. -/
theorem waiting_or_done_of_join {check time load flight : Nat}
    (hcheck : Checks schedule check load (.join flight)) (hlt : check < time)
    (hlen : time ≤ schedule.length) (hloads : after? schedule time = some loads) :
    loads.phases[load]? = some (.waiting flight) ∨
      ∃ result, loads.cache.result? flight = some result ∧
        loads.phases[load]? = some (.done (.finished result)) := by
  obtain ⟨before, -, -, -, hsucc⟩ := hcheck.exists_after?_succ
  refine after?_induction_from
    (motive := fun _ now ↦ now.phases[load]? = some (.waiting flight) ∨
      ∃ result, now.cache.result? flight = some result ∧
        now.phases[load]? = some (.done (.finished result)))
    hsucc (.inl (hcheck.phase_succ hsucc).1) ?_ hlt hlen hloads
  intro time now step next _ _ _ htransition ih
  rcases ih with hwaiting | ⟨result, hresult, hdone⟩
  · rcases htransition.waiting hwaiting with hwaiting' | ⟨result, hresult, hdone⟩
    · exact .inl hwaiting'
    · exact .inr ⟨result, htransition.result?_mono hresult, hdone⟩
  · exact .inr ⟨result, htransition.result?_mono hresult, htransition.done hdone⟩

/-- A load that found a set ends with it. -/
theorem done_of_hit {check time load : Nat} {set : α}
    (hcheck : Checks schedule check load (.hit set)) (hlt : check < time)
    (hlen : time ≤ schedule.length) (hloads : after? schedule time = some loads) :
    loads.phases[load]? = some (.done (.finished (.ok set))) := by
  obtain ⟨before, -, -, -, hsucc⟩ := hcheck.exists_after?_succ
  exact after?_induction_from
    (motive := fun _ now ↦ now.phases[load]? = some (.done (.finished (.ok set))))
    hsucc (hcheck.phase_succ hsucc).1 (fun _ _ _ _ _ _ _ h ih ↦ h.done ih) hlt hlen hloads

/-! ### Publication -/

/-- At this time the owner of the flight publishes `result`. -/
def Publishes (schedule : List (LoadStep α)) (time flight : Nat)
    (result : Except CompileError α) : Prop :=
  ∃ loads load outcome, after? schedule time = some loads ∧ schedule[time]? = some (.publish load) ∧
    loads.phases[load]? = some (.settled flight outcome) ∧ outcome.published = result

/-- A flight without a result is what an owner publishes to. -/
theorem Publishes.result?_eq_none {time flight : Nat} {result : Except CompileError α}
    (h : Publishes schedule time flight result) (hloads : after? schedule time = some loads) :
    loads.cache.result? flight = none := by
  obtain ⟨before, load, outcome, hbefore, hstep, hsettled, -⟩ := h
  obtain rfl : before = loads := Option.some.inj (hbefore.symm.trans hloads)
  have hlen : time ≤ schedule.length := Nat.le_of_lt (lt_length_of_step hstep)
  obtain ⟨start, hlt, hbegins⟩ := begins_of_owns hlen hloads (.inr ⟨outcome, hsettled⟩)
  cases ownerStage_of_begins hbegins hlt hlen hloads with
  | compiling _ _ hresult => exact hresult
  | settled hlt hfinish hphase hresult => exact hresult
  | done hlt hfinish hphase hresult => cases hphase.symm.trans hsettled

/-- A flight has a result once an owner has published to it. -/
theorem Publishes.result?_succ {time flight : Nat} {result : Except CompileError α}
    (h : Publishes schedule time flight result) (hnext : after? schedule (time + 1) = some next) :
    next.cache.result? flight = some result := by
  obtain ⟨before, load, outcome, hbefore, hstep, hsettled, rfl⟩ := h
  have hlt : time < schedule.length := lt_length_of_step hstep
  obtain ⟨loads, hloads, htransition⟩ := transition_of_step hstep hnext
  obtain rfl := Option.some.inj (hbefore.symm.trans hloads)
  obtain ⟨start, hstart, hbegins⟩ :=
    begins_of_owns (Nat.le_of_lt hlt) hloads (.inr ⟨outcome, hsettled⟩)
  have hflight := hbegins.flight_lt_length hstart (Nat.le_of_lt hlt) hloads
  have hnone : before.cache.result? flight = none :=
    Publishes.result?_eq_none ⟨before, load, outcome, hloads, hstep, hsettled, rfl⟩ hloads
  obtain ⟨current, outcome', hsettled', hcache⟩ := htransition.publish_inv
  cases hsettled'.symm.trans hsettled
  rw [hcache, Cache.result?_publish_self hflight, hnone]
  rfl

/-- Of two publications to a flight the later one would find the result of the earlier one. -/
theorem Publishes.not_lt {time time' flight : Nat} {result result' : Except CompileError α}
    (h : Publishes schedule time flight result) (h' : Publishes schedule time' flight result') :
    ¬ time < time' := by
  intro hlt
  obtain ⟨before, load, outcome, hbefore, hstep, -⟩ := id h'
  have hlen : time' ≤ schedule.length := Nat.le_of_lt (lt_length_of_step hstep)
  obtain ⟨next, hnext⟩ := exists_after?_of_le hlt hlen hbefore
  have hsome := result?_stable hlt hlen hnext hbefore (h.result?_succ hnext)
  cases (h'.result?_eq_none hbefore).symm.trans hsome

/-- A flight is published to at one time only. -/
theorem Publishes.unique {time time' flight : Nat} {result result' : Except CompileError α}
    (h : Publishes schedule time flight result) (h' : Publishes schedule time' flight result') :
    time = time' :=
  Nat.le_antisymm (Nat.le_of_not_lt (h'.not_lt h)) (Nat.le_of_not_lt (h.not_lt h'))

/-! ### No load waits in vain -/

/-- Steps of the two loads alone bring the second one to an end. -/
def EndsBy (loads : Loads α) (owner load : Nat) : Prop :=
  ∃ tail later outcome, (∀ step ∈ tail, step.load? = some owner ∨ step.load? = some load) ∧
    run? loads tail = some later ∧ later.phases[load]? = some (LoadPhase.done outcome)

/-- A step of one of the two loads may be put in front of the steps that bring the second one to an
end. -/
theorem EndsBy.of_transition {owner load : Nat} {step : LoadStep α}
    (htransition : Transition loads step next)
    (hstep : step.load? = some owner ∨ step.load? = some load) (h : next.EndsBy owner load) :
    loads.EndsBy owner load := by
  obtain ⟨tail, later, outcome, hmembers, hrun, hdone⟩ := h
  refine ⟨step :: tail, later, outcome, ?_, ?_, hdone⟩
  · intro other hother
    rcases List.mem_cons.1 hother with rfl | hother
    · exact hstep
    · exact hmembers other hother
  · rw [run?, List.foldlM_cons, step?_eq_some_iff.2 htransition]
    exact hrun

/-- A load goes on waiting while another one, in a phase of its own, takes a step. -/
theorem waiting_of_other {owner load flight : Nat} {step : LoadStep α} {phase : LoadPhase α}
    (htransition : Transition loads step next) (hstep : step.load? = some owner)
    (howner : loads.phases[owner]? = some phase) (hphase : phase ≠ .waiting flight)
    (hwaiting : loads.phases[load]? = some (.waiting flight)) :
    next.phases[load]? = some (.waiting flight) := by
  refine htransition.phase_of_ne (fun hmoved ↦ ?_) hwaiting
  obtain rfl := Option.some.inj (hstep.symm.trans hmoved)
  exact hphase (Option.some.inj (howner.symm.trans hwaiting))

/-- A load that waits for a flight with a result needs one step of its own. -/
theorem endsBy_of_result? {owner load flight : Nat} {result : Except CompileError α}
    (hwaiting : loads.phases[load]? = some (.waiting flight))
    (hresult : loads.cache.result? flight = some result) : loads.EndsBy owner load := by
  have htransition := Transition.receive hwaiting hresult
  exact .of_transition htransition (.inr rfl)
    ⟨[], _, .finished result, by simp, rfl, phase_set_self hwaiting _⟩

/-- Once the owner has settled, its publication gives the waiting load what it waits for. -/
theorem endsBy_of_settled {owner load flight : Nat} {outcome : RunOutcome α}
    (hflight : flight < loads.cache.flights.length)
    (hsettled : loads.phases[owner]? = some (.settled flight outcome))
    (hwaiting : loads.phases[load]? = some (.waiting flight)) : loads.EndsBy owner load := by
  have htransition := Transition.publish hsettled
  have hwaiting' := waiting_of_other htransition rfl hsettled nofun hwaiting
  have hresult : (loads.cache.publish flight outcome.published).result? flight =
      some ((loads.cache.result? flight).getD outcome.published) := by
    rw [Cache.result?_publish_self hflight]
    cases loads.cache.result? flight <;> rfl
  exact .of_transition htransition (.inl rfl)
    (endsBy_of_result? hwaiting' hresult)

theorem endsBy_of_running {owner load flight : Nat} (hflight : flight < loads.cache.flights.length)
    (hrunning : loads.phases[owner]? = some (.running flight))
    (hwaiting : loads.phases[load]? = some (.waiting flight)) : loads.EndsBy owner load := by
  -- whatever the run ends with, its end is what the waiting load needs
  have htransition : Transition loads (.finish owner .died) _ := .finish hrunning
  have hwaiting' := waiting_of_other htransition rfl hrunning nofun hwaiting
  refine .of_transition htransition (.inl rfl)
    (endsBy_of_settled ?_ (phase_set_self hrunning _) hwaiting')
  rwa [Cache.flights_settle]

/-- As long as its flight has an owner, a waiting load needs no one else's steps to come to an
end. -/
theorem endsBy_of_owns {owner load flight : Nat}
    (hflight : flight < loads.cache.flights.length) (howns : loads.Owns owner flight)
    (hwaiting : loads.phases[load]? = some (.waiting flight)) : loads.EndsBy owner load := by
  rcases howns with (hstarting | hrunning) | ⟨outcome, hsettled⟩
  · have htransition := Transition.start hstarting
    have hwaiting' := waiting_of_other htransition rfl hstarting nofun hwaiting
    exact .of_transition htransition (.inl rfl)
      (endsBy_of_running hflight (phase_set_self hstarting _) hwaiting')
  · exact endsBy_of_running hflight hrunning hwaiting
  · exact endsBy_of_settled hflight hsettled hwaiting

/-! ### All who share a flight -/

/-- **One result for all who share a flight.** At the end of every schedule, and so in every state
that loads, invalidations and runs of any outcome can reach:

* a flight that the cache is on has no result, and one owner whose run has not ended;
* a flight that a load waits for has a result or an owner that has not published, and steps of
  these two loads alone bring the waiting one to an end;
* what a flight has published stays, it is published to at one time only, and it is the outcome of
  the owner's run: an owner that is over has that outcome, and a load that joined the flight and is
  over received what `RunOutcome.published` makes of it, so the set itself or the error `aborted`
  if the run died. -/
theorem flight_result_shared (hrun : run? {} schedule = some loads) :
    (∀ flight, loads.cache.state = .loading flight →
      loads.cache.result? flight = none ∧
        ∃ start owner, Begins schedule start owner flight ∧ loads.Compiles owner flight ∧
          ∀ other, loads.Owns other flight → other = owner) ∧
    (∀ (load flight : Nat), loads.phases[load]? = some (.waiting flight) →
      ∃ start owner, Begins schedule start owner flight ∧ loads.EndsBy owner load ∧
        (loads.cache.result? flight = none ∧ loads.Owns owner flight ∨
          ∃ result, loads.cache.result? flight = some result)) ∧
    (∀ time before flight result, time ≤ schedule.length → after? schedule time = some before →
      before.cache.result? flight = some result → loads.cache.result? flight = some result) ∧
    (∀ time time' flight result result', Publishes schedule time flight result →
      Publishes schedule time' flight result' → time = time') ∧
    (∀ (start owner flight : Nat) (outcome : RunOutcome α), Begins schedule start owner flight →
      loads.phases[owner]? = some (.done outcome) →
        (∃ finish : Nat, schedule[finish]? = some (.finish owner outcome)) ∧
        loads.cache.result? flight = some outcome.published ∧
        ∀ check load answer, Checks schedule check load (.join flight) →
          loads.phases[load]? = some (.done answer) → answer = .finished outcome.published) ∧
    (∀ (check load flight : Nat) (answer : RunOutcome α),
      Checks schedule check load (.join flight) → loads.phases[load]? = some (.done answer) →
        ∃ start owner outcome, Begins schedule start owner flight ∧
          loads.phases[owner]? = some (.done outcome)) := by
  have hloads : after? schedule schedule.length = some loads := after?_length.trans hrun
  have hstage : ∀ {start owner flight : Nat}, Begins schedule start owner flight →
      OwnerStage schedule schedule.length loads owner flight :=
    fun hbegins ↦ ownerStage_of_begins hbegins hbegins.lt_length (Nat.le_refl _) hloads
  -- a load that joined and is over received the result of the flight
  have hjoined : ∀ {check load flight : Nat} {answer : RunOutcome α},
      Checks schedule check load (.join flight) → loads.phases[load]? = some (.done answer) →
        ∃ result, loads.cache.result? flight = some result ∧ answer = .finished result := by
    intro check load flight answer hcheck hdone
    rcases waiting_or_done_of_join hcheck hcheck.lt_length (Nat.le_refl _) hloads with
      hwaiting | ⟨result, hresult, hdone'⟩
    · cases hwaiting.symm.trans hdone
    · cases hdone'.symm.trans hdone
      exact ⟨result, hresult, rfl⟩
  refine ⟨?_, ?_, ?_, ?_, ?_, ?_⟩
  · intro flight hstate
    obtain ⟨start, owner, -, hbegins, -, hcompiles⟩ :=
      begins_of_loading (Nat.le_refl _) hloads hstate
    refine ⟨?_, start, owner, hbegins, hcompiles, fun other hother ↦
      owner_unique (Nat.le_refl _) hloads (.inl hcompiles) hother⟩
    rcases (hstage hbegins).owns_or_result with ⟨hnone, -⟩ | ⟨result, hresult⟩
    · exact hnone
    · obtain ⟨outcome, hdone⟩ := (hstage hbegins).of_result hresult
      rcases hcompiles with h | h <;> cases h.symm.trans hdone
  · intro load flight hwaiting
    obtain ⟨start, owner, -, hbegins⟩ := begins_of_waiting (Nat.le_refl _) hloads hwaiting
    refine ⟨start, owner, hbegins, ?_, (hstage hbegins).owns_or_result⟩
    rcases (hstage hbegins).owns_or_result with ⟨-, howns⟩ | ⟨result, hresult⟩
    · exact endsBy_of_owns
        (hbegins.flight_lt_length hbegins.lt_length (Nat.le_refl _) hloads) howns hwaiting
    · exact endsBy_of_result? hwaiting hresult
  · intro time before flight result hlen hbefore hresult
    exact result?_stable hlen (Nat.le_refl _) hbefore hloads hresult
  · intro time time' flight result result' h h'
    exact h.unique h'
  · intro start owner flight outcome hbegins hdone
    obtain ⟨⟨finish, -, hfinish⟩, hresult⟩ := (hstage hbegins).of_done hdone
    refine ⟨⟨finish, hfinish⟩, hresult, fun check load answer hcheck hdone' ↦ ?_⟩
    obtain ⟨result, hresult', rfl⟩ := hjoined hcheck hdone'
    cases hresult.symm.trans hresult'
    rfl
  · intro check load flight answer hcheck hdone
    obtain ⟨result, hresult, -⟩ := hjoined hcheck hdone
    obtain ⟨before, hbefore, -, hentry⟩ := hcheck.found
    obtain ⟨start, owner, -, hbegins, -⟩ :=
      begins_of_loading (Nat.le_of_lt hcheck.lt_length) hbefore
        (Cache.enter_fst_eq_join_iff.1 hentry)
    obtain ⟨outcome, hdone'⟩ := (hstage hbegins).of_result hresult
    exact ⟨start, owner, outcome, hbegins, hdone'⟩

/-- The second load of `overlap` joined the run that dies, and receives the error `aborted`. -/
theorem flight_result_shared_overlap :
    ∃ loads, run? {} overlap = some loads ∧ Begins overlap 0 0 0 ∧ Checks overlap 2 1 (.join 0) ∧
      loads.phases[0]? = some (.done .died) ∧
      loads.phases[1]? = some (.done (.finished (.error .aborted))) ∧
      loads.cache.result? 0 = some (.error .aborted) := by
  have hbegins : Begins overlap 0 0 0 := ⟨rfl, _, rfl, rfl, rfl⟩
  exact ⟨_, rfl, hbegins, ⟨rfl, _, rfl, rfl, rfl⟩, rfl, rfl,
    ((flight_result_shared rfl).2.2.2.2.1 0 0 0 .died hbegins rfl).2.1⟩

end Loads

end ContentSchema
