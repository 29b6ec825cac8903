import ContentSchema.Project.Engine
import ContentSchema.Proofs.Cache.Run
import ContentSchema.Proofs.Watch.Resolution
/-!
# Watched engines

An engine shared by callers and a watcher, together with the files that it is about. A `Session` is
its state and `Session.step?` one atomic step: someone changes files, a load takes a step or the set
is dropped, or the watcher moves on.

The watcher's thread looks at the files over and over. It reads them one after another, so that a look
is one step for each file, between which anything may happen to the files, and one last step, which goes
by what was read. The first look gives the baseline and every later one is a poll. After a poll that
reports a change the thread drops the set, loads, and looks again only when its load has come back.

The loads of a session are a schedule of loads by themselves: `loadSteps` picks their steps out of
those of the session, and `loadTime` is the time among them. So what is known of schedules of loads
holds here, and `exists_run_of_ready` takes it over for the set in the cache.

`Engine.watch` and `Engine.poll` are the cases in which nothing comes between the steps of the watcher
(`exists_run_of_engineWatch`, `exists_run_of_enginePoll`).
-/

namespace ContentSchema

/-- What a watcher's thread is doing. -/
inductive WatchDuty where
  /-- It looks at the files from time to time. -/
  | looking
  /-- It has a change to report and is about to drop the set. -/
  | dropping
  /-- It has dropped the set and is about to load. -/
  | reloading
  /-- It waits for the load of this number. -/
  | awaiting (load : Nat)
deriving DecidableEq

/-- A watched engine and the files of its project. -/
structure Session (α : Type) where
  files : FileTree
  loads : Loads α := {}
  /-- The watcher, once its first look is over. -/
  watcher : Option Watcher := none
  /-- The fingerprints that the present look has read, in the order of the paths. -/
  seen : List Fingerprint := []
  duty : WatchDuty := .looking

/-- An atomic step. -/
inductive SessionStep (α : Type) where
  /-- Files are written or removed, which leaves these. -/
  | edit (files : FileTree)
  /-- A load takes a step, the watcher's own among them, or a caller drops the set. -/
  | call (step : LoadStep α)
  /-- The watcher reads the file that is next in its look. -/
  | read
  /-- The watcher has read all of the files for the first time, and takes what it has seen as its
  baseline. -/
  | baseline
  /-- The watcher has read all of the files once more, and goes by what it has seen, at this time. -/
  | poll (now : Nat)
  /-- The watcher drops the set. -/
  | drop
  /-- The load of the watcher comes in. -/
  | reload
  /-- The load of the watcher is over. -/
  | resume

namespace Session

variable {α : Type}

/-- The beginning: nothing is loaded, and the watcher has not read a file. -/
def start (files : FileTree) : Session α := { files }

/-- The watcher's thread is at the end of a look: it has read a file at each path. -/
def SeesAll (settings : Settings) (session : Session α) : Prop :=
  session.duty = .looking ∧ session.seen.length = settings.candidatePaths.length

instance (settings : Settings) (session : Session α) : Decidable (session.SeesAll settings) :=
  inferInstanceAs (Decidable (_ ∧ _))

/-- One step, if what it names can take it. A watcher whose load has died never looks again. -/
def step? (settings : Settings) (session : Session α) : SessionStep α → Option (Session α)
  | .edit files => some { session with files }
  | .call step => (session.loads.step? step).map fun loads ↦ { session with loads }
  | .read =>
    if session.duty = .looking then
      settings.candidatePaths[session.seen.length]?.map fun path ↦
        { session with seen := session.seen ++ [session.files.fingerprint path] }
    else none
  | .baseline =>
    if session.SeesAll settings ∧ session.watcher = none then
      some { session with watcher := some { baseline := session.seen }, seen := [] }
    else none
  | .poll now =>
    if session.SeesAll settings then
      session.watcher.map fun watcher ↦
        let (changed, watcher) :=
          watcher.poll settings.candidatePaths settings.watch.debounce ⟨now, session.seen⟩
        { session with
          watcher := some watcher, seen := []
          duty := if changed.isEmpty then .looking else .dropping }
    else none
  | .drop =>
    if session.duty = .dropping then
      (session.loads.step? .invalidate).map fun loads ↦ { session with loads, duty := .reloading }
    else none
  | .reload =>
    if session.duty = .reloading then
      (session.loads.step? .enter).map fun loads ↦
        { session with loads, duty := .awaiting session.loads.phases.length }
    else none
  | .resume =>
    match session.duty with
    | .awaiting load =>
      match session.loads.phases[load]? with
      | some (.done (.finished _)) => some { session with duty := .looking }
      | _ => none
    | _ => none

/-- The end of a schedule, if every step of it can be taken. -/
def run? (settings : Settings) (session : Session α) (schedule : List (SessionStep α)) :
    Option (Session α) :=
  schedule.foldlM (step? settings) session

theorem run?_cons (settings : Settings) (session : Session α) (step : SessionStep α)
    (schedule : List (SessionStep α)) : run? settings session (step :: schedule) =
      (session.step? settings step).bind (run? settings · schedule) := by
  cases h : session.step? settings step <;> simp [run?, h]

/-- A schedule may be run in two stretches. -/
theorem run?_append (settings : Settings) (session : Session α)
    (first rest : List (SessionStep α)) : run? settings session (first ++ rest) =
      (run? settings session first).bind (run? settings · rest) := by
  rw [run?, run?, List.foldlM_append]
  rfl

/-- The session after the first `time` steps of a schedule that starts with these files. -/
def after? (settings : Settings) (files : FileTree) (schedule : List (SessionStep α)) (time : Nat) :
    Option (Session α) :=
  run? settings (start files) (schedule.take time)

variable {settings : Settings} {files : FileTree} {schedule : List (SessionStep α)}
  {session next : Session α} {step : SessionStep α}

/-- What each step does to a session that can take it. -/
inductive Transition (settings : Settings) (session : Session α) :
    SessionStep α → Session α → Prop where
  | edit (files : FileTree) : Transition settings session (.edit files) { session with files }
  | call {step : LoadStep α} {loads : Loads α} (hloads : session.loads.step? step = some loads) :
    Transition settings session (.call step) { session with loads }
  | read {path : String} (hduty : session.duty = .looking)
    (hpath : settings.candidatePaths[session.seen.length]? = some path) :
    Transition settings session .read
      { session with seen := session.seen ++ [session.files.fingerprint path] }
  | baseline (hsees : session.SeesAll settings) (hwatcher : session.watcher = none) :
    Transition settings session .baseline
      { session with watcher := some { baseline := session.seen }, seen := [] }
  | poll {now : Nat} {changed : List String} {watcher polled : Watcher}
    (hsees : session.SeesAll settings) (hwatcher : session.watcher = some watcher)
    (hpoll : watcher.poll settings.candidatePaths settings.watch.debounce ⟨now, session.seen⟩ =
      (changed, polled)) :
    Transition settings session (.poll now)
      { session with
        watcher := some polled, seen := []
        duty := if changed.isEmpty then .looking else .dropping }
  | drop {loads : Loads α} (hduty : session.duty = .dropping)
    (hloads : session.loads.step? .invalidate = some loads) :
    Transition settings session .drop { session with loads, duty := .reloading }
  | reload {loads : Loads α} (hduty : session.duty = .reloading)
    (hloads : session.loads.step? .enter = some loads) :
    Transition settings session .reload
      { session with loads, duty := .awaiting session.loads.phases.length }
  | resume {load : Nat} {result : Except CompileError α} (hduty : session.duty = .awaiting load)
    (hphase : session.loads.phases[load]? = some (.done (.finished result))) :
    Transition settings session .resume { session with duty := .looking }

/-- The steps of a session do what `Transition` says and nothing else. -/
theorem transition_of_step? (h : session.step? settings step = some next) :
    Transition settings session step next := by
  cases step with
  | edit files =>
    obtain rfl := Option.some.inj h
    exact .edit files
  | call taken =>
    obtain ⟨loads, hloads, rfl⟩ := Option.map_eq_some_iff.1 h
    exact .call hloads
  | read =>
    obtain ⟨hduty, h⟩ := Option.ite_none_right_eq_some.1 h
    obtain ⟨path, hpath, rfl⟩ := Option.map_eq_some_iff.1 h
    exact .read hduty hpath
  | baseline =>
    obtain ⟨⟨hsees, hwatcher⟩, h⟩ := Option.ite_none_right_eq_some.1 h
    obtain rfl := Option.some.inj h
    exact .baseline hsees hwatcher
  | poll now =>
    obtain ⟨hsees, h⟩ := Option.ite_none_right_eq_some.1 h
    obtain ⟨watcher, hwatcher, rfl⟩ := Option.map_eq_some_iff.1 h
    exact .poll hsees hwatcher rfl
  | drop =>
    obtain ⟨hduty, h⟩ := Option.ite_none_right_eq_some.1 h
    obtain ⟨loads, hloads, rfl⟩ := Option.map_eq_some_iff.1 h
    exact .drop hduty hloads
  | reload =>
    obtain ⟨hduty, h⟩ := Option.ite_none_right_eq_some.1 h
    obtain ⟨loads, hloads, rfl⟩ := Option.map_eq_some_iff.1 h
    exact .reload hduty hloads
  | resume =>
    rw [step?] at h
    split at h
    next load hduty =>
      split at h
      next result hphase =>
        obtain rfl := Option.some.inj h
        exact .resume hduty hphase
      next => cases h
    next => cases h

/-! ### Sessions by time -/

@[simp] theorem after?_zero :
    after? settings files schedule 0 = some (start files) := rfl

theorem after?_length :
    after? settings files schedule schedule.length =
      run? settings (start files) schedule := by
  rw [after?, List.take_length]

/-- After the first steps of a schedule it goes on from where they have led. -/
theorem after?_append {first rest : List (SessionStep α)}
    (hfirst : run? settings (start files) first = some session) (time : Nat) :
    after? settings files (first ++ rest) (first.length + time) =
      run? settings session (rest.take time) := by
  rw [after?, List.take_length_add_append, run?_append, hfirst]
  rfl

/-- After the last step nothing happens any more. -/
theorem after?_min (time : Nat) :
    after? settings files schedule (min time schedule.length) =
      after? settings files schedule time := by
  rw [after?, after?, ← List.take_eq_take_min]

/-- The session after one step more. -/
theorem after?_succ {time : Nat} (hstep : schedule[time]? = some step) :
    after? settings files schedule (time + 1) =
      (after? settings files schedule time).bind (step? settings · step) := by
  rw [after?, after?, List.take_add_one, hstep, run?_append]
  refine congrArg _ (funext fun session ↦ ?_)
  show run? settings session [step] = session.step? settings step
  rw [run?_cons]
  exact Option.bind_fun_some _

/-- Every time but the last has a step. -/
theorem exists_transition {time : Nat} (hlt : time < schedule.length)
    (hnext : after? settings files schedule (time + 1) = some next) :
    ∃ session step, after? settings files schedule time = some session ∧
      schedule[time]? = some step ∧ Transition settings session step next := by
  have hstep : schedule[time]? = some schedule[time] := List.getElem?_eq_getElem hlt
  rw [after?_succ hstep] at hnext
  obtain ⟨session, hsession, hnext⟩ := Option.bind_eq_some_iff.1 hnext
  exact ⟨session, schedule[time], hsession, hstep, transition_of_step? hnext⟩

/-- A schedule that can be run up to a time can be run up to any earlier one. -/
theorem exists_after?_of_le {time later : Nat} (hle : time ≤ later) (hlater : later ≤ schedule.length)
    (h : after? settings files schedule later = some next) :
    ∃ session, after? settings files schedule time = some session := by
  induction later, hle using Nat.le_induction generalizing next with
  | base => exact ⟨next, h⟩
  | succ later hle ih =>
    obtain ⟨session, -, hsession, -, -⟩ := exists_transition (by omega) h
    exact ih (by omega) hsession

/-- The induction over a schedule from a time on. -/
theorem after?_induction_from {motive : Nat → Session α → Prop} (first : Nat)
    (init : ∀ session, after? settings files schedule first = some session → motive first session)
    (step : ∀ time session step next, first ≤ time →
      after? settings files schedule time = some session →
        after? settings files schedule (time + 1) = some next → schedule[time]? = some step →
          Transition settings session step next → motive time session → motive (time + 1) next) :
    ∀ {time session}, first ≤ time → time ≤ schedule.length →
      after? settings files schedule time = some session → motive time session := by
  intro time session hle
  induction time, hle using Nat.le_induction generalizing session with
  | base => exact fun _ h ↦ init session h
  | succ time hle ih =>
    intro hlen h
    obtain ⟨before, taken, hbefore, htaken, hnext⟩ := exists_transition (by omega) h
    exact step time before taken session hle hbefore h htaken hnext (ih (by omega) hbefore)

/-! ### Files -/

/-- Files stay as they are but for edits. -/
theorem Transition.files_eq (h : Transition settings session step next)
    (hedit : ∀ edited, step ≠ .edit edited) : next.files = session.files := by
  cases h with
  | edit edited => exact absurd rfl (hedit edited)
  | _ => rfl

/-- The files are those of the beginning or of an edit. -/
theorem files_eq_or_edit_mem {time : Nat} (h : after? settings files schedule time = some session) :
    session.files = files ∨ .edit session.files ∈ schedule := by
  rw [← after?_min] at h
  refine after?_induction_from
    (motive := fun _ session ↦ session.files = files ∨ .edit session.files ∈ schedule)
    0 ?_ ?_ (Nat.zero_le _) (Nat.min_le_right time _) h
  · intro session hsession
    obtain rfl := Option.some.inj hsession
    exact .inl rfl
  · intro time session step next _ _ _ hstep htransition ih
    cases htransition with
    | edit edited => exact .inr (List.mem_of_getElem? hstep)
    | _ => exact ih

/-- Without edits from a time on the files are those of the end. -/
theorem files_eq_of_edit_notMem_drop {first time : Nat} {now : Session α}
    (hedit : ∀ edited, .edit edited ∉ schedule.drop first)
    (hrun : run? settings (start files) schedule = some session)
    (hle : first ≤ time) (hnow : after? settings files schedule time = some now) :
    now.files = session.files := by
  rw [← after?_length] at hrun
  rcases Nat.le_total schedule.length time with hover | hlen
  · rw [← after?_min, Nat.min_eq_right hover, hrun] at hnow
    rw [Option.some.inj hnow]
  · refine (after?_induction_from (motive := fun _ later ↦ later.files = now.files) time ?_ ?_ hlen
      (Nat.le_refl _) hrun).symm
    · intro later hlater
      rw [Option.some.inj (hlater.symm.trans hnow)]
    · intro later before step next hge _ _ hstep htransition ih
      have hdrop : (schedule.drop first)[later - first]? = some step := by
        rw [List.getElem?_drop, Nat.add_sub_cancel' (by omega), hstep]
      rw [htransition.files_eq fun edited heq ↦
        hedit edited (heq ▸ List.mem_of_getElem? hdrop), ih]

/-! ### The loads of a session -/

end Session

/-- What a step is for the loads, if it is anything. -/
def SessionStep.loadStep? {α : Type} : SessionStep α → Option (LoadStep α)
  | .call step => some step
  | .drop => some .invalidate
  | .reload => some .enter
  | .edit _ | .read | .baseline | .poll _ | .resume => none

namespace Session

variable {α : Type} {settings : Settings} {files : FileTree} {schedule : List (SessionStep α)}
  {session next : Session α} {step : SessionStep α}

/-- The steps of the loads, in order. -/
def loadSteps (schedule : List (SessionStep α)) : List (LoadStep α) :=
  schedule.filterMap SessionStep.loadStep?

/-- How many steps the loads have taken before a time. -/
def loadTime (schedule : List (SessionStep α)) (time : Nat) : Nat :=
  (loadSteps (schedule.take time)).length

theorem loadTime_mono {time later : Nat} (hle : time ≤ later) :
    loadTime schedule time ≤ loadTime schedule later := by
  have hsublist : (schedule.take time).Sublist (schedule.take later) :=
    List.take_sublist_take_left hle
  exact (hsublist.filterMap _).length_le

/-- A step of the loads is found among their steps at its time among them. -/
theorem getElem?_loadSteps {time : Nat} {taken : LoadStep α}
    (h : schedule[time]?.bind SessionStep.loadStep? = some taken) :
    (loadSteps schedule)[loadTime schedule time]? = some taken := by
  obtain ⟨step, hstep, htaken⟩ := Option.bind_eq_some_iff.1 h
  obtain ⟨hlt, rfl⟩ := List.getElem?_eq_some_iff.1 hstep
  have hsteps : loadSteps schedule =
      loadSteps (schedule.take time) ++ taken :: loadSteps (schedule.drop (time + 1)) := by
    conv_lhs => rw [← List.take_append_drop time schedule, ← List.getElem_cons_drop hlt]
    rw [loadSteps, List.filterMap_append, List.filterMap_cons_some htaken]
    rfl
  rw [hsteps, loadTime, List.getElem?_append_right (Nat.le_refl _), Nat.sub_self]
  rfl

/-- The cache sees the loads of a session in the order in which they were made. -/
theorem take_loadTime (time : Nat) :
    (loadSteps schedule).take (loadTime schedule time) = loadSteps (schedule.take time) := by
  have hsteps : loadSteps schedule =
      loadSteps (schedule.take time) ++ loadSteps (schedule.drop time) := by
    rw [loadSteps, loadSteps, loadSteps, ← List.filterMap_append, List.take_append_drop]
  rw [hsteps, loadTime, List.take_left]

/-- Every step of the loads is a step of the session. -/
theorem exists_time_of_loadSteps {loadStep : LoadStep α} {place : Nat}
    (h : (loadSteps schedule)[place]? = some loadStep) :
    ∃ time : Nat, schedule[time]?.bind SessionStep.loadStep? = some loadStep ∧
      loadTime schedule time = place := by
  induction schedule generalizing place with
  | nil => simp [loadSteps] at h
  | cons step schedule ih =>
    cases hstep : step.loadStep? with
    | none =>
      rw [loadSteps, List.filterMap_cons_none hstep] at h
      obtain ⟨time, htime, hplace⟩ := ih h
      refine ⟨time + 1, htime, ?_⟩
      rw [← hplace, loadTime, loadTime, List.take_succ_cons, loadSteps,
        List.filterMap_cons_none hstep]
      rfl
    | some taken =>
      rw [loadSteps, List.filterMap_cons_some hstep] at h
      cases place with
      | zero =>
        obtain rfl := Option.some.inj h
        exact ⟨0, hstep, rfl⟩
      | succ place =>
        obtain ⟨time, htime, hplace⟩ := ih h
        refine ⟨time + 1, htime, ?_⟩
        rw [← hplace, loadTime, loadTime, List.take_succ_cons, loadSteps,
          List.filterMap_cons_some hstep]
        rfl

/-- A step is for the loads what it says that it is. -/
theorem Transition.loads (h : Transition settings session step next) :
    step.loadStep? = none ∧ next.loads = session.loads ∨
      ∃ taken, step.loadStep? = some taken ∧ session.loads.step? taken = some next.loads := by
  cases h with
  | edit | read | baseline | poll | resume => exact .inl ⟨rfl, rfl⟩
  | call hloads => exact .inr ⟨_, rfl, hloads⟩
  | drop _ hloads => exact .inr ⟨_, rfl, hloads⟩
  | reload _ hloads => exact .inr ⟨_, rfl, hloads⟩

/-- The loads of a session are what their steps alone lead to. -/
theorem loads_after? {time : Nat} (hlen : time ≤ schedule.length)
    (h : after? settings files schedule time = some session) :
    Loads.after? (loadSteps schedule) (loadTime schedule time) = some session.loads := by
  rw [Loads.after?, take_loadTime]
  refine after?_induction_from
    (motive := fun time session ↦
      Loads.run? {} (loadSteps (schedule.take time)) = some session.loads)
    0 ?_ ?_ (Nat.zero_le time) hlen h
  · intro session hsession
    obtain rfl := Option.some.inj hsession
    rfl
  · intro time session step next _ _ _ hstep htransition ih
    -- one more step of the session is one more step of the loads, or none
    rw [List.take_add_one, hstep, loadSteps, List.filterMap_append, Loads.run?, List.foldlM_append]
    change ((Loads.run? {} (loadSteps (schedule.take time))).bind _) = _
    rw [ih]
    rcases htransition.loads with ⟨hnone, hloads⟩ | ⟨taken, htaken, hloads⟩
    · simp [hnone, hloads]
    · simp [htaken, hloads]

/-! ### Runs -/

/-- At `begin` the load `owner` comes in and finds nothing, and at `finish` its run ends. -/
structure Run (settings : Settings) (files : FileTree) (schedule : List (SessionStep α))
    (begin finish owner : Nat) (outcome : RunOutcome α) : Prop where
  lt : begin < finish
  comesIn : schedule[begin]?.bind SessionStep.loadStep? = some .enter
  /-- The cache is empty then, so that the load has to compile. -/
  owns : ∃ session flight, after? settings files schedule begin = some session ∧
    session.loads.phases.length = owner ∧ session.loads.cache.enter.1 = .own flight
  ends : schedule[finish]? = some (.call (.finish owner outcome))

theorem eq_call_of_loadStep? {load : Nat} {outcome : RunOutcome α}
    (h : step.loadStep? = some (.finish load outcome)) : step = .call (.finish load outcome) := by
  cases step with
  | call taken => exact congrArg _ (Option.some.inj h)
  | _ => cases h

/-- The set in the cache comes from a run after which nobody has dropped it. -/
theorem exists_run_of_ready {set : α}
    (hrun : run? settings (start files) schedule = some session)
    (hstate : session.loads.cache.state = .ready set) :
    ∃ begin finish owner, Run settings files schedule begin finish owner (.finished (.ok set)) ∧
      ∀ time, begin ≤ time → schedule[time]?.bind SessionStep.loadStep? ≠ some .invalidate := by
  have hsession : after? settings files schedule schedule.length = some session :=
    after?_length.trans hrun
  have hloads : Loads.after? (loadSteps schedule) (loadSteps schedule).length = some session.loads := by
    have hall := loads_after? (Nat.le_refl _) hsession
    rwa [loadTime, List.take_length] at hall
  obtain ⟨start, stop, owner, flight, hbegins, hstores, hlt, -, hquiet⟩ :=
    Loads.stores_of_ready (Nat.le_refl _) hloads hstate
  -- the loads know of the run by the times among their own steps
  obtain ⟨begin, hbegin, rfl⟩ := exists_time_of_loadSteps hbegins.step
  obtain ⟨finish, hfinish, rfl⟩ := exists_time_of_loadSteps hstores.step
  obtain ⟨last, hlast, hcall⟩ := Option.bind_eq_some_iff.1 hfinish
  obtain rfl := eq_call_of_loadStep? hcall
  have hbeginLength : begin < schedule.length := by
    obtain ⟨first, hfirst, -⟩ := Option.bind_eq_some_iff.1 hbegin
    exact (List.getElem?_eq_some_iff.1 hfirst).1
  refine ⟨begin, finish, owner, ⟨?_, hbegin, ?_, hlast⟩, ?_⟩
  · by_contra hge
    have hmono : loadTime schedule finish ≤ loadTime schedule begin :=
      loadTime_mono (Nat.le_of_not_lt hge)
    omega
  · obtain ⟨now, hnow⟩ :=
      exists_after?_of_le (Nat.le_of_lt hbeginLength) (Nat.le_refl _) hsession
    obtain ⟨found, hfound, hlength, hentry⟩ := hbegins.found
    obtain rfl : found = now.loads := Option.some.inj
      (hfound.symm.trans (loads_after? (Nat.le_of_lt hbeginLength) hnow))
    exact ⟨now, flight, hnow, hlength, hentry⟩
  · intro time hle hinvalidate
    have hplace := getElem?_loadSteps hinvalidate
    exact hquiet _ (loadTime_mono hle) (List.getElem?_eq_some_iff.1 hplace).1 hplace

/-! ### A watcher that nobody comes between -/

/-- A look that nobody comes between sees the files as they are. -/
theorem run?_reads (hduty : session.duty = .looking) (hseen : session.seen = []) :
    run? settings session (List.replicate settings.candidatePaths.length .read) =
      some { session with seen := session.files.snapshot settings.candidatePaths } := by
  rw [FileTree.snapshot_eq_map]
  -- the induction is on the paths that are still to be read
  suffices h : ∀ (todo : List String) (session : Session α), session.duty = .looking →
      settings.candidatePaths.drop session.seen.length = todo →
        run? settings session (List.replicate todo.length .read) =
          some { session with seen := session.seen ++ todo.map session.files.fingerprint } by
    simpa [hseen] using h settings.candidatePaths session hduty (by rw [hseen]; rfl)
  intro todo
  induction todo with
  | nil =>
    intro session _ _
    simp [run?]
  | cons path todo ih =>
    intro session hduty hdrop
    have hpath : settings.candidatePaths[session.seen.length]? = some path := by
      rw [← List.head?_drop, hdrop]
      rfl
    have hstep : session.step? settings .read =
        some { session with seen := session.seen ++ [session.files.fingerprint path] } := by
      rw [step?, if_pos hduty, hpath]
      rfl
    have hrest : settings.candidatePaths.drop (session.seen.length + 1) = todo := by
      rw [← List.tail_drop, hdrop]
      rfl
    rw [List.length_cons, List.replicate_succ, run?_cons, hstep, Option.bind_some,
      ih { session with seen := session.seen ++ [session.files.fingerprint path] } hduty
        (by simpa using hrest)]
    simp

/-- To start watching an engine is the first look of the watcher, without a step of another in
between. -/
theorem exists_run_of_engineWatch (hduty : session.duty = .looking) (hseen : session.seen = [])
    (hwatcher : session.watcher = none) :
    ∃ next, run? settings session
        (List.replicate settings.candidatePaths.length .read ++ [.baseline]) = some next ∧
      next.duty = .looking ∧ next.seen = [] ∧ next.files = session.files ∧
      ({ cache := session.loads.cache } : Engine α).watch
          (session.files.snapshot settings.candidatePaths) =
        (true, { cache := next.loads.cache, watcher := next.watcher }) := by
  have hlength := FileTree.length_snapshot session.files settings.candidatePaths
  refine ⟨{ session with
    watcher := some { baseline := session.files.snapshot settings.candidatePaths }, seen := [] },
    ?_, hduty, rfl, rfl, rfl⟩
  rw [run?_append, run?_reads hduty hseen, Option.bind_some, run?_cons]
  simp [run?, step?, SeesAll, hduty, hwatcher, hlength]

/-- The steps after a look with which the watcher drops the set and compiles it anew. -/
def reloadSteps (load : Nat) (result : Except CompileError α) : List (SessionStep α) :=
  [.drop, .reload, .call (.start load), .call (.finish load (.finished result)),
    .call (.publish load), .resume]

/-- A poll of an engine is a look of the watcher and, if it reports a change, all that follows,
without a step of another in between. -/
theorem exists_run_of_enginePoll {watcher : Watcher} (hduty : session.duty = .looking)
    (hseen : session.seen = []) (hwatcher : session.watcher = some watcher) (now : Nat)
    (result : Except CompileError α) :
    ∃ rest next, (rest = [] ∨ rest = reloadSteps session.loads.phases.length result) ∧
      run? settings session (List.replicate settings.candidatePaths.length .read ++
        .poll now :: rest) = some next ∧
      next.duty = .looking ∧ next.seen = [] ∧ next.files = session.files ∧
      (Engine.poll (m := Id) settings.candidatePaths settings.watch.debounce result
        { cache := session.loads.cache, watcher := some watcher }
        ⟨now, session.files.snapshot settings.candidatePaths⟩).2 =
          { cache := next.loads.cache, watcher := next.watcher } := by
  have hlength := FileTree.length_snapshot session.files settings.candidatePaths
  obtain ⟨changed, polled, hpoll⟩ : ∃ changed polled, watcher.poll settings.candidatePaths
      settings.watch.debounce ⟨now, session.files.snapshot settings.candidatePaths⟩ =
        (changed, polled) := ⟨_, _, rfl⟩
  cases changed with
  | nil =>
    refine ⟨[], { session with watcher := some polled, seen := [] }, .inl rfl, ?_, hduty, rfl, rfl,
      ?_⟩
    · rw [run?_append, run?_reads hduty hseen, Option.bind_some, run?_cons]
      simp [run?, step?, SeesAll, hduty, hwatcher, hlength, hpoll]
    · simp only [Engine.poll, hpoll]
      rfl
  | cons path paths =>
    -- the set has just been dropped, so the load of the watcher owns a flight
    let entered : Cache α := session.loads.cache.invalidate.enter.2
    let flight : Nat := session.loads.cache.flights.length
    let cache : Cache α := (entered.start.settle flight result).publish flight result
    let loads : Loads α := ⟨cache, session.loads.phases ++ [.done (.finished result)]⟩
    refine ⟨_, { session with loads, watcher := some polled, seen := [], duty := .looking }, .inr rfl,
      ?_, rfl, rfl, rfl, ?_⟩
    · rw [run?_append, run?_reads hduty hseen, Option.bind_some, run?_cons]
      simp [run?, reloadSteps, step?, SeesAll, hduty, hwatcher, hlength, hpoll, Loads.step?,
        Loads.move, Loads.firstPhase, loads, cache, entered, flight, Cache.enter, Cache.invalidate,
        RunOutcome.published]
    · simp only [Engine.poll, hpoll]
      rfl

end Session

end ContentSchema
