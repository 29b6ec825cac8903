import ContentSchema.Proofs.Files.Tree
import ContentSchema.Proofs.Watch.Baseline
/-!
# When a watched engine has settled

A watched engine has settled when its files have kept their contents over polls that span the
debounce time and its watcher is not busy with a change. `ready_of_settled` says what the cache then
holds: the set compiled from the present contents, unless a change was undone before the watcher
reported it. A watcher compares what it sees with what it last reported, so of such a change it knows
nothing, while a load in between compiles whatever it finds.

The proof compares two times. The baseline of a settled session is the snapshot of its files, so the
look that it comes from read each file with its present contents; and the run whose set is in the cache
began after that look, for the watcher drops the set after each report. A look reads the files one after
another. So what was there before the run was there file by file, and the files need not have had all of
their present contents at any one time (`exists_settled_stale`).
-/

namespace ContentSchema

namespace Session

variable {α : Type} {settings : Settings} {files : FileTree} {schedule : List (SessionStep α)}
  {session next : Session α} {step : SessionStep α}

/-- A run that reads the same contents from its beginning to its end comes to the outcome that
`compile` gives for them. -/
def CompilesBy (settings : Settings) (files : FileTree) (schedule : List (SessionStep α))
    (compile : List (Option ByteArray) → RunOutcome α) : Prop :=
  ∀ begin finish owner outcome contents, Run settings files schedule begin finish owner outcome →
    (∀ time now, begin < time → time ≤ finish → after? settings files schedule time = some now →
      now.files.contents settings.candidatePaths = contents) → outcome = compile contents

/-- No two contents that a file ever has share their fingerprint. -/
def DistinctFingerprints (settings : Settings) (files : FileTree)
    (schedule : List (SessionStep α)) : Prop :=
  ∀ (time later : Nat) (now now' : Session α), after? settings files schedule time = some now →
    after? settings files schedule later = some now' → ∀ path ∈ settings.candidatePaths,
      now.files.fingerprint path = now'.files.fingerprint path →
        (now.files.readBytes path).toOption = (now'.files.readBytes path).toOption

/-- The session has come to rest: its files have kept their contents over polls that span the debounce
time, and its watcher is not busy with a change. -/
structure Settled (settings : Settings) (files : FileTree)
    (compile : List (Option ByteArray) → RunOutcome α) (schedule : List (SessionStep α))
    (session : Session α) : Prop where
  /-- The schedule leads from the beginning to the session. -/
  run : run? settings (start files) schedule = some session
  /-- The watcher has its baseline before the first load comes in. -/
  baseline : ∀ time : Nat, schedule[time]?.bind SessionStep.loadStep? = some .enter →
    ∃ first < time, schedule[first]? = some .baseline
  clock : Clock schedule
  compilesBy : CompilesBy settings files schedule compile
  distinct : DistinctFingerprints settings files schedule
  /-- The files have kept their contents over polls that span the debounce time. -/
  stays : ∃ opening first last, Stays settings files schedule session opening first last
  /-- The watcher has no change to report and no load to wait for. -/
  idle : session.duty = .looking

/-- Before the run from `begin` to `finish` one look found each file with its present contents, at some
time of the run the files had other ones, and no look since that one has reported a change. -/
structure Undone (settings : Settings) (files : FileTree) (schedule : List (SessionStep α))
    (session : Session α) (begin finish : Nat) : Prop where
  /-- The present contents were there before, each when its file was read by one look: the first one, or
  one that has reported a change. Nothing has been reported since. -/
  before : ∃ opening closing, closing < begin ∧
    (schedule[closing]? = some .baseline ∨ Reports settings files schedule closing) ∧
    OneLook schedule opening closing ∧
    (∀ path ∈ settings.candidatePaths, ∃ time now, opening ≤ time ∧ time < closing ∧
      ReadsAt settings files schedule time path now ∧
      (now.files.readBytes path).toOption = (session.files.readBytes path).toOption) ∧
    ∀ later, closing < later → ¬Reports settings files schedule later
  /-- The run may have read other contents. -/
  during : ∃ time now, begin < time ∧ time ≤ finish ∧
    after? settings files schedule time = some now ∧
    now.files.contents settings.candidatePaths ≠ session.files.contents settings.candidatePaths

/-- A look that has seen the snapshot of some files has found each of them with these contents. -/
theorem Saw.exists_reads {opening closing : Nat}
    (h : Saw settings files schedule opening closing
      (session.files.snapshot settings.candidatePaths))
    (hsession : after? settings files schedule schedule.length = some session)
    (hdistinct : DistinctFingerprints settings files schedule) {path : String}
    (hpath : path ∈ settings.candidatePaths) :
    ∃ time now, opening ≤ time ∧ time < closing ∧ ReadsAt settings files schedule time path now ∧
      (now.files.readBytes path).toOption = (session.files.readBytes path).toOption := by
  obtain ⟨index, hindex⟩ := List.mem_iff_getElem?.1 hpath
  have hseen : (session.files.snapshot settings.candidatePaths)[index]? =
      some (session.files.fingerprint path) := by
    rw [FileTree.snapshot_eq_map, List.getElem?_map, hindex]
    rfl
  obtain ⟨time, other, now, hle, hlt, hother, hreads, hsame⟩ := h.reads index _ hseen
  obtain rfl := Option.some.inj (hindex.symm.trans hother)
  exact ⟨time, now, hle, hlt, hreads,
    hdistinct time schedule.length now session hreads.session hsession path hpath hsame⟩

/-- The look that the baseline comes from was over before a run whose set nobody has dropped. -/
theorem Settled.closing_lt {compile : List (Option ByteArray) → RunOutcome α} {opening closing : Nat}
    {baseline : List Fingerprint} {begin : Nat}
    (h : Settled settings files compile schedule session)
    (hsince : Since settings files schedule baseline schedule.length opening closing)
    (hbegin : schedule[begin]?.bind SessionStep.loadStep? = some .enter)
    (hkept : ∀ time, begin ≤ time →
      schedule[time]?.bind SessionStep.loadStep? ≠ some .invalidate) : closing < begin := by
  have hsession : after? settings files schedule schedule.length = some session :=
    after?_length.trans h.run
  by_contra hle
  rcases hsince.ends with hbaseline | hreports
  · -- the first look was over before any load came in
    obtain ⟨first, hfirst, hstep⟩ := h.baseline begin hbegin
    obtain ⟨next, hnext⟩ := exists_after?_of_le hsince.lt (Nat.le_refl _) hsession
    exact baseline_unique (by omega) hstep hbaseline hnext
  · -- the run began before a report, and the watcher has dropped its set
    have hduty : session.duty ≠ .dropping := by
      rw [h.idle]
      nofun
    obtain ⟨drop, hdrop, hstep⟩ :=
      exists_drop_of_reports (Nat.le_refl _) hsession hduty hreports hsince.lt
    refine hkept drop (by omega) ?_
    rw [hstep]
    rfl

/-- **A watched engine that has settled serves the present schemas, but for a change that was undone
unreported.** A set in its cache was stored by a run after which nobody has dropped it. Either the
present contents compile to this set, or during the run the files had other contents than those which
one look of the watcher found before it, file by file, and which they have now, and nothing of that was
ever reported. -/
theorem ready_of_settled {compile : List (Option ByteArray) → RunOutcome α} {set : α}
    (h : Settled settings files compile schedule session)
    (hstate : session.loads.cache.state = .ready set) :
    ∃ begin finish owner, Run settings files schedule begin finish owner (.finished (.ok set)) ∧
      (∀ time, begin ≤ time → schedule[time]?.bind SessionStep.loadStep? ≠ some .invalidate) ∧
      (compile (session.files.contents settings.candidatePaths) = .finished (.ok set) ∨
        Undone settings files schedule session begin finish) := by
  have hsession : after? settings files schedule schedule.length = some session :=
    after?_length.trans h.run
  obtain ⟨begin, finish, owner, hrun, hkept⟩ := exists_run_of_ready h.run hstate
  refine ⟨begin, finish, owner, hrun, hkept, ?_⟩
  by_cases hsame : ∀ time now, begin < time → time ≤ finish →
      after? settings files schedule time = some now →
        now.files.contents settings.candidatePaths = session.files.contents settings.candidatePaths
  · exact .inl (h.compilesBy begin finish owner _ _ hrun hsame).symm
  · refine .inr ⟨?_, by push Not at hsame; exact hsame⟩
    obtain ⟨opening, first, last, hstays⟩ := h.stays
    -- the look that the baseline comes from saw the present contents
    obtain ⟨watcher, hwatcher, hexpects⟩ := hstays.expects h.clock hsession
    obtain ⟨opening, closing, hsince⟩ := exists_since (Nat.le_refl _) hsession hwatcher
    have hsaw := hexpects.baseline ▸ hsince.saw
    exact ⟨opening, closing, h.closing_lt hsince hrun.comesIn hkept, hsince.ends, hsaw.oneLook,
      fun path hpath ↦ hsaw.exists_reads hsession h.distinct hpath,
      fun later hgt hreports ↦ hsince.none later hgt hreports.lt_length hreports⟩

/-! ### An edit that is reported, and one that is undone -/

end Session

/-- All that can be read in a tree is empty. -/
def FileTree.EmptyFiles (tree : FileTree) : Prop :=
  ∀ entry ∈ tree.nodes, ∀ content readable, entry.2 = .file content readable → content = .empty

/-- What can be read in such a tree is the empty content. -/
theorem FileTree.EmptyFiles.eq_empty {tree : FileTree} (h : tree.EmptyFiles) {path : String}
    {content : ByteArray} (hread : tree.readBytes path = .ok content) : content = .empty := by
  unfold readBytes at hread
  cases hfind : tree.find path with
  | error error =>
    rw [hfind] at hread
    cases hread
  | ok found =>
    obtain ⟨place, node⟩ := found
    obtain ⟨-, hnode⟩ := find_eq_ok_iff.1 hfind
    rw [hfind] at hread
    cases node with
    | directory | link => cases hread
    | file other readable =>
      cases readable with
      | false => cases hread
      | true =>
        obtain rfl : other = content := Except.ok.inj hread
        unfold nodeAt? at hnode
        split at hnode
        · cases hnode
        · exact h _ (Keyed.mem_of_find? hnode) other true rfl

/-- Where nothing but empty files can be read, equal fingerprints stand for equal contents. -/
theorem FileTree.EmptyFiles.toOption_eq {tree other : FileTree} (h : tree.EmptyFiles)
    (h' : other.EmptyFiles) {path : String}
    (hsame : tree.fingerprint path = other.fingerprint path) :
    (tree.readBytes path).toOption = (other.readBytes path).toOption := by
  have hcontents : Fingerprint.ofContent (tree.readBytes path) =
      Fingerprint.ofContent (other.readBytes path) := hsame
  cases hread : tree.readBytes path with
  | error error =>
    cases hread' : other.readBytes path with
    | error error' => rfl
    | ok content =>
      rw [hread, hread'] at hcontents
      cases hcontents
  | ok content =>
    cases hread' : other.readBytes path with
    | error error =>
      rw [hread, hread'] at hcontents
      cases hcontents
    | ok content' => rw [h.eq_empty hread, h'.eq_empty hread']

namespace Session

variable {α : Type} {settings : Settings} {files : FileTree} {schedule : List (SessionStep α)}

/-- It is enough that each run comes to what the files compile to when it ends. -/
theorem compilesBy_of_ends {compile : List (Option ByteArray) → RunOutcome α}
    (h : ∀ (finish owner : Nat) (outcome : RunOutcome α),
      schedule[finish]? = some (.call (.finish owner outcome)) →
        ∃ now, after? settings files schedule finish = some now ∧
          compile (now.files.contents settings.candidatePaths) = outcome) :
    CompilesBy settings files schedule compile := by
  intro begin finish owner outcome contents hrun hread
  obtain ⟨now, hnow, hcompile⟩ := h finish owner outcome hrun.ends
  rw [← hread finish now hrun.lt (Nat.le_refl _) hnow, hcompile]

/-- Where only trees of empty files occur, fingerprints tell contents apart. -/
theorem distinctFingerprints_of_emptyFiles (hfiles : files.EmptyFiles)
    (hedit : ∀ edited, .edit edited ∈ schedule → edited.EmptyFiles) :
    DistinctFingerprints settings files schedule := by
  have hempty : ∀ time session, after? settings files schedule time = some session →
      session.files.EmptyFiles := by
    intro time session hsession
    rcases files_eq_or_edit_mem hsession with heq | hmem
    · exact heq ▸ hfiles
    · exact hedit _ hmem
  exact fun time later now now' hnow hnow' path _ hsame ↦
    (hempty time now hnow).toOption_eq (hempty later now' hnow') hsame

open FileTree

/-- The first candidate compiles to 1, and without it the second to 0. -/
def compileFirst : List (Option ByteArray) → RunOutcome Nat
  | some _ :: _ => .finished (.ok 1)
  | _ => .finished (.ok 0)

theorem compileFirst_directory :
    compileFirst ((beside .directory).contents twoCandidates.candidatePaths) =
      .finished (.ok 0) := by
  rw [candidatePaths_twoCandidates, contents_directory]
  rfl

theorem compileFirst_file :
    compileFirst ((beside (.file .empty true)).contents twoCandidates.candidatePaths) =
      .finished (.ok 1) := by
  rw [candidatePaths_twoCandidates, contents_file]
  rfl

/-- A look at both candidates that nobody comes between. -/
theorem run?_read_read {session : Session Nat} (hduty : session.duty = .looking)
    (hseen : session.seen = []) (rest : List (SessionStep Nat)) :
    run? twoCandidates session (.read :: .read :: rest) =
      run? twoCandidates { session with seen := session.files.snapshot ["/a", "/b"] } rest := by
  have hreads : run? twoCandidates session [.read, .read] =
      some { session with seen := session.files.snapshot twoCandidates.candidatePaths } :=
    run?_reads hduty hseen
  have happend := run?_append twoCandidates session [.read, .read] rest
  rwa [hreads, candidatePaths_twoCandidates] at happend

/-- The first candidate comes after a load, and the watcher reports it. -/
def reportedEdit : List (SessionStep Nat) :=
  [.read, .read, .baseline, .call .enter, .call (.start 0), .call (.finish 0 (.finished (.ok 0))),
    .call (.publish 0), .edit (beside (.file .empty true)), .read, .read, .poll 0, .read, .read,
    .poll 300] ++ reloadSteps 1 (.ok 1)

/-- `reportedEdit` when the watcher has its baseline. -/
def beforeEdit : Session Nat where
  files := beside .directory
  watcher := some { baseline := [.missing, emptyFingerprint] }

/-- `reportedEdit` after its edit: the watcher has not looked yet. -/
def beforeReport : Session Nat where
  files := beside (.file .empty true)
  loads :=
    { cache := { state := .ready 0, flights := [some (.ok 0)], stats := { runs := 1 } }
      phases := [.done (.finished (.ok 0))] }
  watcher := some { baseline := [.missing, emptyFingerprint] }

/-- The end of `reportedEdit`: the engine has compiled twice. -/
def afterReportedEdit : Session Nat where
  files := beside (.file .empty true)
  loads :=
    { cache := { state := .ready 1, flights := [some (.ok 0), some (.ok 1)], stats := { runs := 2 } }
      phases := [.done (.finished (.ok 0)), .done (.finished (.ok 1))] }
  watcher := some { baseline := [emptyFingerprint, emptyFingerprint] }

theorem run?_firstLook : run? twoCandidates (start (beside .directory)) [.read, .read, .baseline] =
    some beforeEdit := by
  rw [run?_read_read rfl rfl, run?_cons]
  simp [run?, step?, SeesAll, start, snapshot_directory, candidatePaths_twoCandidates, beforeEdit]

theorem run?_beforeReport : run? twoCandidates (start (beside .directory)) (reportedEdit.take 8) =
    some beforeReport :=
  after?_append run?_firstLook 5

theorem run?_reportedEdit :
    run? twoCandidates (start (beside .directory)) reportedEdit = some afterReportedEdit := by
  have hturns : run? twoCandidates beforeReport [.read, .read, .poll 0] = some { beforeReport with
      watcher := some ⟨[.missing, emptyFingerprint], some ([emptyFingerprint, emptyFingerprint], 0)⟩ }
      := by
    rw [run?_read_read rfl rfl, run?_cons]
    simp [run?, step?, SeesAll, beforeReport, candidatePaths_twoCandidates, snapshot_file,
      emptyFingerprint, Watcher.poll]
  have hreports : run? twoCandidates { beforeReport with
      watcher := some ⟨[.missing, emptyFingerprint], some ([emptyFingerprint, emptyFingerprint], 0)⟩ }
      [.read, .read, .poll 300] = some { beforeReport with
        watcher := some { baseline := [emptyFingerprint, emptyFingerprint] }, duty := .dropping } := by
    have hdebounce : twoCandidates.watch.debounce = 300 := by decide
    rw [run?_read_read rfl rfl, run?_cons]
    simp [run?, step?, SeesAll, beforeReport, candidatePaths_twoCandidates, snapshot_file,
      emptyFingerprint, Watcher.poll, changedPaths, hdebounce]
  rw [← List.take_append_drop 8 reportedEdit, run?_append, run?_beforeReport]
  show run? twoCandidates beforeReport ([.read, .read, .poll 0] ++
    ([.read, .read, .poll 300] ++ reloadSteps 1 (.ok 1))) = _
  rw [run?_append, hturns, Option.bind_some, run?_append, hreports]
  -- the watcher has its load to itself
  rfl

theorem emptyFiles_directory : (beside .directory).EmptyFiles := by
  simp [EmptyFiles, beside]

theorem emptyFiles_file : (beside (.file .empty true)).EmptyFiles := by
  simp [EmptyFiles, beside]

theorem compilesBy_reportedEdit :
    CompilesBy twoCandidates (beside .directory) reportedEdit compileFirst := by
  refine compilesBy_of_ends fun finish owner outcome hends ↦ ?_
  obtain ⟨hlen, hends⟩ := List.getElem?_eq_some_iff.1 hends
  have hfinish : finish < 20 := hlen
  interval_cases finish <;> cases hends
  · have hnow : after? twoCandidates (beside .directory) reportedEdit 5 = _ :=
      after?_append run?_firstLook 2
    exact ⟨_, hnow.trans rfl, compileFirst_directory⟩
  · obtain ⟨now, hnow⟩ := exists_after?_of_le (Nat.le_of_lt hlen) (Nat.le_refl _)
      (after?_length.trans run?_reportedEdit)
    have hlater : ∀ edited, .edit edited ∉ reportedEdit.drop 8 := by
      simp [reportedEdit, reloadSteps]
    have hfiles : now.files = beside (.file .empty true) :=
      files_eq_of_edit_notMem_drop hlater run?_reportedEdit (by decide) hnow
    exact ⟨now, hnow, hfiles ▸ compileFirst_file⟩

theorem settled_reportedEdit :
    Settled twoCandidates (beside .directory) compileFirst reportedEdit afterReportedEdit where
  run := run?_reportedEdit
  baseline := by
    intro time henter
    refine ⟨2, ?_, rfl⟩
    by_contra hge
    have hlt : time < 3 := by omega
    interval_cases time <;> cases henter
  clock := clock_of_pairwise (by simp [reportedEdit, reloadSteps])
  compilesBy := compilesBy_reportedEdit
  distinct := distinctFingerprints_of_emptyFiles emptyFiles_directory
    (by simp [reportedEdit, reloadSteps, emptyFiles_file])
  stays := by
    refine ⟨8, 10, 13, by decide, by decide, ⟨0, 300, rfl, rfl, by decide⟩, fun now hnow ↦ ?_,
      fun time now hle hnow ↦ ?_⟩
    · obtain rfl := Option.some.inj (hnow.symm.trans run?_beforeReport)
      rfl
    · rw [files_eq_of_edit_notMem_drop (by simp [reportedEdit, reloadSteps]) run?_reportedEdit hle hnow]
  idle := rfl

/-- After an edit that is reported the cache holds the set of the new files. -/
theorem ready_of_settled_reportedEdit :
    Settled twoCandidates (beside .directory) compileFirst reportedEdit afterReportedEdit ∧
      afterReportedEdit.loads.cache.state = .ready 1 ∧
      ∃ begin finish owner, Run twoCandidates (beside .directory) reportedEdit begin finish owner
        (.finished (.ok 1)) ∧
        (∀ time, begin ≤ time →
          reportedEdit[time]?.bind SessionStep.loadStep? ≠ some .invalidate) ∧
        (compileFirst (afterReportedEdit.files.contents twoCandidates.candidatePaths) =
            .finished (.ok 1) ∨
          Undone twoCandidates (beside .directory) reportedEdit afterReportedEdit begin finish) :=
  ⟨settled_reportedEdit, rfl, ready_of_settled settled_reportedEdit rfl⟩

/-- The watcher expects the first candidate to be away, and it is there. -/
def beforeStaleLoad : Session Nat where
  files := beside (.file .empty true)
  watcher := some { baseline := [.missing, emptyFingerprint] }

/-- A load compiles the first candidate, which then goes; two polls find nothing new. -/
def staleLoad : List (SessionStep Nat) :=
  [.call .enter, .call (.start 0), .call (.finish 0 (.finished (.ok 1))), .call (.publish 0),
    .edit (beside .directory), .read, .read, .poll 0, .read, .read, .poll 300]

/-- The end of `staleLoad`: the engine has compiled once. -/
def afterStaleLoad : Session Nat where
  files := beside .directory
  loads :=
    { cache := { state := .ready 1, flights := [some (.ok 1)], stats := { runs := 1 } }
      phases := [.done (.finished (.ok 1))] }
  watcher := some { baseline := [.missing, emptyFingerprint] }

/-- The first candidate comes after the first look. -/
def lateEdit : List (SessionStep Nat) :=
  [.read, .read, .baseline, .edit (beside (.file .empty true))]

/-- Both candidates come during the first look, when the first one has been read. -/
def tornLook : List (SessionStep Nat) :=
  [.read, .edit (beside (.file .empty true)), .read, .baseline]

/-- A file tree in which neither candidate is a file. -/
def onlyDirectories : FileTree where
  nodes := [("/a", .directory), ("/b", .directory)]

theorem run?_lateEdit :
    run? twoCandidates (start (beside .directory)) lateEdit = some beforeStaleLoad := by
  have hsteps : lateEdit = [.read, .read, .baseline] ++ [.edit (beside (.file .empty true))] := rfl
  rw [hsteps, run?_append, run?_firstLook]
  rfl

theorem readBytes_onlyDirectories : onlyDirectories.readBytes "/a" = .error .isDirectory ∧
    onlyDirectories.readBytes "/b" = .error .isDirectory := by
  have hfirst : onlyDirectories.find "/a" = .ok (["a"], .directory) := by cbv
  have hsecond : onlyDirectories.find "/b" = .ok (["b"], .directory) := by cbv
  rw [readBytes, readBytes, hfirst, hsecond]
  exact ⟨rfl, rfl⟩

theorem run?_tornLook :
    run? twoCandidates (start onlyDirectories) tornLook = some beforeStaleLoad := by
  have hfirst : onlyDirectories.fingerprint "/a" = .missing := by
    show Fingerprint.ofContent (onlyDirectories.readBytes "/a") = .missing
    rw [readBytes_onlyDirectories.1]
    rfl
  have hsecond : (beside (.file .empty true)).fingerprint "/b" = emptyFingerprint := by
    show Fingerprint.ofContent ((beside (.file .empty true)).readBytes "/b") = emptyFingerprint
    rw [readBytes, find_second]
    rfl
  simp [tornLook, run?, step?, SeesAll, start, candidatePaths_twoCandidates, hfirst, hsecond,
    beforeStaleLoad]

theorem run?_staleLoad : run? twoCandidates beforeStaleLoad staleLoad = some afterStaleLoad := by
  have hquiet : ∀ now rest, run? twoCandidates afterStaleLoad (.read :: .read :: .poll now :: rest) =
      run? twoCandidates afterStaleLoad rest := by
    intro now rest
    rw [run?_read_read rfl rfl, run?_cons]
    simp [step?, SeesAll, afterStaleLoad, candidatePaths_twoCandidates, snapshot_directory,
      Watcher.poll]
  have hload : run? twoCandidates beforeStaleLoad (staleLoad.take 5) = some afterStaleLoad := rfl
  rw [← List.take_append_drop 5 staleLoad, run?_append, hload]
  show run? twoCandidates afterStaleLoad [.read, .read, .poll 0, .read, .read, .poll 300] = _
  rw [hquiet, hquiet]
  rfl

/-- However the watcher has come to expect that the first candidate is away, after `staleLoad` the
engine has settled. -/
theorem settled_staleLoad {files : FileTree} {first : List (SessionStep Nat)}
    (hfirst : run? twoCandidates (start files) first = some beforeStaleLoad)
    (hbaseline : .baseline ∈ first) (hloads : ∀ step ∈ first, step.loadStep? = none)
    (hclock : Clock (first ++ staleLoad)) (hfiles : files.EmptyFiles)
    (hedit : ∀ edited, .edit edited ∈ first → edited.EmptyFiles) :
    Settled twoCandidates files compileFirst (first ++ staleLoad) afterStaleLoad where
  run := by
    rw [run?_append, hfirst]
    exact run?_staleLoad
  baseline := by
    intro time henter
    obtain ⟨index, hindex⟩ := List.mem_iff_getElem?.1 hbaseline
    have hlt : index < first.length := (List.getElem?_eq_some_iff.1 hindex).1
    refine ⟨index, ?_, by rw [List.getElem?_append_left hlt, hindex]⟩
    by_contra hge
    -- what comes before the load is no step of the loads
    rw [List.getElem?_append_left (by omega)] at henter
    obtain ⟨step, hstep, henter⟩ := Option.bind_eq_some_iff.1 henter
    cases (hloads step (List.mem_of_getElem? hstep)).symm.trans henter
  clock := hclock
  compilesBy := by
    refine compilesBy_of_ends fun finish owner outcome hends ↦ ?_
    rcases Nat.lt_or_ge finish first.length with hlt | hge
    · rw [List.getElem?_append_left hlt] at hends
      cases hloads _ (List.mem_of_getElem? hends)
    · obtain ⟨more, rfl⟩ := Nat.exists_eq_add_of_le hge
      rw [List.getElem?_append_right hge, Nat.add_sub_cancel_left] at hends
      obtain ⟨hlen, hends⟩ := List.getElem?_eq_some_iff.1 hends
      have hmore : more < 11 := hlen
      interval_cases more <;> cases hends
      exact ⟨_, (after?_append hfirst 2).trans rfl, compileFirst_file⟩
  distinct := by
    refine distinctFingerprints_of_emptyFiles hfiles fun edited hmem ↦ ?_
    rcases List.mem_append.1 hmem with hmem | hmem
    · exact hedit edited hmem
    · obtain rfl : edited = beside .directory := by simpa [staleLoad] using hmem
      exact emptyFiles_directory
  stays := by
    have hopening : after? twoCandidates files (first ++ staleLoad) (first.length + 5) =
        some afterStaleLoad := (after?_append hfirst 5).trans rfl
    have hstep : ∀ more : Nat, (first ++ staleLoad)[first.length + more]? = staleLoad[more]? := by
      intro more
      rw [List.getElem?_append_right (by omega), Nat.add_sub_cancel_left]
    refine ⟨first.length + 5, first.length + 7, first.length + 10, by omega, by omega,
      ⟨0, 300, hstep 7, hstep 10, by decide⟩, fun now hnow ↦ ?_, fun time now hle hnow ↦ ?_⟩
    · obtain rfl := Option.some.inj (hnow.symm.trans hopening)
      rfl
    · have hrun : run? twoCandidates (start files) (first ++ staleLoad) = some afterStaleLoad := by
        rw [run?_append, hfirst]
        exact run?_staleLoad
      have hlater : ∀ edited, .edit edited ∉ (first ++ staleLoad).drop (first.length + 5) := by
        intro edited
        rw [List.drop_length_add_append]
        simp [staleLoad]
      rw [files_eq_of_edit_notMem_drop hlater hrun hle hnow]
  idle := rfl

/-- Engines that have settled, with no load under way, and hold the set of files that are gone. In the
first the present contents were there at the first look. In the second they were there file by file, each
when that look read it, but never all at one time before the load. -/
theorem exists_settled_stale :
    (∃ (schedule : List (SessionStep Nat)) (session : Session Nat),
      Settled twoCandidates (beside .directory) compileFirst schedule session ∧
      (∀ phase ∈ session.loads.phases, ∃ outcome, phase = .done outcome) ∧
      session.loads.cache.state = .ready 1 ∧
      compileFirst (session.files.contents twoCandidates.candidatePaths) = .finished (.ok 0)) ∧
    ∃ (schedule : List (SessionStep Nat)) (session : Session Nat) (begin finish owner : Nat),
      Settled twoCandidates onlyDirectories compileFirst schedule session ∧
      (∀ phase ∈ session.loads.phases, ∃ outcome, phase = .done outcome) ∧
      session.loads.cache.state = .ready 1 ∧
      compileFirst (session.files.contents twoCandidates.candidatePaths) = .finished (.ok 0) ∧
      Run twoCandidates onlyDirectories schedule begin finish owner (.finished (.ok 1)) ∧
      ∀ time now, time ≤ begin → after? twoCandidates onlyDirectories schedule time = some now →
        now.files.contents twoCandidates.candidatePaths ≠
          session.files.contents twoCandidates.candidatePaths := by
  refine ⟨⟨lateEdit ++ staleLoad, afterStaleLoad, ?_, by simp [afterStaleLoad], rfl,
    compileFirst_directory⟩, tornLook ++ staleLoad, afterStaleLoad, 4, 6, 0, ?_,
    by simp [afterStaleLoad], rfl, compileFirst_directory, ?_, ?_⟩
  · exact settled_staleLoad run?_lateEdit (by simp [lateEdit]) (by simp [lateEdit, SessionStep.loadStep?])
      (clock_of_pairwise (by simp [lateEdit, staleLoad])) emptyFiles_directory
      (by simp [lateEdit, emptyFiles_file])
  · exact settled_staleLoad run?_tornLook (by simp [tornLook]) (by simp [tornLook, SessionStep.loadStep?])
      (clock_of_pairwise (by simp [tornLook, staleLoad])) (by simp [EmptyFiles, onlyDirectories])
      (by simp [tornLook, emptyFiles_file])
  · exact ⟨by decide, rfl, ⟨beforeStaleLoad, 0, (after?_append run?_tornLook 0).trans rfl, rfl, rfl⟩, rfl⟩
  · intro time now hle hnow
    have htorn : after? twoCandidates onlyDirectories tornLook time = some now := by
      rwa [after?, List.take_append_of_le_length hle] at hnow
    show now.files.contents _ ≠ (beside .directory).contents _
    rw [candidatePaths_twoCandidates, contents_directory]
    rcases files_eq_or_edit_mem htorn with hfiles | hmem
    · rw [hfiles, contents, List.map_cons, List.map_cons, readBytes_onlyDirectories.1,
        readBytes_onlyDirectories.2]
      simp [Except.toOption]
    · obtain hfiles : now.files = beside (.file .empty true) := by simpa [tornLook] using hmem
      rw [hfiles, contents_file]
      simp

end Session

end ContentSchema
