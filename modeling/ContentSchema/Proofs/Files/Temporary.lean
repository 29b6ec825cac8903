import ContentSchema.Files.Temporary
import ContentSchema.Proofs.Files.Machine
/-!
# Laws of temporary files

What a library of temporary files does cannot be read here, so what is relied on is stated as its laws
(`LawfulTemporaryFiles`), each of which such a library documents: a file that it makes is a new and
empty one in the directory, what is written to it goes into this file and all of it does if there is no
error, and a file that is closed or given up is removed like any other. A step that fails changes
nothing, except that a write may leave a part of the content. Nothing is said of the names, of the
errors, or of how often a step tries, and nothing of whether a file can be removed.

The laws are those of a library that a machine can have: one that tries some names in turn and writes a
file in one go, and whose every step may meet with a fault (`Machine.library`).

The laws of this library are proved from what comes of its steps (`createUnder_runs`,
`writeFile_runs`). Beside them stand its steps without faults (`runs_createUnder`, `runs_writeFile`,
`runs_flushFile`), which show that there are runs in which all goes well.
-/

namespace ContentSchema

namespace Machine

/-- From one machine to another nothing is imported, no file is kept that was to be removed, and every
tree that is left behind on the way has a property. -/
structure Passes (p : FileTree → Prop) (machine later : Machine) : Prop where
  past : ∃ trees, later.past = trees ++ machine.past ∧ ∀ tree ∈ trees, p tree
  imports : later.imports = machine.imports
  kept : later.kept = machine.kept

end Machine

open Machine

/-- What is relied on of a library of temporary files. -/
class LawfulTemporaryFiles [TemporaryFiles (StateM Machine)] : Prop where
  /-- A file that is made is new and empty; it stands in the directory, and its name starts and ends as
  it was asked to. -/
  create_ok {directory lead trail path : String} {machine later : Machine}
    (hname : ∀ core : NameCore, FilePath.IsName (lead ++ core ++ trail))
    (h : Runs (TemporaryFiles.create directory lead trail) machine (.ok path) later) :
    machine.Passes (· = machine.tree) later ∧ machine.tree.createFile path .empty = .ok later.tree ∧
      ∃ (above : List String) (core : NameCore), machine.tree.DirectoryAt directory above ∧
        machine.tree.locate path false = .ok (above ++ [lead ++ core ++ trail])
  /-- If no file is made, nothing is left behind. -/
  create_error {directory lead trail message : String} {machine later : Machine}
    (h : Runs (TemporaryFiles.create directory lead trail) machine (.error message) later) :
    machine.Passes (· = machine.tree) later ∧ later.tree = machine.tree
  /-- Writing to a file that was just made changes what is in this file, and without an error all of
  the content is in it. -/
  write {path : String} {content : ByteArray} {before : FileTree} {machine later : Machine}
    {outcome : Except String Unit} (hmade : before.createFile path .empty = .ok machine.tree)
    (h : Runs (TemporaryFiles.write path content) machine outcome later) :
    machine.Passes (fun tree ↦ ∃ part, before.createFile path part = .ok tree) later ∧
      ∃ part, before.createFile path part = .ok later.tree ∧ (outcome = .ok () → part = content)
  /-- What is in a file stays when it is flushed. -/
  flush {path : String} {machine later : Machine} {outcome : Except String Unit}
    (h : Runs (TemporaryFiles.flush path) machine outcome later) :
    machine.Passes (· = machine.tree) later ∧ later.tree = machine.tree
  /-- To close a file is to remove it. -/
  close {path : String} {machine later : Machine} {outcome : Except String Unit}
    (h : Runs (TemporaryFiles.close path) machine outcome later) :
    ∃ removed, Runs (FileSystem.removeFile path) machine removed later
  /-- To give a file up is to remove it, too. -/
  giveUp {path : String} {machine later : Machine}
    (h : Runs (TemporaryFiles.giveUp path) machine () later) :
    ∃ removed, Runs (FileSystem.removeFile path) machine removed later

/-! ### The library of a machine -/

namespace Machine

/-- Makes an empty file under the first of some names that is free. -/
def createUnder (directory lead trail : String) :
    List NameCore → StateM Machine (Except String String)
  | [] => return .error ((FileError.other "too many temporary files exist").messageAt directory)
  | core :: cores => do
    let path := FilePath.join directory (lead ++ core ++ trail)
    match ← createFile path .empty with
    | .done => return .ok path
    | .refused .alreadyExists => createUnder directory lead trail cores
    | .refused error | .cut error => return .error (error.messageAt path)

/-- Writes to a file; a fault leaves it with a part of the content. -/
def writeFile (path : String) (content : ByteArray) : StateM Machine (Except String Unit) := do
  match ← nextFault with
  | some fault =>
    let _ ← change (·.writeFile path (content.extract 0 fault.written))
    return .error (fault.error.messageAt path)
  | none =>
    match ← change (·.writeFile path content) with
    | .error error => return .error (error.messageAt path)
    | .ok () => return .ok ()

/-- Sees to it that what was written is in the file, unless a fault says that it is not sure. -/
def flushFile (path : String) : StateM Machine (Except String Unit) := do
  match ← nextFault with
  | some fault => return .error (fault.error.messageAt path)
  | none => return .ok ()

instance library : TemporaryFiles (StateM Machine) where
  create directory lead trail := fun machine ↦
    createUnder directory lead trail machine.names machine
  write := writeFile
  flush := flushFile
  close := TemporaryFiles.remove
  giveUp path := do let _ ← FileSystem.removeFile path

/-! ### Its laws -/

variable {machine later : Machine}

theorem passes_refl (p : FileTree → Prop) (machine : Machine) : machine.Passes p machine where
  past := ⟨[], rfl, nofun⟩
  imports := rfl
  kept := rfl

/-- Two stretches of a run make one. -/
theorem Passes.trans {p : FileTree → Prop} {between : Machine} (h : machine.Passes p between)
    (h' : between.Passes p later) : machine.Passes p later := by
  obtain ⟨trees, hpast, htrees⟩ := h.past
  obtain ⟨trees', hpast', htrees'⟩ := h'.past
  refine ⟨⟨trees' ++ trees, ?_, List.forall_mem_append.2 ⟨htrees', htrees⟩⟩,
    h'.imports.trans h.imports, h'.kept.trans h.kept⟩
  rw [hpast', hpast, List.append_assoc]

/-- A change that is not recorded leaves the same faults for later and nothing else. -/
theorem passes_faults (p : FileTree → Prop) (machine : Machine) (faults : List (Option Fault)) :
    machine.Passes p { machine with faults } where
  past := ⟨[], rfl, nofun⟩
  imports := rfl
  kept := rfl

/-- A change leaves the tree before it behind. -/
theorem passes_tree (p : FileTree → Prop) (hmachine : p machine.tree) (tree : FileTree)
    (faults : List (Option Fault)) :
    machine.Passes p { machine with tree, faults, past := machine.tree :: machine.past } where
  past := ⟨[machine.tree], rfl, fun _ h ↦ List.mem_singleton.1 h ▸ hmachine⟩
  imports := rfl
  kept := rfl

/-- What comes of making a file under the first free one of some names. -/
theorem createUnder_runs {directory lead trail : String} {cores : List NameCore}
    {outcome : Except String String}
    (h : Runs (createUnder directory lead trail cores) machine outcome later) :
    machine.Passes (· = machine.tree) later ∧
      (∀ message, outcome = .error message → later.tree = machine.tree) ∧
      ∀ path, outcome = .ok path → machine.tree.createFile path .empty = .ok later.tree ∧
        ∃ core : NameCore, path = FilePath.join directory (lead ++ core ++ trail) := by
  induction cores generalizing machine with
  | nil =>
    obtain ⟨rfl, rfl⟩ := runs_pure_iff.1 h
    exact ⟨passes_refl _ _, fun _ _ ↦ rfl, nofun⟩
  | cons core cores ih =>
    obtain ⟨creation, between, hcreate, hrest⟩ := runs_bind_iff.1 h
    obtain ⟨faults, ⟨tree, htree, rfl, rfl⟩ | ⟨error, rfl, rfl⟩⟩ := cases_of_runs_createFile hcreate
    · obtain ⟨rfl, rfl⟩ := runs_pure_iff.1 hrest
      refine ⟨passes_tree (· = machine.tree) rfl tree faults, nofun, fun path hpath ↦ ?_⟩
      obtain rfl := Except.ok.inj hpath
      exact ⟨htree, core, rfl⟩
    · -- a name that is taken is passed over, every other error is the end
      have hpasses := passes_faults (· = machine.tree) machine faults
      by_cases htaken : error = .alreadyExists
      · subst htaken
        obtain ⟨hlater, hout⟩ := ih hrest
        exact ⟨hpasses.trans hlater, hout⟩
      · have hend : Runs (pure (.error (error.messageAt (FilePath.join directory
            (lead ++ core ++ trail))))) { machine with faults } outcome later := by
          cases error with
          | alreadyExists => exact absurd rfl htaken
          | _ => exact hrest
        obtain ⟨rfl, rfl⟩ := runs_pure_iff.1 hend
        exact ⟨hpasses, fun _ _ ↦ rfl, nofun⟩

/-- Without faults the names that are taken are passed over, and the file is made under the next. -/
theorem runs_createUnder {directory lead trail : String} {taken : List NameCore}
    {core : NameCore} {tree : FileTree} (rest : List NameCore) (hfaults : machine.faults = [])
    (htaken : ∀ other ∈ taken, machine.tree.createFile
      (FilePath.join directory (lead ++ other ++ trail)) .empty = .error .alreadyExists)
    (hfree : machine.tree.createFile (FilePath.join directory (lead ++ core ++ trail)) .empty =
      .ok tree) :
    Runs (createUnder directory lead trail (taken ++ core :: rest)) machine
      (.ok (FilePath.join directory (lead ++ core ++ trail)))
      { machine with tree, past := machine.tree :: machine.past } := by
  induction taken with
  | nil => exact runs_bind_iff.2 ⟨.done, _, runs_createFile hfaults hfree, rfl⟩
  | cons other taken ih =>
    obtain ⟨hother, htaken⟩ := List.forall_mem_cons.1 htaken
    exact runs_bind_iff.2 ⟨_, machine, runs_createFile_error hfaults hother, ih htaken⟩

/-- What comes of writing to a file that was just made. -/
theorem writeFile_runs {path : String} {old content : ByteArray} {before : FileTree}
    {outcome : Except String Unit} (hmade : before.createFile path old = .ok machine.tree)
    (h : Runs (writeFile path content) machine outcome later) :
    machine.Passes (fun tree ↦ ∃ part, before.createFile path part = .ok tree) later ∧
      ∃ part, before.createFile path part = .ok later.tree ∧ (outcome = .ok () → part = content) := by
  obtain ⟨fault, between, hfault, hrun⟩ := runs_bind_iff.1 h
  obtain rfl := eq_of_runs_nextFault hfault
  cases fault with
  | some fault =>
    obtain ⟨made, after, hchange, hrest⟩ := runs_bind_iff.1 hrun
    obtain ⟨rfl, rfl⟩ := runs_pure_iff.1 hrest
    -- a fault stops the writing midway, so the file holds the first bytes only
    obtain ⟨written, hwrite, hsame⟩ :=
      FileTree.exists_writeFile_of_createFile hmade (content.extract 0 fault.written)
    rcases runs_change_iff.1 hchange with ⟨tree, htree, -, rfl⟩ | ⟨error, herror, -, rfl⟩
    · obtain rfl : tree = written := Except.ok.inj (htree.symm.trans hwrite)
      exact ⟨passes_tree _ ⟨old, hmade⟩ tree machine.faults.tail, _, hsame, nofun⟩
    · cases herror.symm.trans hwrite
  | none =>
    obtain ⟨made, after, hchange, hrest⟩ := runs_bind_iff.1 hrun
    obtain ⟨written, hwrite, hsame⟩ := FileTree.exists_writeFile_of_createFile hmade content
    rcases runs_change_iff.1 hchange with ⟨tree, htree, rfl, rfl⟩ | ⟨error, herror, -, rfl⟩
    · obtain ⟨rfl, rfl⟩ := runs_pure_iff.1 hrest
      obtain rfl : tree = written := Except.ok.inj (htree.symm.trans hwrite)
      exact ⟨passes_tree _ ⟨old, hmade⟩ tree machine.faults.tail, _, hsame, fun _ ↦ rfl⟩
    · cases herror.symm.trans hwrite

theorem runs_writeFile {path : String} {content : ByteArray} {tree : FileTree}
    (hfaults : machine.faults = []) (h : machine.tree.writeFile path content = .ok tree) :
    Runs (writeFile path content) machine (.ok ())
      { machine with tree, past := machine.tree :: machine.past } := by
  refine runs_bind_iff.2 ⟨none, machine, runs_nextFault hfaults, ?_⟩
  exact runs_bind_iff.2 ⟨.ok (), _, runs_change_iff.2 (.inl ⟨tree, h, rfl, rfl⟩), rfl⟩

theorem runs_flushFile (path : String) (hfaults : machine.faults = []) :
    Runs (flushFile path) machine (.ok ()) machine :=
  runs_bind_iff.2 ⟨none, machine, runs_nextFault hfaults, rfl⟩

instance : LawfulTemporaryFiles where
  create_ok {directory lead trail path machine later} hname h := by
    have hrun : Runs (createUnder directory lead trail machine.names) machine (.ok path) later := h
    obtain ⟨hpasses, -, hcreated⟩ := createUnder_runs hrun
    obtain ⟨hmade, core, rfl⟩ := hcreated path rfl
    obtain ⟨place, hplace, -, -⟩ := FileTree.make_eq_ok_iff.1 hmade
    obtain ⟨above, habove, rfl⟩ := FileTree.exists_directoryAt_of_locate_join (hname core) hplace
    exact ⟨hpasses, hmade, above, core, habove, hplace⟩
  create_error {directory lead trail message machine later} h := by
    have hrun : Runs (createUnder directory lead trail machine.names) machine (.error message) later :=
      h
    obtain ⟨hpasses, hrefused, -⟩ := createUnder_runs hrun
    exact ⟨hpasses, hrefused message rfl⟩
  write := writeFile_runs
  flush {path machine later outcome} h := by
    have hflush : Runs (flushFile path) machine outcome later := h
    obtain ⟨fault, between, hfault, hrun⟩ := runs_bind_iff.1 hflush
    obtain rfl := eq_of_runs_nextFault hfault
    have hlater : later = { machine with faults := machine.faults.tail } := by
      cases fault with
      | some fault => exact (runs_pure_iff.1 hrun).2
      | none => exact (runs_pure_iff.1 hrun).2
    exact hlater ▸ ⟨passes_faults _ _ _, rfl⟩
  close {path machine later outcome} h := by
    have hclose : Runs (TemporaryFiles.remove path) machine outcome later := h
    obtain ⟨removed, between, hremove, hrest⟩ := runs_bind_iff.1 hclose
    cases removed with
    | ok _ => exact ⟨_, (runs_pure_iff.1 hrest).2 ▸ hremove⟩
    | error _ => exact ⟨_, (runs_pure_iff.1 hrest).2 ▸ hremove⟩
  giveUp h := by
    obtain ⟨removed, between, hremove, hrest⟩ := runs_bind_iff.1 h
    exact ⟨removed, (runs_pure_iff.1 hrest).2 ▸ hremove⟩

end Machine

end ContentSchema
