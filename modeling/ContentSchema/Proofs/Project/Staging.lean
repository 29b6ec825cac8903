import Mathlib
import ContentSchema.Project.Staging
import ContentSchema.Proofs.Files.Temporary
/-!
# Staging leaves no trace

A bundle is written to a temporary file of the project while it is imported. `loadBundle_leaves_no_trace`
says that nothing else becomes of the project's files: whatever the tree was at first, whatever the
changes meet with, whatever the library of temporary files does within its laws and whatever the runtime
says, the tree at the end is the first one with more directories on the way to the staging directory,
and while the runtime reads, it has the bundle as one more file in that directory. The one thing that
can stay behind is that file, and only if a fault kept it from being removed.

`FileTree.Grown` is the relation between the two trees. It is kept by each program that makes the
directories, from `ensureDirectory` up to `createDirectories`, as an invariant of the machine (`Tidy`)
that each of them ensures. From there on the steps are those of the library. A run of each is taken from
`Tidy` to `Staged`, which is `Tidy` with a file that is there for a time, and at the end to `Cleared`.
-/

namespace ContentSchema

/-! ### Growth -/

namespace FileTree

/-- A tree is another one with new directories, all of them on the way to a path, and new files. -/
structure Grown (initial : FileTree) (directory : String) (made : List String)
    (files : Keyed FileNode) (tree : FileTree) : Prop where
  eq_adding : tree = initial.adding (made.map (·, .directory) ++ files)
  nodup : (made ++ files.keys).Nodup
  isNew : ∀ key ∈ made ++ files.keys, key ∉ initial.nodes.keys
  onTheWay : ∀ key ∈ made, ∃ path ∈ FilePath.ancestors directory,
    tree.canonicalPath (withoutFinalSlashes path) = .ok key

variable {initial tree changed : FileTree} {directory path : String} {made : List String}

theorem grown_self (initial : FileTree) (directory : String) : initial.Grown directory [] [] initial where
  eq_adding := (adding_nil initial).symm
  nodup := List.nodup_nil
  isNew := nofun
  onTheWay := nofun

/-- A canonical path stays the same in a larger tree. -/
theorem canonicalPath_adding {source : String} (h : tree.canonicalPath path = .ok source)
    (added : Keyed FileNode) : (tree.adding added).canonicalPath path = .ok source := by
  unfold canonicalPath at h ⊢
  cases hfind : tree.find path with
  | error error => rw [hfind] at h; cases h
  | ok found => 
    rw [find_adding hfind]
    rwa [hfind] at h

/-- Whatever is free in a grown tree is new. -/
theorem Grown.notMem (h : initial.Grown directory made [] tree) {place : List String}
    (hfree : tree.nodeAt? place = none) :
    FilePath.ofComponents place ∉ initial.nodes.keys ∧ FilePath.ofComponents place ∉ made := by
  have hnew := notMem_keys_of_nodeAt?_eq_none hfree
  have hkeys : tree.nodes.keys = initial.nodes.keys ++ made := by
    rw [h.eq_adding]
    simp [adding, Keyed.keys, Function.comp_def]
  rwa [hkeys, List.mem_append, not_or] at hnew

/-- What is put into a grown tree is new, whatever it is. -/
theorem Grown.adding (h : initial.Grown directory made [] tree) {place : List String}
    (hfree : tree.nodeAt? place = none) (node : FileNode) :
    initial.Grown directory made [(FilePath.ofComponents place, node)]
      (tree.adding [(FilePath.ofComponents place, node)]) := by
  obtain ⟨hinitial, hmade⟩ := h.notMem hfree
  refine ⟨?_, ?_, ?_, fun key hkey ↦ ?_⟩
  · rw [h.eq_adding, adding_adding]
    simp
  · have hnodup : made.Nodup := by simpa using h.nodup
    simpa [List.nodup_append] using ⟨hnodup, fun key hkey heq ↦ hmade (heq ▸ hkey)⟩
  · have hnew : ∀ key ∈ made, key ∉ initial.nodes.keys := by simpa using h.isNew
    simpa [or_imp, forall_and] using ⟨hnew, hinitial⟩
  · obtain ⟨earlier, hearlier, hcanonical⟩ := h.onTheWay key hkey
    exact ⟨earlier, hearlier, canonicalPath_adding hcanonical _⟩

/-- A directory that is made on the way is one more new directory. -/
theorem Grown.makeDirectory (h : initial.Grown directory made [] tree)
    (hpath : path ∈ FilePath.ancestors directory) (hmake : tree.makeDirectory path = .ok changed) :
    ∃ key, initial.Grown directory (made ++ [key]) [] changed := by
  obtain ⟨place, hplace, hfree, rfl⟩ := make_eq_ok_iff.1 hmake
  have hgrown := h.adding hfree .directory
  refine ⟨FilePath.ofComponents place, by simpa using hgrown.eq_adding, by simpa using hgrown.nodup,
    by simpa using hgrown.isNew, fun key hkey ↦ ?_⟩
  rcases List.mem_append.1 hkey with hkey | hkey
  · exact hgrown.onTheWay key hkey
  · obtain rfl := List.mem_singleton.1 hkey
    obtain ⟨-, hfind⟩ := find_of_locate .directory nofun hplace hfree
    exact ⟨path, hpath, by rw [canonicalPath, hfind]; rfl⟩

/-- A tree is another one with new directories on the way to a path and at most one new file. -/
def GrownByOne (initial : FileTree) (directory : String) (tree : FileTree) : Prop :=
  ∃ made files, files.length ≤ 1 ∧ initial.Grown directory made files tree

theorem Grown.grownByOne (h : initial.Grown directory made [] tree) :
    initial.GrownByOne directory tree :=
  ⟨made, [], Nat.zero_le 1, h⟩

/-- The one new file of a tree is a staged module: it stands in the staging directory, is named as
staged modules are, and a path leads to it. -/
def HasStaged (initial : FileTree) (directory path : String) (content : ByteArray)
    (tree : FileTree) : Prop :=
  ∃ (made above : List String) (core : NameCore),
    initial.Grown directory made
      [(FilePath.ofComponents (above ++ [stagedLead ++ core ++ stagedTrail]), .file content true)]
      tree ∧
    tree.DirectoryAt directory above ∧
    tree.find path = .ok (above ++ [stagedLead ++ core ++ stagedTrail], .file content true)

theorem HasStaged.grownByOne {content : ByteArray}
    (h : initial.HasStaged directory path content tree) : initial.GrownByOne directory tree := by
  obtain ⟨made, above, core, hgrown, -, -⟩ := h
  exact ⟨made, _, le_rfl, hgrown⟩

end FileTree

/-! ### Making directories -/

namespace Machine

/-- A machine has made directories on the way to a path, and left nothing else. -/
structure Tidy (initial : FileTree) (directory : String) (machine : Machine) : Prop where
  tree : ∃ made, initial.Grown directory made [] machine.tree
  past : ∀ earlier ∈ machine.past, initial.GrownByOne directory earlier
  imports : machine.imports = []
  kept : machine.kept = []

variable {initial : FileTree} {directory : String} {paths : List String}

theorem nextFault_tidy :
    Ensures (Tidy initial directory) nextFault fun _ ↦ Tidy initial directory :=
  fun _ h ↦ ⟨h.tree, h.past, h.imports, h.kept⟩

/-- Making a directory on the way leaves nothing else, whether it succeeds, fails or meets with a
fault. -/
theorem makeDirectory_tidy {path : String} (hpath : path ∈ FilePath.ancestors directory) :
    Ensures (Tidy initial directory) (Machine.makeDirectory path) fun _ ↦ Tidy initial directory := by
  refine nextFault_tidy.bind fun fault ↦ ?_
  cases fault with
  | some fault => exact ensures_pure fun _ h ↦ h
  | none =>
    intro machine h
    obtain ⟨made, hmade⟩ := h.tree
    show Tidy initial directory (change (·.makeDirectory path) machine).2
    unfold change
    split
    next tree hmake =>
      obtain ⟨key, hkey⟩ := hmade.makeDirectory hpath hmake
      exact ⟨⟨_, hkey⟩, List.forall_mem_cons.2 ⟨hmade.grownByOne, h.past⟩, h.imports, h.kept⟩
    next => exact h

theorem ensureDirectory_tidy {path : String} (hpath : path ∈ FilePath.ancestors directory) :
    Ensures (Tidy initial directory) (FileSystem.ensureDirectory path)
      fun _ ↦ Tidy initial directory := by
  refine (makeDirectory_tidy hpath).bind fun outcome ↦ ?_
  split
  · refine Ensures.bind (Q := fun _ ↦ Tidy initial directory) (fun machine h ↦ h) fun isThere ↦ ?_
    split
    · exact ensures_pure fun _ h ↦ h
    · exact ensures_pure fun _ h ↦ h
  · exact ensures_pure fun _ h ↦ h

/-- The search for what is missing may make a directory, the innermost, and names only paths that it
was given. -/
theorem missingDirectories_tidy (hpaths : paths ⊆ FilePath.ancestors directory) :
    Ensures (Tidy initial directory) (FileSystem.missingDirectories paths) fun outcome machine ↦
      Tidy initial directory machine ∧ ∀ missing, outcome = .ok missing → missing ⊆ paths := by
  induction paths with
  | nil => exact ensures_pure fun _ h ↦ ⟨h, fun _ heq ↦ Except.ok.inj heq ▸ List.Subset.refl _⟩
  | cons path outer ih =>
    obtain ⟨hpath, houter⟩ := List.cons_subset.1 hpaths
    refine (ensureDirectory_tidy hpath).bind fun outcome ↦ ?_
    split
    · exact ensures_pure fun _ h ↦ ⟨h, fun _ heq ↦ Except.ok.inj heq ▸ List.nil_subset _⟩
    · refine (ih houter).bind fun outcome ↦ ensures_pure fun _ h ↦ ⟨h.1, fun missing heq ↦ ?_⟩
      cases outcome with
      | error error => cases heq
      | ok rest =>
        obtain rfl := Except.ok.inj heq
        exact List.cons_subset_cons path (h.2 rest rfl)
    · exact ensures_pure fun _ h ↦ ⟨h, nofun⟩

theorem makeAll_tidy (hpaths : paths ⊆ FilePath.ancestors directory) :
    Ensures (Tidy initial directory) (FileSystem.makeAll paths) fun _ ↦ Tidy initial directory := by
  induction paths with
  | nil => exact ensures_pure fun _ h ↦ h
  | cons path inner ih =>
    obtain ⟨hpath, hinner⟩ := List.cons_subset.1 hpaths
    refine (ensureDirectory_tidy hpath).bind fun outcome ↦ ?_
    split
    · exact ih hinner
    · exact ensures_pure fun _ h ↦ h

/-- Making a directory and what is missing on the way to it leaves nothing but directories. -/
theorem createDirectories_tidy :
    Ensures (Tidy initial directory) (FileSystem.createDirectories directory)
      fun _ ↦ Tidy initial directory := by
  refine (missingDirectories_tidy (List.Subset.refl _)).bind fun outcome ↦ ?_
  split
  · exact ensures_pure fun _ h ↦ h.1
  next missing =>
    -- what is missing is known only from the machine that comes out of the search
    intro machine h
    have hmissing : missing.reverse ⊆ FilePath.ancestors directory := by
      simpa using h.2 missing rfl
    exact makeAll_tidy hmissing machine h.1

/-! ### The staged file -/

/-- A machine has made a staged file at a path, on top of a tree that has nothing new but directories. -/
structure Staged (initial : FileTree) (directory path : String) (content : ByteArray)
    (before : FileTree) (machine : Machine) : Prop where
  grown : ∃ made, initial.Grown directory made [] before
  created : before.createFile path content = .ok machine.tree
  place : ∃ (above : List String) (core : NameCore), before.DirectoryAt directory above ∧
    before.locate path false = .ok (above ++ [stagedLead ++ core ++ stagedTrail])
  past : ∀ earlier ∈ machine.past, initial.GrownByOne directory earlier
  kept : machine.kept = []

/-- A staged file is gone, or it is what a fault kept from being removed. -/
structure Cleared (initial : FileTree) (directory : String) (machine : Machine) : Prop where
  tree : (machine.kept = [] ∧ ∃ made, initial.Grown directory made [] machine.tree) ∨
    ∃ path content, machine.kept = [path] ∧ machine.KeptByFault path ∧
      initial.HasStaged directory path content machine.tree
  past : ∀ earlier ∈ machine.past, initial.GrownByOne directory earlier

variable {machine later : Machine} {before : FileTree} {path : String} {content : ByteArray}

theorem Tidy.cleared (h : Tidy initial directory machine) : Cleared initial directory machine :=
  ⟨.inl ⟨h.kept, h.tree⟩, h.past⟩

/-- A step that leaves only good trees behind keeps the past good. -/
theorem Passes.past_grownByOne {p : FileTree → Prop} (h : machine.Passes p later)
    (hp : ∀ tree, p tree → initial.GrownByOne directory tree)
    (hpast : ∀ earlier ∈ machine.past, initial.GrownByOne directory earlier) :
    ∀ earlier ∈ later.past, initial.GrownByOne directory earlier := by
  obtain ⟨trees, heq, htrees⟩ := h.past
  rw [heq]
  exact List.forall_mem_append.2 ⟨fun tree htree ↦ hp tree (htrees tree htree), hpast⟩

/-- A step that changes no tree leaves a tidy machine tidy. -/
theorem Tidy.of_passes (h : Tidy initial directory machine)
    (hpasses : machine.Passes (· = machine.tree) later) (htree : later.tree = machine.tree) :
    Tidy initial directory later := by
  obtain ⟨made, hmade⟩ := h.tree
  exact ⟨⟨made, htree ▸ hmade⟩, hpasses.past_grownByOne (fun _ heq ↦ heq ▸ hmade.grownByOne) h.past,
    hpasses.imports.trans h.imports, hpasses.kept.trans h.kept⟩

/-- Whatever is in a staged file, it is the one new file. -/
theorem Staged.hasStaged_of_created (h : Staged initial directory path content before machine)
    {other : ByteArray} {tree : FileTree} (hcreated : before.createFile path other = .ok tree) :
    initial.HasStaged directory path other tree := by
  obtain ⟨above, core, habove, hlocate⟩ := h.place
  obtain ⟨place, hplace, hfree, rfl⟩ := FileTree.make_eq_ok_iff.1 hcreated
  obtain rfl := Except.ok.inj (hlocate.symm.trans hplace)
  obtain ⟨-, hfind⟩ := FileTree.find_of_locate (.file other true) nofun hplace hfree
  obtain ⟨made, hmade⟩ := h.grown
  exact ⟨made, above, core, hmade.adding hfree _, habove.adding _, hfind⟩

/-- While a staged file is there, it is the one new file. -/
theorem Staged.hasStaged (h : Staged initial directory path content before machine) :
    initial.HasStaged directory path content machine.tree :=
  h.hasStaged_of_created h.created

/-- An import changes no file. -/
theorem Staged.imported (h : Staged initial directory path content before machine)
    (imports : List (String × FileTree)) :
    Staged initial directory path content before { machine with imports } :=
  ⟨h.grown, h.created, h.place, h.past, h.kept⟩

/-- Removing a staged file gives the tree before it back, unless a fault keeps the file there. -/
theorem Staged.cleared (h : Staged initial directory path content before machine)
    {outcome : Except FileError Unit}
    (hrun : Runs (FileSystem.removeFile path) machine outcome later) :
    Cleared initial directory later ∧ later.imports = machine.imports := by
  have hremove := FileTree.removeFile_of_createFile h.created
  obtain ⟨faults, ⟨tree, htree, -, rfl⟩ | ⟨fault, hfault, rfl, rfl⟩ | ⟨error, herror, -, rfl⟩⟩ :=
    cases_of_runs_removeFile hrun
  · obtain rfl : tree = before := Except.ok.inj (htree.symm.trans hremove)
    exact ⟨⟨.inl ⟨h.kept, h.grown⟩,
      List.forall_mem_cons.2 ⟨h.hasStaged.grownByOne, h.past⟩⟩, rfl⟩
  · refine ⟨⟨.inr ⟨path, content, ?_, ⟨machine, fault, hfault, hrun⟩, h.hasStaged⟩, h.past⟩, rfl⟩
    show path :: machine.kept = [path]
    rw [h.kept]
  · cases herror.symm.trans hremove

end Machine

/-! ### The steps of the library -/

open Machine

/-- The names of staged modules are names. -/
theorem isName_staged (core : NameCore) : FilePath.IsName (stagedLead ++ core ++ stagedTrail) := by
  have hchars : (stagedLead ++ core ++ stagedTrail).toList =
      stagedLead.toList ++ core.1.toList ++ stagedTrail.toList := by simp
  have hne : ∀ other : String, other.toList.length ≤ 2 → stagedLead ++ core ++ stagedTrail ≠ other := by
    rintro other hlength rfl
    rw [hchars, List.length_append, List.length_append] at hlength
    have hlead : stagedLead.toList.length = 19 := by decide
    omega
  refine ⟨?_, hne "" (by decide), hne "." (by decide), hne ".." (by decide)⟩
  rw [hchars, List.mem_append, List.mem_append, not_or, not_or]
  exact ⟨⟨by decide, core.2⟩, by decide⟩

section Steps

variable [TemporaryFiles (StateM Machine)] {initial before : FileTree} {directory path : String}
variable {content : ByteArray} {machine later : Machine}

/-- A step of staging failed, and this is what it said. -/
inductive StagingFails (directory code : String) (machine : Machine) : String → Prop where
  | directories {error : FileError} {later : Machine}
      (h : Runs (FileSystem.createDirectories directory) machine (.error error) later) :
      StagingFails directory code machine error.message
  | create {message : String} {ready later : Machine}
      (hready : Runs (FileSystem.createDirectories directory) machine (.ok ()) ready)
      (h : Runs (TemporaryFiles.create directory stagedLead stagedTrail) ready (.error message)
        later) :
      StagingFails directory code machine message
  | fill {message path : String} {ready opened later : Machine}
      (hready : Runs (FileSystem.createDirectories directory) machine (.ok ()) ready)
      (hopened : Runs (TemporaryFiles.create directory stagedLead stagedTrail) ready (.ok path)
        opened)
      (h : Runs (TemporaryFiles.fill path code.toUTF8) opened (.error message) later) :
      StagingFails directory code machine message

variable [LawfulTemporaryFiles]

/-- A file that the library makes for staging is a staged file, still empty. -/
theorem create_staged (h : Tidy initial directory machine)
    (hrun : Runs (TemporaryFiles.create directory stagedLead stagedTrail) machine (.ok path) later) :
    Staged initial directory path .empty machine.tree later ∧ later.imports = [] := by
  obtain ⟨hpasses, hcreated, hplace⟩ := LawfulTemporaryFiles.create_ok isName_staged hrun
  obtain ⟨made, hmade⟩ := h.tree
  exact ⟨⟨⟨made, hmade⟩, hcreated, hplace,
    hpasses.past_grownByOne (fun _ heq ↦ heq ▸ hmade.grownByOne) h.past,
    hpasses.kept.trans h.kept⟩, hpasses.imports.trans h.imports⟩

/-- Writing leaves a staged file that holds some of the bundle, and all of it without an error. -/
theorem write_staged {outcome : Except String Unit}
    (h : Staged initial directory path .empty before machine)
    (hrun : Runs (TemporaryFiles.write path content) machine outcome later) :
    ∃ part, Staged initial directory path part before later ∧ later.imports = machine.imports ∧
      (outcome = .ok () → part = content) := by
  obtain ⟨hpasses, part, hpart, hall⟩ := LawfulTemporaryFiles.write h.created hrun
  exact ⟨part, ⟨h.grown, hpart, h.place, hpasses.past_grownByOne
    (fun _ ⟨_, hother⟩ ↦ (h.hasStaged_of_created hother).grownByOne) h.past,
    hpasses.kept.trans h.kept⟩, hpasses.imports, hall⟩

/-- Flushing leaves a staged file as it is, with an error or without. -/
theorem flush_staged {outcome : Except String Unit}
    (h : Staged initial directory path content before machine)
    (hrun : Runs (TemporaryFiles.flush path) machine outcome later) :
    Staged initial directory path content before later ∧ later.imports = machine.imports := by
  obtain ⟨hpasses, htree⟩ := LawfulTemporaryFiles.flush hrun
  exact ⟨⟨h.grown, htree ▸ h.created, h.place,
    hpasses.past_grownByOne (fun _ heq ↦ heq ▸ h.hasStaged.grownByOne) h.past,
    hpasses.kept.trans h.kept⟩, hpasses.imports⟩

/-- Filling is writing and, if that went well, flushing; an error of either leaves a staged file. -/
theorem fill_staged {outcome : Except String Unit}
    (h : Staged initial directory path .empty before machine)
    (hrun : Runs (TemporaryFiles.fill path content) machine outcome later) :
    ∃ part, Staged initial directory path part before later ∧ later.imports = machine.imports ∧
      (outcome = .ok () → part = content) := by
  obtain ⟨written, between, hwrite, hrest⟩ := runs_bind_iff.1 hrun
  obtain ⟨part, hpart, himports, hall⟩ := write_staged h hwrite
  cases written with
  | error message =>
    obtain ⟨rfl, rfl⟩ := runs_pure_iff.1 hrest
    exact ⟨part, hpart, himports, nofun⟩
  | ok _ =>
    obtain ⟨hflushed, himports'⟩ := flush_staged hpart hrest
    exact ⟨part, hflushed, himports'.trans himports, fun _ ↦ hall rfl⟩

/-- Either a step of staging fails, and what was begun is cleared away, or the bundle is staged. -/
theorem cases_of_runs_stageBundle {code : String} {outcome : Except LoadError String}
    (hstart : Tidy initial directory machine)
    (hrun : Runs (stageBundle directory code) machine outcome later) :
    later.imports = [] ∧
      ((∃ message, StagingFails directory code machine message ∧
          outcome = .error (.staging directory message) ∧ Cleared initial directory later) ∨
        ∃ path before, outcome = .ok path ∧
          Staged initial directory path code.toUTF8 before later) := by
  obtain ⟨directories, ready, hready, hrest⟩ := runs_bind_iff.1 hrun
  have htidy : Tidy initial directory ready := createDirectories_tidy.of_runs hstart hready
  cases directories with
  | error error =>
    obtain ⟨rfl, rfl⟩ := runs_pure_iff.1 hrest
    exact ⟨htidy.imports, .inl ⟨_, .directories hready, rfl, htidy.cleared⟩⟩
  | ok _ =>
    obtain ⟨created, opened, hopened, hrest⟩ := runs_bind_iff.1 hrest
    cases created with
    | error message =>
      obtain ⟨rfl, rfl⟩ := runs_pure_iff.1 hrest
      obtain ⟨hpasses, htree⟩ := LawfulTemporaryFiles.create_error hopened
      have htidy' := htidy.of_passes hpasses htree
      exact ⟨htidy'.imports, .inl ⟨_, .create hready hopened, rfl, htidy'.cleared⟩⟩
    | ok path =>
      obtain ⟨hstaged, himports⟩ := create_staged htidy hopened
      obtain ⟨filled, full, hfill, hrest⟩ := runs_bind_iff.1 hrest
      obtain ⟨part, hpart, himports', hall⟩ := fill_staged hstaged hfill
      cases filled with
      | error message =>
        -- the file was made but not filled, and is removed before the error is given back
        obtain ⟨_, given, hgiveUp, hrest⟩ := runs_bind_iff.1 hrest
        obtain ⟨rfl, rfl⟩ := runs_pure_iff.1 hrest
        obtain ⟨removed, hremoved⟩ := LawfulTemporaryFiles.giveUp hgiveUp
        obtain ⟨hcleared, himports''⟩ := hpart.cleared hremoved
        exact ⟨himports''.trans (himports'.trans himports),
          .inl ⟨_, .fill hready hopened hfill, rfl, hcleared⟩⟩
      | ok _ =>
        obtain ⟨rfl, rfl⟩ := runs_pure_iff.1 hrest
        exact ⟨himports'.trans himports, .inr ⟨path, _, rfl, hall rfl ▸ hpart⟩⟩

end Steps

/-! ### Loading -/

/-- A runtime that writes no files: what it reports of a module depends on the path of the module and
on the files that are there. -/
def Machine.importing (runtime : String → FileTree → Except LoadError ModuleExports) (path : String) :
    StateM Machine (Except LoadError ModuleExports) := fun machine ↦
  (runtime path machine.tree, { machine with imports := (path, machine.tree) :: machine.imports })

/-- Without faults, and with a name that is free among those that are tried, a bundle is staged. -/
theorem exists_runs_stageBundle {directory : String} (code : String) (taken rest : List NameCore)
    (core : NameCore) {machine ready : Machine} {tree : FileTree}
    (hready : Runs (FileSystem.createDirectories directory) machine (.ok ()) ready)
    (hfaults : ready.faults = []) (hnames : ready.names = taken ++ core :: rest)
    (htaken : ∀ other ∈ taken, ready.tree.createFile
      (FilePath.join directory (stagedLead ++ other ++ stagedTrail)) .empty = .error .alreadyExists)
    (hfree : ready.tree.createFile (FilePath.join directory (stagedLead ++ core ++ stagedTrail))
      .empty = .ok tree) :
    ∃ staged, staged.faults = [] ∧ staged.kept = ready.kept ∧
      Runs (stageBundle directory code) machine
        (.ok (FilePath.join directory (stagedLead ++ core ++ stagedTrail))) staged := by
  have hcreate : Runs (TemporaryFiles.create directory stagedLead stagedTrail) ready
      (.ok (FilePath.join directory (stagedLead ++ core ++ stagedTrail)))
      { ready with tree, past := ready.tree :: ready.past } := by
    have hunder := runs_createUnder rest hfaults htaken hfree
    rw [← hnames] at hunder
    exact hunder
  generalize FilePath.join directory (stagedLead ++ core ++ stagedTrail) = path at hfree hcreate ⊢
  obtain ⟨written, hwrite, -⟩ := FileTree.exists_writeFile_of_createFile hfree code.toUTF8
  have hfill : Runs (TemporaryFiles.fill path code.toUTF8)
      { ready with tree, past := ready.tree :: ready.past } (.ok ())
      { ready with tree := written, past := tree :: ready.tree :: ready.past } :=
    runs_bind_iff.2 ⟨.ok (), _, runs_writeFile hfaults hwrite, runs_flushFile path hfaults⟩
  refine ⟨{ ready with tree := written, past := tree :: ready.tree :: ready.past }, hfaults, rfl, ?_⟩
  refine runs_bind_iff.2 ⟨.ok (), ready, hready, ?_⟩
  refine runs_bind_iff.2 ⟨.ok path, _, hcreate, ?_⟩
  exact runs_bind_iff.2 ⟨.ok (), _, hfill, rfl⟩

/-- What is done with a module once it is staged: it is imported, and whatever comes of that, its file is
removed and the outcome is what the runtime reports. -/
theorem exists_runs_loadBundle [TemporaryFiles (StateM Machine)] [LawfulTemporaryFiles]
    {directory code path : String} {machine staged : Machine}
    (runtime : String → FileTree → Except LoadError ModuleExports)
    (hstage : Runs (stageBundle directory code) machine (.ok path) staged) :
    ∃ removed later,
      Runs (FileSystem.removeFile path)
        { staged with imports := (path, staged.tree) :: staged.imports } removed later ∧
      Runs (loadBundle directory (importing runtime) code) machine
        (match runtime path staged.tree with
          | .error error => .error (.load error)
          | .ok exports => exports.declarations) later := by
  have himport : Runs (importing runtime path) staged (runtime path staged.tree)
      { staged with imports := (path, staged.tree) :: staged.imports } := rfl
  cases hout : runtime path staged.tree with
  | error error =>
    obtain ⟨_, later, hgiveUp⟩ := exists_runs (TemporaryFiles.giveUp path)
      { staged with imports := (path, staged.tree) :: staged.imports }
    obtain ⟨removed, hremoved⟩ := LawfulTemporaryFiles.giveUp hgiveUp
    refine ⟨removed, later, hremoved, runs_bind_iff.2 ⟨_, staged, hstage, ?_⟩⟩
    refine runs_bind_iff.2 ⟨_, _, hout ▸ himport, ?_⟩
    exact runs_bind_iff.2 ⟨_, later, hgiveUp, runs_pure_iff.2 ⟨rfl, rfl⟩⟩
  | ok exports =>
    obtain ⟨_, later, hclose⟩ := exists_runs (TemporaryFiles.close path)
      { staged with imports := (path, staged.tree) :: staged.imports }
    obtain ⟨removed, hremoved⟩ := LawfulTemporaryFiles.close hclose
    refine ⟨removed, later, hremoved, runs_bind_iff.2 ⟨_, staged, hstage, ?_⟩⟩
    refine runs_bind_iff.2 ⟨_, _, hout ▸ himport, ?_⟩
    exact runs_bind_iff.2 ⟨_, later, hclose, runs_pure_iff.2 ⟨rfl, rfl⟩⟩

/-- A root in which a file is named like a staged module. -/
def rootWithStagedName : FileTree where
  nodes := [("/.collection-schema-a.mjs", .file .empty true)]

/-- A letter, as what is tried for the name of a temporary file. -/
def coreA : NameCore := ⟨"a", by decide⟩

/-- The letter after it. -/
def coreB : NameCore := ⟨"b", by decide⟩

theorem createFile_coreA : rootWithStagedName.createFile
    (FilePath.join "/" (stagedLead ++ coreA ++ stagedTrail)) .empty = .error .alreadyExists := by
  have hnode : rootWithStagedName.nodeAt? [stagedLead ++ coreA ++ stagedTrail] =
      some (.file .empty true) := by decide
  have hplace : rootWithStagedName.locate _ false = _ :=
    FileTree.locate_join_root (isName_staged coreA)
      ⟨by rw [String.contains_char_eq]; decide, by decide, by decide⟩ (by decide)
      (by rw [hnode]; nofun)
  exact FileTree.make_of_nodeAt? hplace hnode

theorem createFile_coreB : rootWithStagedName.createFile
    (FilePath.join "/" (stagedLead ++ coreB ++ stagedTrail)) .empty =
      .ok (rootWithStagedName.adding [("/.collection-schema-b.mjs", .file .empty true)]) := by
  have hnode : rootWithStagedName.nodeAt? [stagedLead ++ coreB ++ stagedTrail] = none := by decide
  have hplace : rootWithStagedName.locate _ false = _ :=
    FileTree.locate_join_root (isName_staged coreB)
      ⟨by rw [String.contains_char_eq]; decide, by decide, by decide⟩ (by decide)
      (by rw [hnode]; nofun)
  exact FileTree.make_of_nodeAt?_eq_none hplace hnode

/-- A module that exports one collection. -/
def pagesModule : ModuleExports := ⟨some [⟨"pages", none, none⟩], none⟩

end ContentSchema
