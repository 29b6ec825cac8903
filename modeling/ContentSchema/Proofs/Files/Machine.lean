import ContentSchema.Files.System
import ContentSchema.Proofs.Files.Tree
/-!
# Machines whose changes may fail

A `Machine` is a file tree on which a change may be refused for a reason that does not lie in the
tree: no room is left, a quota is reached, a mode forbids it. What the changes meet with is supplied
in advance as a list of faults, and any list may be. Every change takes the next one: making a
directory, making a file, writing to it, and removing it.

A machine remembers every tree that it had, every tree that a module was imported from, and every file
whose removal was refused, so that what a program does along the way can be stated of the machine that
it ends with.

A run of a program is a relation between machines (`Machine.Runs`), which a bind takes apart
(`runs_bind_iff`). `Machine.Ensures` is the rule for programs: what holds before a program, and what of
its result and of the machine after it.

What a change does is said in both directions. `cases_of_runs_createFile` and the like take a run
apart into all that may have happened, which is what invariants go by; `runs_createFile` and the
like say what happens without faults, and runs that go through are put together from them.
-/

namespace ContentSchema

/-- What goes wrong with a change of files. -/
structure Fault where
  error : FileError
  /-- How many bytes are in the file already, if it is written to. -/
  written : Nat := 0

/-- What stands in the name of a temporary file between its start and its end. -/
abbrev NameCore := { text : String // '/' ∉ text.toList }

/-- A file tree whose changes may fail, with what happened to it. -/
structure Machine where
  tree : FileTree
  /-- What the changes to come meet with, in turn; nothing stands for no fault. -/
  faults : List (Option Fault) := []
  /-- The names that are tried for a temporary file, in turn. -/
  names : List NameCore := []
  /-- The trees that there were, the last one first. -/
  past : List FileTree := []
  /-- The paths of the modules that were imported and the trees at that time, the last one first. -/
  imports : List (String × FileTree) := []
  /-- The paths of the files that a fault kept from being removed, the last one first. -/
  kept : List String := []

namespace Machine

/-- What the next change meets with. -/
def nextFault : StateM Machine (Option Fault) := fun machine ↦
  (machine.faults.head?.join, { machine with faults := machine.faults.tail })

/-- Changes the tree, unless the tree itself does not admit the change. -/
def change (action : FileTree → Except FileError FileTree) : StateM Machine (Except FileError Unit) :=
  fun machine ↦
    match action machine.tree with
    | .ok tree => (.ok (), { machine with tree, past := machine.tree :: machine.past })
    | .error error => (.error error, machine)

/-- Makes a directory. -/
def makeDirectory (path : String) : StateM Machine (Except FileError Unit) := do
  match ← nextFault with
  | some fault => return .error fault.error
  | none => change (·.makeDirectory path)

/-- Makes a file. -/
def createFile (path : String) (content : ByteArray) : StateM Machine Creation := do
  match ← nextFault with
  | some fault => return .refused fault.error
  | none => return .ofExcept (← change (·.createFile path content))

/-- Removes a file; one that a fault keeps from being removed is remembered. -/
def removeFile (path : String) : StateM Machine (Except FileError Unit) := do
  match ← nextFault with
  | some fault => fun machine ↦ (.error fault.error, { machine with kept := path :: machine.kept })
  | none => change (·.removeFile path)

instance : FileSystem (StateM Machine) where
  isFile path := fun machine ↦ (machine.tree.isFile path, machine)
  isDirectory path := fun machine ↦ (machine.tree.isDirectory path, machine)
  canonicalPath path := fun machine ↦ (machine.tree.canonicalPath path, machine)
  probe path := fun machine ↦ (machine.tree.probe path, machine)
  readBytes path := fun machine ↦ (machine.tree.readBytes path, machine)
  makeDirectory := makeDirectory
  createFile := createFile
  removeFile := removeFile

/-! ### Runs -/

variable {α β : Type}

/-- A program takes one machine to another, with an outcome. -/
def Runs (program : StateM Machine α) (machine : Machine) (outcome : α) (later : Machine) : Prop :=
  StateT.run (m := Id) program machine = (outcome, later)

/-- Every program comes to an end, on every machine. -/
theorem exists_runs (program : StateM Machine α) (machine : Machine) :
    ∃ outcome later, Runs program machine outcome later :=
  ⟨_, _, rfl⟩

theorem runs_pure_iff {value outcome : α} {machine later : Machine} :
    Runs (pure value) machine outcome later ↔ outcome = value ∧ later = machine := by
  show ((value, machine) : α × Machine) = (outcome, later) ↔ _
  rw [Prod.mk.injEq, eq_comm, eq_comm (a := machine)]

/-- A run of two programs is a run of the first and then one of the second. -/
theorem runs_bind_iff {program : StateM Machine α} {next : α → StateM Machine β} {outcome : β}
    {machine later : Machine} :
    Runs (program >>= next) machine outcome later ↔
      ∃ value between, Runs program machine value between ∧ Runs (next value) between outcome later := by
  constructor
  · exact fun h ↦ ⟨_, _, rfl, h⟩
  · rintro ⟨value, between, hfirst, hnext⟩
    rw [Runs, StateT.run_bind, show StateT.run (m := Id) program machine = _ from hfirst]
    exact hnext

/-- What comes of a program is determined by the machine that it starts on. -/
theorem Runs.unique {program : StateM Machine α} {machine later later' : Machine}
    {outcome outcome' : α} (h : Runs program machine outcome later)
    (h' : Runs program machine outcome' later') : outcome = outcome' ∧ later = later' :=
  Prod.mk.inj (h.symm.trans h')

/-- The last that a machine did was to meet with a fault that kept a file from being removed. -/
def KeptByFault (machine : Machine) (path : String) : Prop :=
  ∃ before fault, before.faults.head?.join = some fault ∧
    Runs (FileSystem.removeFile path) before (.error fault.error) machine

/-! ### What a change does -/

section Change

variable {machine later : Machine} {tree : FileTree} {path : String} {content : ByteArray}

theorem eq_of_runs_nextFault {fault : Option Fault} (h : Runs nextFault machine fault later) :
    later = { machine with faults := machine.faults.tail } :=
  (congrArg Prod.snd h).symm

/-- Without faults a change meets with none, and nothing is used up. -/
theorem runs_nextFault (hfaults : machine.faults = []) : Runs nextFault machine none machine := by
  obtain ⟨tree, faults, names, past, imports, kept⟩ := machine
  subst hfaults
  rfl

/-- A change is made, or the tree does not admit it and stays. -/
theorem runs_change_iff {action : FileTree → Except FileError FileTree}
    {outcome : Except FileError Unit} :
    Runs (change action) machine outcome later ↔
      (∃ tree, action machine.tree = .ok tree ∧ outcome = .ok () ∧
        later = { machine with tree, past := machine.tree :: machine.past }) ∨
      ∃ error, action machine.tree = .error error ∧ outcome = .error error ∧ later = machine := by
  show change action machine = (outcome, later) ↔ _
  unfold change
  cases action machine.tree with
  | ok tree =>
    constructor
    · intro h
      obtain ⟨rfl, rfl⟩ := Prod.mk.inj h
      exact .inl ⟨tree, rfl, rfl, rfl⟩
    · rintro (⟨_, ⟨⟩, rfl, rfl⟩ | ⟨_, ⟨⟩, -⟩)
      rfl
  | error error =>
    constructor
    · intro h
      obtain ⟨rfl, rfl⟩ := Prod.mk.inj h
      exact .inr ⟨error, rfl, rfl, rfl⟩
    · rintro (⟨_, ⟨⟩, -⟩ | ⟨_, ⟨⟩, rfl, rfl⟩)
      rfl

/-- A file is made with all of its content, or none is made. -/
theorem cases_of_runs_createFile {outcome : Creation}
    (h : Runs (createFile path content) machine outcome later) :
    ∃ faults, (∃ tree, machine.tree.createFile path content = .ok tree ∧ outcome = .done ∧
        later = { machine with tree, faults, past := machine.tree :: machine.past }) ∨
      ∃ error, outcome = .refused error ∧ later = { machine with faults } := by
  obtain ⟨fault, between, hfault, hrun⟩ := runs_bind_iff.1 h
  obtain rfl := eq_of_runs_nextFault hfault
  refine ⟨machine.faults.tail, ?_⟩
  cases fault with
  | some fault =>
    obtain ⟨rfl, rfl⟩ := runs_pure_iff.1 hrun
    exact .inr ⟨fault.error, rfl, rfl⟩
  | none =>
    obtain ⟨made, after, hchange, hrest⟩ := runs_bind_iff.1 hrun
    obtain ⟨rfl, rfl⟩ := runs_pure_iff.1 hrest
    rcases runs_change_iff.1 hchange with ⟨tree, htree, rfl, rfl⟩ | ⟨error, -, rfl, rfl⟩
    · exact .inl ⟨tree, htree, rfl, rfl⟩
    · exact .inr ⟨error, rfl, rfl⟩

theorem runs_createFile (hfaults : machine.faults = [])
    (h : machine.tree.createFile path content = .ok tree) :
    Runs (createFile path content) machine .done
      { machine with tree, past := machine.tree :: machine.past } := by
  refine runs_bind_iff.2 ⟨none, machine, runs_nextFault hfaults, ?_⟩
  exact runs_bind_iff.2 ⟨.ok (), _, runs_change_iff.2 (.inl ⟨tree, h, rfl, rfl⟩), rfl⟩

theorem runs_createFile_error {error : FileError} (hfaults : machine.faults = [])
    (h : machine.tree.createFile path content = .error error) :
    Runs (createFile path content) machine (.refused error) machine := by
  refine runs_bind_iff.2 ⟨none, machine, runs_nextFault hfaults, ?_⟩
  exact runs_bind_iff.2 ⟨.error error, _, runs_change_iff.2 (.inr ⟨error, h, rfl, rfl⟩), rfl⟩

/-- A file is removed; or a fault keeps it there; or the tree has no file to remove. -/
theorem cases_of_runs_removeFile {outcome : Except FileError Unit}
    (h : Runs (FileSystem.removeFile path) machine outcome later) :
    ∃ faults, (∃ tree, machine.tree.removeFile path = .ok tree ∧ outcome = .ok () ∧
        later = { machine with tree, faults, past := machine.tree :: machine.past }) ∨
      (∃ fault, machine.faults.head?.join = some fault ∧ outcome = .error fault.error ∧
        later = { machine with faults, kept := path :: machine.kept }) ∨
      ∃ error, machine.tree.removeFile path = .error error ∧ outcome = .error error ∧
        later = { machine with faults } := by
  have hremove : Runs (Machine.removeFile path) machine outcome later := h
  obtain ⟨fault, between, hfault, hrun⟩ := runs_bind_iff.1 hremove
  obtain rfl := eq_of_runs_nextFault hfault
  refine ⟨machine.faults.tail, ?_⟩
  cases fault with
  | some fault =>
    obtain ⟨rfl, rfl⟩ := Prod.mk.inj hrun
    exact .inr (.inl ⟨fault, congrArg Prod.fst hfault, rfl, rfl⟩)
  | none =>
    rcases runs_change_iff.1 hrun with ⟨tree, htree, rfl, rfl⟩ | ⟨error, herror, rfl, rfl⟩
    · exact .inl ⟨tree, htree, rfl, rfl⟩
    · exact .inr (.inr ⟨error, herror, rfl, rfl⟩)

/-- Only a fault keeps a file from being removed; a tree that has no such file is not at fault. -/
theorem kept_eq_of_runs_removeFile {outcome : Except FileError Unit}
    (h : Runs (FileSystem.removeFile path) machine outcome later) (hfaults : machine.faults = []) :
    later.kept = machine.kept := by
  obtain ⟨faults, ⟨tree, -, -, rfl⟩ | ⟨fault, hfault, -⟩ | ⟨error, -, -, rfl⟩⟩ :=
    cases_of_runs_removeFile h
  · rfl
  · rw [hfaults] at hfault
    cases hfault
  · rfl

end Change

/-! ### Programs and properties -/

variable {P : Machine → Prop} {Q : α → Machine → Prop} {R : β → Machine → Prop}

/-- From a machine with one property a program comes to a result and a machine with another. -/
def Ensures (P : Machine → Prop) (program : StateM Machine α) (Q : α → Machine → Prop) : Prop :=
  ∀ machine, P machine → Q (program.run machine).1 (program.run machine).2

theorem ensures_pure {value : α} (h : ∀ machine, P machine → Q value machine) :
    Ensures P (pure value) Q :=
  h

/-- The rule for sequences: what the first program ensures is what the next one starts from. -/
theorem Ensures.bind {program : StateM Machine α} {next : α → StateM Machine β}
    (h : Ensures P program Q) (hnext : ∀ value, Ensures (Q value) (next value) R) :
    Ensures P (program >>= next) R :=
  fun machine hmachine ↦ hnext _ _ (h machine hmachine)

theorem Ensures.of_runs {program : StateM Machine α} (h : Ensures P program Q)
    {machine later : Machine} {outcome : α} (hmachine : P machine)
    (hrun : Runs program machine outcome later) : Q outcome later := by
  have hafter := h machine hmachine
  rwa [show program.run machine = (outcome, later) from hrun] at hafter

end Machine

end ContentSchema
