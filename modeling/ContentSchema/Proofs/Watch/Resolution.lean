import Mathlib
import ContentSchema.Project.Source
import ContentSchema.Watch.Fingerprint
/-!
# What a watcher sees of the schema module

A watcher looks at contents, the choice of the schema module at files. The two agree as far as
contents go: what can be read is a file, so a candidate whose fingerprint is a digest is chosen or
passed over alike in all file trees with this fingerprint. They part at two places. A file that cannot
be read has the fingerprint of nothing, and a link whose target changes to another file of the same
content keeps its fingerprint but not its canonical path.

The programs are taken out of their monad first (`snapshot_eq`, `source_eq_of_find?_eq_some`); the
rest is about a list of paths and two trees.
-/

namespace ContentSchema

namespace FileTree

variable {tree : FileTree} {path : String}

/-- What can be read is a file. -/
theorem isFile_of_readBytes {content : ByteArray} (h : tree.readBytes path = .ok content) :
    tree.isFile path = true := by
  unfold readBytes at h
  unfold isFile
  cases hfind : tree.find path with
  | error error => rw [hfind] at h; cases h
  | ok found =>
    obtain ⟨place, node⟩ := found
    rw [hfind] at h
    cases node with
    | file content readable => rfl
    | directory | link _ => cases h

/-- What has a digest is a file. -/
theorem isFile_of_fingerprint {digest : String}
    (h : Fingerprint.ofContent (tree.readBytes path) = .present digest) : tree.isFile path = true := by
  cases hread : tree.readBytes path with
  | error error => rw [hread] at h; cases h
  | ok content => exact isFile_of_readBytes hread

/-- A file has a canonical path. -/
theorem exists_canonicalPath_of_isFile (h : tree.isFile path = true) :
    ∃ source, tree.canonicalPath path = .ok source := by
  unfold isFile at h
  unfold canonicalPath
  cases hfind : tree.find path with
  | error error => rw [hfind] at h; cases h
  | ok found => exact ⟨FilePath.ofComponents found.1, rfl⟩

end FileTree

namespace FileTree

/-! ### The programs on file trees -/

/-- The fingerprint of a path in a file tree. -/
def fingerprint (tree : FileTree) (path : String) : Fingerprint :=
  (StateT.run (m := Id) (Fingerprint.of path) tree).1

/-- The snapshot that a watcher takes in a file tree. -/
def snapshot (tree : FileTree) (paths : List String) : List Fingerprint :=
  (StateT.run (m := Id) (Fingerprint.snapshot paths) tree).1

/-- What can be read at each of the paths. -/
def contents (tree : FileTree) (paths : List String) : List (Option ByteArray) :=
  paths.map fun path ↦ (tree.readBytes path).toOption

/-- What the schema module is resolved to in a file tree. -/
def source (tree : FileTree) (settings : Settings) : Except BundleError String :=
  (StateT.run (m := Id) settings.resolveSource tree).1

section Run

variable (tree : FileTree) (paths : List String) (settings : Settings)

theorem run_snapshot : StateT.run (m := Id) (Fingerprint.snapshot paths) tree =
    (paths.map fun path ↦ Fingerprint.ofContent (tree.readBytes path), tree) := by
  induction paths with
  | nil => rfl
  | cons path paths ih =>
    have hpath : StateT.run (m := Id) (Fingerprint.of path) tree =
        (Fingerprint.ofContent (tree.readBytes path), tree) := rfl
    unfold Fingerprint.snapshot at ih ⊢
    rw [List.mapM_cons, StateT.run_bind, hpath]
    show StateT.run (m := Id) (do return _ :: (← List.mapM Fingerprint.of paths)) tree = _
    rw [StateT.run_bind, ih]
    rfl

theorem run_firstFile? : StateT.run (m := Id) (firstFile? paths) tree =
    (paths.find? tree.isFile, tree) := by
  induction paths with
  | nil => rfl
  | cons path paths ih =>
    have hpath : StateT.run (m := Id) (FileSystem.isFile path) tree = (tree.isFile path, tree) := rfl
    rw [firstFile?, StateT.run_bind, hpath, List.find?_cons]
    cases hfile : tree.isFile path with
    | true => rfl
    | false => exact ih

/-- The fingerprints of a tree are those of its readings, one after another, since no reading
changes it. -/
theorem snapshot_eq :
    tree.snapshot paths = paths.map fun path ↦ Fingerprint.ofContent (tree.readBytes path) := by
  rw [snapshot, run_snapshot]

theorem length_snapshot : (tree.snapshot paths).length = paths.length := by
  rw [snapshot_eq, List.length_map]

/-- The fingerprints of a snapshot are those of its paths, one by one. -/
theorem snapshot_eq_map : tree.snapshot paths = paths.map tree.fingerprint :=
  snapshot_eq tree paths

/-- Without a candidate that is a file there is no source. -/
theorem source_eq_of_find?_eq_none (h : settings.candidatePaths.find? tree.isFile = none) :
    tree.source settings = .error (.missingEntry settings.candidatePaths) := by
  rw [source, Settings.resolveSource, StateT.run_bind, run_firstFile?, h]
  rfl

/-- The first candidate that is a file is the source, under its canonical path. -/
theorem source_eq_of_find?_eq_some {path : String}
    (h : settings.candidatePaths.find? tree.isFile = some path) :
    ∃ canonical, tree.canonicalPath path = .ok canonical ∧ tree.source settings = .ok canonical := by
  obtain ⟨canonical, hcanonical⟩ := exists_canonicalPath_of_isFile (List.find?_some h)
  refine ⟨canonical, hcanonical, ?_⟩
  rw [source, Settings.resolveSource, StateT.run_bind, run_firstFile?, h]
  have hrun : StateT.run (m := Id) (FileSystem.canonicalPath path) tree =
      (tree.canonicalPath path, tree) := rfl
  change (StateT.run (m := Id) (FileSystem.canonicalPath path >>= _) tree).1 = _
  rw [StateT.run_bind, hrun, hcanonical]
  rfl

end Run

/-! ### Two trees -/

section TwoTrees

variable {settings : Settings} {before after : FileTree}

/-- Equal contents have equal fingerprints. -/
theorem snapshot_congr {paths : List String}
    (h : before.contents paths = after.contents paths) :
    before.snapshot paths = after.snapshot paths := by
  rw [snapshot_eq, snapshot_eq]
  refine List.map_inj_left.2 fun path hpath ↦ ?_
  have hread : (before.readBytes path).toOption = (after.readBytes path).toOption :=
    List.map_inj_left.1 h path hpath
  -- the errors may differ, but neither fingerprint shows one
  cases hfirst : before.readBytes path <;> cases hsecond : after.readBytes path <;>
    simp_all [Except.toOption, Fingerprint.ofContent]

/-- Where the fingerprints agree, and what has none is a file in both trees or in neither, the files
are the same. -/
theorem isFile_eq_of_fingerprint {path : String}
    (hfingerprint : Fingerprint.ofContent (before.readBytes path) =
      Fingerprint.ofContent (after.readBytes path))
    (hmissing : Fingerprint.ofContent (before.readBytes path) = .missing →
      before.isFile path = after.isFile path) :
    before.isFile path = after.isFile path := by
  cases hbefore : Fingerprint.ofContent (before.readBytes path) with
  | missing => exact hmissing hbefore
  | present digest =>
    have hafter : Fingerprint.ofContent (after.readBytes path) = .present digest :=
      hfingerprint ▸ hbefore
    rw [isFile_of_fingerprint hbefore, isFile_of_fingerprint hafter]

/-- **A watcher sees every change of the schema module that content can make.** Suppose that the
snapshots of the candidates agree in two file trees, and that a candidate that cannot be read is a
file in both trees or in neither. Then either no candidate is a file in either tree, and both times
the error lists all of them; or both times the same candidate is chosen, the first that is a file,
and the schema module is its canonical path. -/
theorem source_of_snapshot_eq
    (hsnapshot : before.snapshot settings.candidatePaths = after.snapshot settings.candidatePaths)
    (hmissing : ∀ path ∈ settings.candidatePaths,
      Fingerprint.ofContent (before.readBytes path) = .missing →
        before.isFile path = after.isFile path) :
    ((∀ path ∈ settings.candidatePaths, before.isFile path = false ∧ after.isFile path = false) ∧
      before.source settings = .error (.missingEntry settings.candidatePaths) ∧
      after.source settings = .error (.missingEntry settings.candidatePaths)) ∨
    ∃ passed path others canonical canonical',
      settings.candidatePaths = passed ++ path :: others ∧
      (∀ earlier ∈ passed, before.isFile earlier = false ∧ after.isFile earlier = false) ∧
      before.canonicalPath path = .ok canonical ∧ before.source settings = .ok canonical ∧
      after.canonicalPath path = .ok canonical' ∧ after.source settings = .ok canonical' := by
  have hfile : ∀ path ∈ settings.candidatePaths, before.isFile path = after.isFile path := by
    intro path hpath
    rw [snapshot_eq, snapshot_eq] at hsnapshot
    exact isFile_eq_of_fingerprint (List.map_inj_left.1 hsnapshot path hpath) (hmissing path hpath)
  have hchosen : settings.candidatePaths.find? before.isFile =
      settings.candidatePaths.find? after.isFile := List.find?_congr hfile
  cases hfind : settings.candidatePaths.find? before.isFile with
  | none =>
    refine .inl ⟨fun path hpath ↦ ?_, source_eq_of_find?_eq_none before settings hfind,
      source_eq_of_find?_eq_none after settings (hchosen ▸ hfind)⟩
    have hbefore : before.isFile path = false := by simpa using List.find?_eq_none.1 hfind path hpath
    exact ⟨hbefore, hfile path hpath ▸ hbefore⟩
  | some path =>
    obtain ⟨canonical, hcanonical, hsource⟩ := source_eq_of_find?_eq_some before settings hfind
    obtain ⟨canonical', hcanonical', hsource'⟩ :=
      source_eq_of_find?_eq_some after settings (hchosen ▸ hfind)
    obtain ⟨-, passed, others, hsplit, hpassed⟩ := List.find?_eq_some_iff_append.1 hfind
    refine .inr ⟨passed, path, others, canonical, canonical', hsplit, fun earlier hearlier ↦ ?_,
      hcanonical, hsource, hcanonical', hsource'⟩
    have hbefore : before.isFile earlier = false := by simpa using hpassed earlier hearlier
    have hmem : earlier ∈ settings.candidatePaths := by
      rw [hsplit]
      exact List.mem_append_left _ hearlier
    exact ⟨hbefore, hfile earlier hmem ▸ hbefore⟩

end TwoTrees

/-! ### Two candidates -/

/-- A project with two candidates at the root of the file system. -/
def twoCandidates : Settings := { root := "/", candidates := ["a", "b"] }

/-- A file tree with something at the first candidate, and an empty file at the second. -/
def beside (node : FileNode) : FileTree :=
  { nodes := [("/a", node), ("/b", .file .empty true)] }

theorem candidatePaths_twoCandidates : twoCandidates.candidatePaths = ["/a", "/b"] := by decide

theorem find_second (node : FileNode) : (beside node).find "/b" = .ok (["b"], .file .empty true) := by
  cbv

theorem find_link : (beside (.link "b")).find "/a" = .ok (["b"], .file .empty true) := by cbv

theorem find_file (content : ByteArray) (readable : Bool) :
    (beside (.file content readable)).find "/a" = .ok (["a"], .file content readable) := by cbv

theorem find_directory : (beside .directory).find "/a" = .ok (["a"], .directory) := by cbv

theorem find_dangling : (beside (.link "c")).find "/a" = .error .notFound := by cbv

/-- The fingerprint of an empty file. -/
def emptyFingerprint : Fingerprint := .present (Sha256.digest .empty)

theorem snapshot_directory :
    (beside .directory).snapshot ["/a", "/b"] = [.missing, emptyFingerprint] := by
  rw [snapshot_eq, List.map_cons, List.map_cons, readBytes, readBytes, find_second, find_directory]
  rfl

theorem snapshot_file :
    (beside (.file .empty true)).snapshot ["/a", "/b"] = [emptyFingerprint, emptyFingerprint] := by
  rw [snapshot_eq, List.map_cons, List.map_cons, readBytes, readBytes, find_second, find_file]
  rfl

theorem contents_directory :
    (beside .directory).contents ["/a", "/b"] = [none, some .empty] := by
  rw [contents, List.map_cons, List.map_cons, readBytes, readBytes, find_second, find_directory]
  rfl

theorem contents_file :
    (beside (.file .empty true)).contents ["/a", "/b"] = [some .empty, some .empty] := by
  rw [contents, List.map_cons, List.map_cons, readBytes, readBytes, find_second, find_file]
  rfl

/-- Two trees differ at the first candidate only. -/
theorem snapshot_beside {node other : FileNode}
    (h : Fingerprint.ofContent ((beside node).readBytes "/a") =
      Fingerprint.ofContent ((beside other).readBytes "/a")) :
    (beside node).snapshot twoCandidates.candidatePaths =
      (beside other).snapshot twoCandidates.candidatePaths := by
  have hsecond : (beside node).readBytes "/b" = (beside other).readBytes "/b" := by
    rw [readBytes, readBytes, find_second, find_second]
  rw [snapshot_eq, snapshot_eq, candidatePaths_twoCandidates]
  simp only [List.map_cons, List.map_nil, h, hsecond]

/-- If the first candidate leads to a file, that is the schema module. -/
theorem source_first {node : FileNode} {place : List String} {content : ByteArray} {readable : Bool}
    (h : (beside node).find "/a" = .ok (place, .file content readable)) :
    (beside node).source twoCandidates = .ok (FilePath.ofComponents place) := by
  have hfile : (beside node).isFile "/a" = true := by rw [isFile, h]
  have hchosen : twoCandidates.candidatePaths.find? (beside node).isFile = some "/a" := by
    rw [candidatePaths_twoCandidates, List.find?_cons_of_pos hfile]
  obtain ⟨canonical, hcanonical, hsource⟩ := source_eq_of_find?_eq_some _ _ hchosen
  rw [canonicalPath, h] at hcanonical
  rw [hsource, ← Except.ok.inj hcanonical]

/-- Otherwise it is the second. -/
theorem source_second {node : FileNode} (h : (beside node).isFile "/a" = false) :
    (beside node).source twoCandidates = .ok "/b" := by
  have hfile : (beside node).isFile "/b" = true := by rw [isFile, find_second]
  have hchosen : twoCandidates.candidatePaths.find? (beside node).isFile = some "/b" := by
    rw [candidatePaths_twoCandidates, List.find?_cons_of_neg (by rw [h]; decide),
      List.find?_cons_of_pos hfile]
  obtain ⟨canonical, hcanonical, hsource⟩ := source_eq_of_find?_eq_some _ _ hchosen
  rw [canonicalPath, find_second] at hcanonical
  rw [hsource, ← Except.ok.inj hcanonical]
  decide

/-- A directory and a link that leads nowhere are both passed over for the second candidate. -/
theorem source_of_snapshot_eq_dangling :
    (beside .directory).snapshot twoCandidates.candidatePaths =
      (beside (.link "c")).snapshot twoCandidates.candidatePaths ∧
    (∀ path ∈ twoCandidates.candidatePaths,
      Fingerprint.ofContent ((beside .directory).readBytes path) = .missing →
        (beside .directory).isFile path = (beside (.link "c")).isFile path) ∧
    ∃ passed path others canonical canonical',
      twoCandidates.candidatePaths = passed ++ path :: others ∧
      (∀ earlier ∈ passed, (beside .directory).isFile earlier = false ∧
        (beside (.link "c")).isFile earlier = false) ∧
      (beside .directory).canonicalPath path = .ok canonical ∧
      (beside .directory).source twoCandidates = .ok canonical ∧
      (beside (.link "c")).canonicalPath path = .ok canonical' ∧
      (beside (.link "c")).source twoCandidates = .ok canonical' := by
  have hsnapshot : (beside .directory).snapshot twoCandidates.candidatePaths =
      (beside (.link "c")).snapshot twoCandidates.candidatePaths := by
    refine snapshot_beside ?_
    rw [readBytes, readBytes, find_directory, find_dangling]
    rfl
  have hmissing : ∀ path ∈ twoCandidates.candidatePaths,
      Fingerprint.ofContent ((beside .directory).readBytes path) = .missing →
        (beside .directory).isFile path = (beside (.link "c")).isFile path := by
    rw [candidatePaths_twoCandidates]
    simp [isFile, find_second, find_directory, find_dangling]
  have hsecond : (beside .directory).isFile "/b" = true := by rw [isFile, find_second]
  refine ⟨hsnapshot, hmissing, (source_of_snapshot_eq hsnapshot hmissing).resolve_left ?_⟩
  rintro ⟨hnone, -⟩
  cases hsecond.symm.trans (hnone "/b" (by decide)).1

/-- Neither the target of a link nor the mode of a file is in a snapshot, and both count for what the
schema module is: a link to the second candidate against a copy of it, and a directory against a file
that cannot be read. -/
theorem exists_source_ne_of_snapshot_eq :
    ((beside (.link "b")).snapshot twoCandidates.candidatePaths =
        (beside (.file .empty true)).snapshot twoCandidates.candidatePaths ∧
      (beside (.link "b")).source twoCandidates = .ok "/b" ∧
      (beside (.file .empty true)).source twoCandidates = .ok "/a") ∧
    ((beside .directory).snapshot twoCandidates.candidatePaths =
        (beside (.file .empty false)).snapshot twoCandidates.candidatePaths ∧
      (beside .directory).source twoCandidates = .ok "/b" ∧
      (beside (.file .empty false)).source twoCandidates = .ok "/a") := by
  refine ⟨⟨snapshot_beside ?_, source_first find_link, source_first (find_file _ _)⟩,
    snapshot_beside ?_, source_second ?_, source_first (find_file _ _)⟩
  · rw [readBytes, readBytes, find_link, find_file]
    rfl
  · rw [readBytes, readBytes, find_directory, find_file]
    rfl
  · rw [isFile, find_directory]

end FileTree

end ContentSchema
