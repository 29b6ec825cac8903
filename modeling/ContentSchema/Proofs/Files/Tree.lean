import ContentSchema.Files.Tree
import ContentSchema.Proofs.Files.Path
import ContentSchema.Proofs.Keyed
/-!
# Looking up paths in growing trees

Making a file or a directory adds to a tree what was free before (`make_eq_ok_iff`), and nothing that
could be looked up before is looked up differently after it: `locate_adding` and `find_adding` say so
of a tree with any more in it. A path along which something was made leads to it (`find_of_locate`),
writing to a file that was just made leaves the tree as if it had been made with that content
(`exists_writeFile_of_createFile`), and removing it gives back the very tree that there was before
(`removeFile_of_createFile`).

All of this rests on `Walks`, the look-ups that come to an end as an inductive relation with one
constructor per way of going on. `walk_eq_ok_iff` ties it to the function, and from there on a fact
about look-ups is an induction on the walk. One more such fact is `exists_directoryAt_of_locate_join`:
a name joined to the path of a directory is looked up in that directory, links and dots on the way
notwithstanding.
-/

namespace ContentSchema

namespace FileTree

/-! ### More in a tree -/

/-- A tree with more in it. -/
def adding (tree : FileTree) (added : Keyed FileNode) : FileTree :=
  { tree with nodes := tree.nodes ++ added }

@[simp] theorem adding_nil (tree : FileTree) : tree.adding [] = tree := by simp [adding]

@[simp] theorem adding_adding (tree : FileTree) (added others : Keyed FileNode) :
    (tree.adding added).adding others = tree.adding (added ++ others) := by
  simp [adding]

/-- What stood somewhere stands there still, and only where nothing stood there is more. -/
theorem nodeAt?_adding (tree : FileTree) (added : Keyed FileNode) (place : List String) :
    (tree.adding added).nodeAt? place =
      (tree.nodeAt? place).or (added.find? (FilePath.ofComponents place)) := by
  unfold nodeAt? adding
  split
  · rfl
  · exact Keyed.find?_append ..

/-- A free place is no place of the tree; the root, which is not listed, is never free. -/
theorem notMem_keys_of_nodeAt?_eq_none {tree : FileTree} {place : List String}
    (h : tree.nodeAt? place = none) : FilePath.ofComponents place ∉ tree.nodes.keys := by
  unfold nodeAt? at h
  split at h
  · cases h
  · exact Keyed.find?_eq_none_iff.1 h

/-- Something new is put after all else. -/
theorem put_of_nodeAt?_eq_none {tree : FileTree} {place : List String}
    (h : tree.nodeAt? place = none) (node : FileNode) :
    tree.put place node = tree.adding [(FilePath.ofComponents place, node)] := by
  rw [put, Keyed.insert_of_notMem_keys (notMem_keys_of_nodeAt?_eq_none h)]
  rfl

/-- What is put at the place of something new takes its place. -/
theorem put_adding {tree : FileTree} {place : List String} (h : tree.nodeAt? place = none)
    (node other : FileNode) :
    (tree.adding [(FilePath.ofComponents place, node)]).put place other =
      tree.adding [(FilePath.ofComponents place, other)] := by
  have hnew := notMem_keys_of_nodeAt?_eq_none h
  have hinsert := Keyed.insert_insert tree.nodes (FilePath.ofComponents place) node other
  rw [Keyed.insert_of_notMem_keys hnew, Keyed.insert_of_notMem_keys hnew] at hinsert
  rw [put, adding, hinsert]
  rfl

/-- What was new is taken away without a trace. -/
theorem clear_adding {tree : FileTree} {place : List String} (h : tree.nodeAt? place = none)
    (node : FileNode) : (tree.adding [(FilePath.ofComponents place, node)]).clear place = tree := by
  have hnew := notMem_keys_of_nodeAt?_eq_none h
  have herase := Keyed.erase_insert_of_not_mem tree.nodes _ node hnew
  rw [Keyed.insert_of_notMem_keys hnew] at herase
  rw [clear, adding, herase]

/-! ### Walks -/

/-- A part is the name of something in a directory. -/
structure NamesIn (tree : FileTree) (here : List String) (part : String) : Prop where
  directory : tree.nodeAt? here = some .directory
  notVoid : ¬(part = "" ∨ part = ".")
  ne_dots : part ≠ ".."
  size_le : part.utf8ByteSize ≤ 255

/-- The walks that come to an end, step by step. -/
inductive Walks (tree : FileTree) (follow : Bool) :
    Nat → List String → List String → List String → Prop where
  | done {links : Nat} {here : List String} : Walks tree follow links here [] here
  | stay {links : Nat} {here rest place : List String} {part : String}
      (hdir : tree.nodeAt? here = some .directory) (hvoid : part = "" ∨ part = ".")
      (h : Walks tree follow links here rest place) : Walks tree follow links here (part :: rest) place
  | up {links : Nat} {here rest place : List String} (hdir : tree.nodeAt? here = some .directory)
      (h : Walks tree follow links here.dropLast rest place) :
      Walks tree follow links here (".." :: rest) place
  | free {links : Nat} {here : List String} {part : String} (hname : tree.NamesIn here part)
      (hnode : tree.nodeAt? (here ++ [part]) = none) :
      Walks tree follow links here [part] (here ++ [part])
  | link {links : Nat} {here : List String} {part target : String} (hname : tree.NamesIn here part)
      (hnode : tree.nodeAt? (here ++ [part]) = some (.link target)) (hfollow : follow = false) :
      Walks tree follow links here [part] (here ++ [part])
  | follow {links : Nat} {here rest place : List String} {part target : String}
      (hname : tree.NamesIn here part)
      (hnode : tree.nodeAt? (here ++ [part]) = some (.link target))
      (hfollow : rest = [] → follow = true)
      (h : Walks tree follow links (if FilePath.isAbsolute target then [] else here)
        (target.splitOn "/" ++ rest) place) :
      Walks tree follow (links + 1) here (part :: rest) place
  | enter {links : Nat} {here rest place : List String} {part : String} {node : FileNode}
      (hname : tree.NamesIn here part) (hnode : tree.nodeAt? (here ++ [part]) = some node)
      (hlink : ∀ target, node ≠ .link target)
      (h : Walks tree follow links (here ++ [part]) rest place) :
      Walks tree follow links here (part :: rest) place

section Walk

variable {tree : FileTree} {follow : Bool} {links : Nat} {here parts place : List String}

/-- At the name of something a walk looks at what stands there. -/
theorem NamesIn.walk_cons {part : String} (hname : tree.NamesIn here part) (rest : List String) :
    tree.walk follow links here (part :: rest) =
      match tree.nodeAt? (here ++ [part]) with
      | none => if rest.isEmpty then .ok (here ++ [part]) else .error .notFound
      | some (.link target) =>
        if rest.isEmpty && !follow then .ok (here ++ [part])
        else
          match links with
          | 0 => .error .tooManyLinks
          | links + 1 =>
            tree.walk follow links (if FilePath.isAbsolute target then [] else here)
              (target.splitOn "/" ++ rest)
      | some _ => tree.walk follow links (here ++ [part]) rest := by
  have hvoid : (decide (part = "") || decide (part = ".")) = false := by simpa using hname.notVoid
  have hsize : ¬255 < part.utf8ByteSize := not_lt.2 hname.size_le
  rcases hnode : tree.nodeAt? (here ++ [part]) with _ | _ | _ | target <;> cases links
  all_goals
    rw [walk]
    simp only [hname.directory, ne_eq, not_true, if_false, hvoid, Bool.false_eq_true,
      hname.ne_dots, hsize, hnode]

/-- What a walk has found out about a part when it looks at what stands there. -/
theorem namesIn_of_not {part : String} (hdir : ¬tree.nodeAt? here ≠ some .directory)
    (hvoid : ¬(decide (part = "") || decide (part = ".")) = true) (hdots : ¬part = "..")
    (hsize : ¬255 < part.utf8ByteSize) : tree.NamesIn here part where
  directory := not_not.1 hdir
  notVoid := by simpa using hvoid
  ne_dots := hdots
  size_le := not_lt.1 hsize

/-- The function that looks up a path finds a place just when there is a walk to it. -/
theorem walk_eq_ok_iff :
    tree.walk follow links here parts = .ok place ↔ tree.Walks follow links here parts place := by
  constructor
  · intro h
    fun_induction walk tree follow links here parts with
    | case1 links here =>
      obtain rfl := Except.ok.inj h
      exact .done
    | case3 links here part rest hdir hvoid ih =>
      exact .stay (not_not.1 hdir) (by simpa using hvoid) (ih h)
    | case4 links here rest hdir hvoid ih => exact .up (not_not.1 hdir) (ih h)
    | case6 links here part rest hdir hvoid hdots hsize hnode hrest =>
      obtain rfl := Except.ok.inj h
      obtain rfl := List.isEmpty_iff.1 hrest
      exact .free (namesIn_of_not hdir hvoid hdots hsize) hnode
    | case8 links here part rest hdir hvoid hdots hsize target hnode hend =>
      obtain rfl := Except.ok.inj h
      obtain ⟨hrest, hfollow⟩ := Bool.and_eq_true_iff.1 hend
      obtain rfl := List.isEmpty_iff.1 hrest
      exact .link (namesIn_of_not hdir hvoid hdots hsize) hnode (by simpa using hfollow)
    | case10 here part rest hdir hvoid hdots hsize target hnode hend links ih =>
      refine .follow (namesIn_of_not hdir hvoid hdots hsize) hnode ?_ (ih h)
      rintro rfl
      simpa using hend
    | case11 links here part rest hdir hvoid hdots hsize node hlink hnode ih =>
      exact .enter (namesIn_of_not hdir hvoid hdots hsize) hnode hlink (ih h)
    | case2 | case5 | case7 | case9 => cases h
  · intro h
    induction h with
    | done => rw [walk]
    | stay hdir hvoid h ih =>
      rw [walk, if_neg (not_not.2 hdir), if_pos (by simpa using hvoid)]
      exact ih
    | up hdir h ih =>
      rw [walk, if_neg (not_not.2 hdir), if_neg (by decide), if_pos rfl]
      exact ih
    | free hname hnode =>
      rw [hname.walk_cons, hnode]
      rfl
    | link hname hnode hfollow =>
      rw [hname.walk_cons, hnode, hfollow]
      rfl
    | @follow links here rest place part target hname hnode hfollow h ih =>
      -- a link in the middle of a path is followed even where the last one is not
      have hgo : (rest.isEmpty && !follow) = false := by
        cases rest with
        | nil => simpa using hfollow rfl
        | cons _ _ => rfl
      rw [hname.walk_cons, hnode]
      simpa only [hgo, Bool.false_eq_true, if_false] using ih
    | enter hname hnode hlink h ih =>
      rw [hname.walk_cons, hnode]
      split
      next heq => cases heq
      next target heq => exact absurd (Option.some.inj heq) (hlink target)
      next => exact ih

/-! ### What a walk depends on -/

theorem NamesIn.adding {part : String} (h : tree.NamesIn here part) (added : Keyed FileNode) :
    (tree.adding added).NamesIn here part :=
  { h with directory := by rw [nodeAt?_adding, h.directory, Option.some_or] }

/-- A walk goes the same way in a larger tree, unless a link was put where it ends. -/
theorem Walks.adding {added : Keyed FileNode} (h : tree.Walks follow links here parts place)
    (hlink : ∀ target, (tree.adding added).nodeAt? place = some (.link target) →
      tree.nodeAt? place ≠ none) :
    (tree.adding added).Walks follow links here parts place := by
  have hkeeps : ∀ {place : List String} {node : FileNode}, tree.nodeAt? place = some node →
      (tree.adding added).nodeAt? place = some node := by
    intro place node hnode
    rw [nodeAt?_adding, hnode, Option.some_or]
  induction h with
  | done => exact .done
  | stay hdir hvoid h ih => exact .stay (hkeeps hdir) hvoid (ih hlink)
  | up hdir h ih => exact .up (hkeeps hdir) (ih hlink)
  | @free links here part hname hnode =>
    -- the free name at the end may have been taken, and then it is entered
    cases hnew : (tree.adding added).nodeAt? (here ++ [part]) with
    | none => exact .free (hname.adding added) hnew
    | some node =>
      refine .enter (hname.adding added) hnew (fun target heq ↦ ?_) .done
      exact hlink target (heq ▸ hnew) hnode
  | link hname hnode hfollow => exact .link (hname.adding added) (hkeeps hnode) hfollow
  | follow hname hnode hfollow h ih =>
    exact .follow (hname.adding added) (hkeeps hnode) hfollow (ih hlink)
  | enter hname hnode hkind h ih =>
    exact .enter (hname.adding added) (hkeeps hnode) hkind (ih hlink)

/-- A walk that ends where no link stands ends there as well if it would follow one. -/
theorem Walks.follow_true (h : tree.Walks follow links here parts place)
    (hlink : ∀ target, tree.nodeAt? place ≠ some (.link target)) :
    tree.Walks true links here parts place := by
  induction h with
  | done => exact .done
  | stay hdir hvoid h ih => exact .stay hdir hvoid (ih hlink)
  | up hdir h ih => exact .up hdir (ih hlink)
  | free hname hnode => exact .free hname hnode
  | link hname hnode hfollow => exact absurd hnode (hlink _)
  | follow hname hnode hfollow h ih => exact .follow hname hnode (fun _ ↦ rfl) (ih hlink)
  | enter hname hnode hkind h ih => exact .enter hname hnode hkind (ih hlink)

/-- A walk along more parts goes where the first of them lead, and on from there. -/
theorem Walks.exists_of_append {rest : List String}
    (h : tree.Walks follow links here (parts ++ rest) place) (hrest : rest ≠ []) :
    ∃ left directory, tree.Walks follow left directory rest place ∧
      ∀ {others target}, tree.Walks true left directory others target →
        tree.Walks true links here (parts ++ others) target := by
  generalize hall : parts ++ rest = all at h
  -- until the first parts are used up, more parts follow, so that every link is followed
  induction h generalizing parts with
  | done => exact absurd (List.append_eq_nil_iff.1 hall).2 hrest
  | @stay links here others place part hdir hvoid h ih =>
    rcases parts with _ | ⟨first, parts⟩
    · obtain rfl : rest = part :: others := hall
      exact ⟨links, here, .stay hdir hvoid h, id⟩
    · obtain ⟨rfl, htail⟩ := List.cons.inj hall
      obtain ⟨left, directory, hlast, hgo⟩ := ih htail
      exact ⟨left, directory, hlast, fun h ↦ .stay hdir hvoid (hgo h)⟩
  | @up links here others place hdir h ih =>
    rcases parts with _ | ⟨first, parts⟩
    · obtain rfl : rest = ".." :: others := hall
      exact ⟨links, here, .up hdir h, id⟩
    · obtain ⟨rfl, htail⟩ := List.cons.inj hall
      obtain ⟨left, directory, hlast, hgo⟩ := ih htail
      exact ⟨left, directory, hlast, fun h ↦ .up hdir (hgo h)⟩
  | @free links here part hname hnode =>
    rcases parts with _ | ⟨first, parts⟩
    · obtain rfl : rest = [part] := hall
      exact ⟨links, here, .free hname hnode, id⟩
    · obtain ⟨-, hall⟩ := List.cons.inj hall
      exact absurd (List.append_eq_nil_iff.1 hall).2 hrest
  | @link links here part target hname hnode hfollow =>
    rcases parts with _ | ⟨first, parts⟩
    · obtain rfl : rest = [part] := hall
      exact ⟨links, here, .link hname hnode hfollow, id⟩
    · obtain ⟨-, hall⟩ := List.cons.inj hall
      exact absurd (List.append_eq_nil_iff.1 hall).2 hrest
  | @follow links here others place part target hname hnode hfollow h ih =>
    rcases parts with _ | ⟨first, parts⟩
    · obtain rfl : rest = part :: others := hall
      exact ⟨links + 1, here, .follow hname hnode hfollow h, id⟩
    · obtain ⟨rfl, htail⟩ := List.cons.inj hall
      obtain ⟨left, directory, hlast, hgo⟩ := ih ((List.append_assoc ..).trans (congrArg _ htail))
      refine ⟨left, directory, hlast, fun h ↦ .follow hname hnode (fun _ ↦ rfl) ?_⟩
      exact List.append_assoc .. ▸ hgo h
  | @enter links here others place part node hname hnode hlink h ih =>
    rcases parts with _ | ⟨first, parts⟩
    · obtain rfl : rest = part :: others := hall
      exact ⟨links, here, .enter hname hnode hlink h, id⟩
    · obtain ⟨rfl, htail⟩ := List.cons.inj hall
      obtain ⟨left, directory, hlast, hgo⟩ := ih htail
      exact ⟨left, directory, hlast, fun h ↦ .enter hname hnode hlink (hgo h)⟩

/-- A walk to a name below some parts ends in the directory that the parts lead to. -/
theorem Walks.exists_directory {name : String} (hname : FilePath.IsName name)
    (h : tree.Walks false links here (parts ++ [name]) place) :
    ∃ directory, place = directory ++ [name] ∧ tree.nodeAt? directory = some .directory ∧
      tree.Walks true links here parts directory ∧
      tree.Walks true links here (parts ++ [""]) directory := by
  obtain ⟨left, directory, hlast, hgo⟩ := h.exists_of_append (List.cons_ne_nil _ _)
  have hplace : place = directory ++ [name] ∧ tree.nodeAt? directory = some .directory := by
    cases hlast with
    | stay hdir hvoid h => exact absurd hvoid (not_or.2 ⟨hname.ne_empty, hname.ne_dot⟩)
    | up hdir h => exact absurd rfl hname.ne_dots
    | free hin hnode | link hin hnode hfollow => exact ⟨rfl, hin.directory⟩
    | follow hin hnode hfollow h => cases hfollow rfl
    | enter hin hnode hlink h =>
      cases h
      exact ⟨rfl, hin.directory⟩
  refine ⟨directory, hplace.1, hplace.2, ?_, hgo (.stay hplace.2 (.inl rfl) .done)⟩
  simpa using hgo .done

end Walk

/-! ### Paths -/

/-- A path that can be looked up. -/
structure IsLegal (path : String) : Prop where
  noZero : path.contains (Char.ofNat 0) = false
  ne_empty : path ≠ ""
  size_le : path.utf8ByteSize ≤ 4095

section Path

variable {tree changed : FileTree} {follow : Bool} {path : String} {place : List String}
variable {node : FileNode}

/-- A path is located by a walk along its parts, from the root or from the working directory. -/
theorem locate_eq_ok_iff :
    tree.locate path follow = .ok place ↔ IsLegal path ∧
      tree.Walks follow maxLinks (if FilePath.isAbsolute path then [] else tree.workingDirectory)
        (path.splitOn "/") place := by
  rw [← walk_eq_ok_iff, locate]
  constructor
  · intro h
    split at h
    · cases h
    next hzero =>
      split at h
      · cases h
      next hempty =>
        split at h
        · cases h
        next hsize => exact ⟨⟨by simpa using hzero, hempty, not_lt.1 hsize⟩, h⟩
  · rintro ⟨⟨hzero, hempty, hsize⟩, h⟩
    rw [if_neg (by simp [hzero]), if_neg hempty, if_neg (not_lt.2 hsize)]
    exact h

theorem find_of_nodeAt? (hplace : tree.locate path true = .ok place)
    (hnode : tree.nodeAt? place = some node) : tree.find path = .ok (place, node) := by
  simp [find, hplace, hnode, bind, Except.bind, pure, Except.pure]

theorem find_of_nodeAt?_eq_none (hplace : tree.locate path true = .ok place)
    (hnode : tree.nodeAt? place = none) : tree.find path = .error .notFound := by
  simp [find, hplace, hnode, bind, Except.bind, throw, throwThe, MonadExceptOf.throw]

/-- What a path leads to is what stands at its place, links followed. -/
theorem find_eq_ok_iff :
    tree.find path = .ok (place, node) ↔
      tree.locate path true = .ok place ∧ tree.nodeAt? place = some node := by
  refine ⟨fun h ↦ ?_, fun ⟨hplace, hnode⟩ ↦ find_of_nodeAt? hplace hnode⟩
  cases hfound : tree.locate path true with
  | error error =>
    rw [find, hfound] at h
    cases h
  | ok found =>
    cases hnode : tree.nodeAt? found with
    | none => cases (find_of_nodeAt?_eq_none hfound hnode).symm.trans h
    | some other =>
      obtain ⟨rfl, rfl⟩ :=
        Prod.mk.inj (Except.ok.inj ((find_of_nodeAt? hfound hnode).symm.trans h))
      exact ⟨rfl, hnode⟩

/-- A path is located at the same place in a larger tree, unless a link was put there. -/
theorem locate_adding {added : Keyed FileNode} (h : tree.locate path follow = .ok place)
    (hlink : ∀ target, (tree.adding added).nodeAt? place = some (.link target) →
      tree.nodeAt? place ≠ none) :
    (tree.adding added).locate path follow = .ok place := by
  obtain ⟨hlegal, hwalks⟩ := locate_eq_ok_iff.1 h
  exact locate_eq_ok_iff.2 ⟨hlegal, hwalks.adding hlink⟩

/-- What a path leads to is found in a larger tree as well. -/
theorem find_adding (h : tree.find path = .ok (place, node)) (added : Keyed FileNode) :
    (tree.adding added).find path = .ok (place, node) := by
  obtain ⟨hplace, hnode⟩ := find_eq_ok_iff.1 h
  refine find_eq_ok_iff.2 ⟨locate_adding hplace fun _ _ ↦ ?_, ?_⟩
  · rw [hnode]
    exact Option.some_ne_none node
  · rw [nodeAt?_adding, hnode, Option.some_or]

/-- Something is made at a place that is free. -/
theorem make_of_nodeAt?_eq_none (hplace : tree.locate path false = .ok place)
    (hnode : tree.nodeAt? place = none) :
    tree.make path node = .ok (tree.adding [(FilePath.ofComponents place, node)]) := by
  rw [← put_of_nodeAt?_eq_none hnode]
  simp [make, hplace, hnode, bind, Except.bind, pure, Except.pure]

theorem make_of_nodeAt? {other : FileNode} (hplace : tree.locate path false = .ok place)
    (hnode : tree.nodeAt? place = some other) : tree.make path node = .error .alreadyExists := by
  simp [make, hplace, hnode, bind, Except.bind, throw, throwThe, MonadExceptOf.throw]

/-- Something can be made just where a path ends at a free place, and it is added there. -/
theorem make_eq_ok_iff :
    tree.make path node = .ok changed ↔ ∃ place, tree.locate path false = .ok place ∧
      tree.nodeAt? place = none ∧ changed = tree.adding [(FilePath.ofComponents place, node)] := by
  refine ⟨fun h ↦ ?_, ?_⟩
  · cases hfound : tree.locate path false with
    | error error =>
      rw [make, hfound] at h
      cases h
    | ok found =>
      cases hnode : tree.nodeAt? found with
      | none =>
        have hmake := (make_of_nodeAt?_eq_none hfound hnode).symm.trans h
        exact ⟨found, rfl, hnode, (Except.ok.inj hmake).symm⟩
      | some other => cases (make_of_nodeAt? hfound hnode).symm.trans h
  · rintro ⟨place, hplace, hnode, rfl⟩
    exact make_of_nodeAt?_eq_none hplace hnode

theorem nodeAt?_adding_self (hfree : tree.nodeAt? place = none) (node : FileNode) :
    (tree.adding [(FilePath.ofComponents place, node)]).nodeAt? place = some node := by
  rw [nodeAt?_adding, hfree, Option.none_or, Keyed.find?_cons, if_pos rfl]

/-- A path along which a file or directory is made leads there from then on. -/
theorem find_of_locate (node : FileNode) (hkind : ∀ target, node ≠ .link target)
    (hplace : tree.locate path false = .ok place) (hfree : tree.nodeAt? place = none) :
    (tree.adding [(FilePath.ofComponents place, node)]).locate path false = .ok place ∧
      (tree.adding [(FilePath.ofComponents place, node)]).find path = .ok (place, node) := by
  have hnode := nodeAt?_adding_self hfree node
  have hlink : ∀ target, (tree.adding [(FilePath.ofComponents place, node)]).nodeAt? place ≠
      some (.link target) := by
    intro target
    rw [hnode]
    exact fun heq ↦ hkind target (Option.some.inj heq)
  have hlocate : (tree.adding [(FilePath.ofComponents place, node)]).locate path false = .ok place :=
    locate_adding hplace fun target htarget ↦ absurd htarget (hlink target)
  obtain ⟨hlegal, hwalks⟩ := locate_eq_ok_iff.1 hlocate
  exact ⟨hlocate, find_eq_ok_iff.2 ⟨locate_eq_ok_iff.2 ⟨hlegal, hwalks.follow_true hlink⟩, hnode⟩⟩

/-- Removing a file that was just made leaves the tree that there was before. -/
theorem removeFile_of_createFile {content : ByteArray}
    (h : tree.createFile path content = .ok changed) : changed.removeFile path = .ok tree := by
  obtain ⟨place, hplace, hfree, rfl⟩ := make_eq_ok_iff.1 h
  obtain ⟨hlocate, -⟩ := find_of_locate (.file content true) nofun hplace hfree
  have hnode := nodeAt?_adding_self hfree (.file content true)
  simp [removeFile, hlocate, hnode, clear_adding hfree, bind, Except.bind, pure, Except.pure]

/-- Writing to a file that was just made leaves the tree as if it had been made with the new content. -/
theorem exists_writeFile_of_createFile {old : ByteArray}
    (h : tree.createFile path old = .ok changed) (content : ByteArray) :
    ∃ written, changed.writeFile path content = .ok written ∧
      tree.createFile path content = .ok written := by
  obtain ⟨place, hplace, hfree, rfl⟩ := make_eq_ok_iff.1 h
  obtain ⟨-, hfind⟩ := find_of_locate (.file old true) nofun hplace hfree
  obtain ⟨hlocate, hnode⟩ := find_eq_ok_iff.1 hfind
  refine ⟨_, ?_, make_of_nodeAt?_eq_none hplace hfree⟩
  simp [writeFile, hlocate, hnode, put_adding hfree, bind, Except.bind, pure, Except.pure]

end Path

/-! ### Names in a directory -/

/-- The directory at a path stands at a place; an empty path is the working directory. -/
def DirectoryAt (tree : FileTree) (path : String) (place : List String) : Prop :=
  if path = "" then place = tree.workingDirectory ∧ tree.nodeAt? place = some .directory
  else tree.find path = .ok (place, .directory)

/-- A directory stays where it is when more is added to the tree. -/
theorem DirectoryAt.adding {tree : FileTree} {path : String} {place : List String}
    (h : tree.DirectoryAt path place) (added : Keyed FileNode) :
    (tree.adding added).DirectoryAt path place := by
  unfold DirectoryAt at h ⊢
  split
  next hempty =>
    rw [if_pos hempty] at h
    exact ⟨h.1, by rw [nodeAt?_adding, h.2, Option.some_or]⟩
  next hempty =>
    rw [if_neg hempty] at h
    exact find_adding h added

/-- A name that is joined to the path of a directory is looked up in that directory. -/
theorem exists_directoryAt_of_locate_join {tree : FileTree} {directory name : String}
    {place : List String} (hname : FilePath.IsName name)
    (h : tree.locate (FilePath.join directory name) false = .ok place) :
    ∃ above, tree.DirectoryAt directory above ∧ place = above ++ [name] := by
  obtain ⟨hlegal, hwalks⟩ := locate_eq_ok_iff.1 h
  unfold DirectoryAt
  split
  next hempty =>
    subst hempty
    have hjoin : FilePath.join "" name = name := by
      simp [FilePath.join, hname.isAbsolute_eq_false]
    rw [hjoin, hname.isAbsolute_eq_false, FilePath.splitOn_of_plain hname.noSlash] at hwalks
    have hwalks' : tree.Walks false maxLinks tree.workingDirectory ([] ++ [name]) place := hwalks
    obtain ⟨above, rfl, hdir, hto, -⟩ := hwalks'.exists_directory hname
    cases hto
    exact ⟨_, ⟨rfl, hdir⟩, rfl⟩
  next hempty =>
    obtain ⟨rest, parts, hjoin, hparts, hsplit⟩ := FilePath.splitOn_join hempty hname
    rw [hparts, hjoin, FilePath.isAbsolute_append hempty] at hwalks
    obtain ⟨above, rfl, hdir, hto, hto'⟩ := hwalks.exists_directory hname
    -- a part of a legal path has no zero byte either and is no longer than the path
    have hlegal' : IsLegal directory := by
      obtain ⟨hzero, -, hsize⟩ := hjoin ▸ hlegal
      refine ⟨?_, hempty, ?_⟩
      · simp only [String.contains_char_eq, String.toList_append, List.mem_append,
          decide_eq_false_iff_not, not_or] at hzero ⊢
        exact hzero.1
      · rw [String.utf8ByteSize_append] at hsize
        omega
    refine ⟨above, find_eq_ok_iff.2 ⟨locate_eq_ok_iff.2 ⟨hlegal', ?_⟩, hdir⟩, rfl⟩
    rcases hsplit with hsplit | hsplit
    · rwa [hsplit]
    · rwa [hsplit]

/-- A name in the root is looked up there, if it is not the name of a link. -/
theorem locate_join_root {tree : FileTree} {name : String} (hname : FilePath.IsName name)
    (hlegal : IsLegal (FilePath.join "/" name)) (hsize : name.utf8ByteSize ≤ 255)
    (hlink : ∀ target, tree.nodeAt? [name] ≠ some (.link target)) :
    tree.locate (FilePath.join "/" name) false = .ok [name] := by
  have hjoin : FilePath.join "/" name = "/" ++ name := by
    simp [FilePath.join, hname.isAbsolute_eq_false]
  have hsplit : ("/" ++ name).splitOn "/" = ["", name] := by
    have happend := FilePath.splitOn_append_slash "" name
    have hempty : "".splitOn "/" = [""] := FilePath.splitOn_of_plain (by decide)
    have hself := FilePath.splitOn_of_plain hname.noSlash
    rwa [String.empty_append, hself, hempty] at happend
  have habs : FilePath.isAbsolute ("/" ++ name) = true := by simp [FilePath.isAbsolute]
  have hin : tree.NamesIn [] name :=
    ⟨rfl, not_or.2 ⟨hname.ne_empty, hname.ne_dot⟩, hname.ne_dots, hsize⟩
  refine locate_eq_ok_iff.2 ⟨hlegal, ?_⟩
  rw [hjoin, hsplit, habs]
  refine .stay rfl (.inl rfl) ?_
  cases hnode : tree.nodeAt? ([] ++ [name]) with
  | none => exact .free hin hnode
  | some node => exact .enter hin hnode (fun target heq ↦ hlink target (heq ▸ hnode)) .done

end FileTree

end ContentSchema
