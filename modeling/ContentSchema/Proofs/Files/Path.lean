import Mathlib.Data.String.Basic
import ContentSchema.Files.Path
/-!
# The parts of a path

A path is taken apart at its slashes. `splitOn_slash` says so on the list of its characters, where
the laws of splitting a list apply; `splitOn_join` is what follows for a path below another one: its
parts are those of the other one, without an empty part after a slash at the end, and then its name.

The name has to be a name (`IsName`): with a slash in it there would be more than one last part, and
an empty part or a dot does not go down into the directory.
-/

namespace ContentSchema.FilePath

/-! ### Splitting at slashes -/

/-- A separator of one character is found where that character is. -/
theorem splitOnAux_slash (path : String) (start here : String.Pos.Raw) (parts : List String) :
    path.splitOnAux "/" start here 0 parts = path.splitAux (· == '/') start here parts := by
  fun_induction String.splitAux path (· == '/') start here parts with
  | case1 start here parts hend parts' => rw [String.splitOnAux, if_pos hend]
  | case2 start here parts hend hdec hslash next ih =>
    have hchar : here.get path = '/' := by simpa using hslash
    have hnext : (here.next path).unoffsetBy (String.Pos.Raw.next "/" 0) = here := by
      rw [String.Pos.Raw.next, hchar]
      rfl
    rw [String.splitOnAux, if_neg hend]
    simp only [hchar]
    rw [if_pos (by decide), if_pos (by decide), hnext]
    exact ih
  | case3 start here parts hend hdec hslash ih =>
    have hsep : String.Pos.Raw.get "/" 0 = '/' := by decide
    rw [String.splitOnAux, if_neg hend, hsep, if_neg hslash]
    exact ih

/-- Splitting a path is splitting the list of its characters. -/
theorem splitOn_slash (path : String) :
    path.splitOn "/" = (path.toList.splitOnP (· == '/')).map String.ofList := by
  rw [← String.splitToList_of_valid]
  exact splitOnAux_slash path 0 0 []

theorem splitOn_of_plain {name : String} (hname : '/' ∉ name.toList) : name.splitOn "/" = [name] := by
  rw [splitOn_slash, List.splitOnP_eq_singleton]
  · simp
  · intro c hc
    exact beq_false_of_ne fun heq ↦ hname (heq ▸ hc)

/-- A slash between two texts splits them, whatever slashes they have themselves. -/
theorem splitOn_append_slash (base name : String) :
    (base ++ "/" ++ name).splitOn "/" = base.splitOn "/" ++ name.splitOn "/" := by
  have hchars : (base ++ "/" ++ name).toList = base.toList ++ '/' :: name.toList := by simp
  rw [splitOn_slash, hchars, List.splitOnP_append_cons _ _ (by decide), List.map_append,
    ← splitOn_slash, ← splitOn_slash]

/-! ### Names below a path -/

/-- A name that stands for what is below a directory: it has no slash and moves nowhere. -/
structure IsName (name : String) : Prop where
  noSlash : '/' ∉ name.toList
  ne_empty : name ≠ ""
  ne_dot : name ≠ "."
  ne_dots : name ≠ ".."

theorem IsName.isAbsolute_eq_false {name : String} (h : IsName name) : isAbsolute name = false := by
  unfold isAbsolute
  cases hchars : name.toList with
  | nil => rfl
  | cons c rest =>
    have hc : c ≠ '/' := fun heq ↦ h.noSlash (by rw [hchars, heq]; exact List.mem_cons_self)
    simpa using hc

/-- Whether a path is absolute is decided by its first character, so nothing behind it matters. -/
theorem isAbsolute_append {base : String} (hbase : base ≠ "") (rest : String) :
    isAbsolute (base ++ rest) = isAbsolute base := by
  have hchars : base.toList ≠ [] := by simpa using hbase
  rw [isAbsolute, isAbsolute, String.toList_append, List.head?_append, List.head?_eq_some_head hchars]
  rfl

/-- The path of a name below another path goes on after all of that path, and its parts are those of
the other path, an empty one at the end left out, and the name. -/
theorem splitOn_join {base : String} (hbase : base ≠ "") {name : String} (hname : IsName name) :
    ∃ rest parts, join base name = base ++ rest ∧ (join base name).splitOn "/" = parts ++ [name] ∧
      (base.splitOn "/" = parts ∨ base.splitOn "/" = parts ++ [""]) := by
  have hsplit := splitOn_of_plain hname.noSlash
  have hempty : base.isEmpty = false := by simpa using hbase
  unfold join
  rw [hname.isAbsolute_eq_false, hempty]
  by_cases hlast : base.toList.getLast? = some '/'
  · obtain ⟨chars, hchars⟩ := List.getLast?_eq_some_iff.1 hlast
    have hbase : base = String.ofList chars ++ "/" := String.toList_inj.1 (by simp [hchars])
    refine ⟨name, (String.ofList chars).splitOn "/", by simp [hlast], ?_, .inr ?_⟩
    · have happend := splitOn_append_slash (String.ofList chars) name
      rw [← hbase, hsplit] at happend
      simpa [hlast] using happend
    · have happend := splitOn_append_slash (String.ofList chars) ""
      rw [String.append_empty, ← hbase] at happend
      have hempty : "".splitOn "/" = [""] := splitOn_of_plain (by decide)
      rw [happend, hempty]
  · refine ⟨"/" ++ name, base.splitOn "/", by simp [hlast, String.append_assoc], ?_, .inl rfl⟩
    have happend := splitOn_append_slash base name
    rw [hsplit] at happend
    simpa [hlast] using happend

end ContentSchema.FilePath
