import Mathlib.Algebra.BigOperators.Group.List.Basic
import Mathlib.Algebra.GroupWithZero.Nat
/-!
# Tables in text

A table of a page is a line of titles, a line of dashes and a line for each row, up to an empty line
(`IsTable`). A line is parted into cells by its bare pipes, those that no backslash stands before; a
line with a pipe at each end has one pipe more than cells. The lines are those of a Markdown page: a
carriage return alone ends one too, which it does not in the text of a program (`linesOf`).

`Fits` says which texts stand in a cell without parting anything: those without a line's ending and
without a bare pipe. A table that is written row by row is that table exactly if all cells fit
(`isTable_written`), and with a cell that does not it has not even as many lines of as many cells
(`forall_fits_of_isTable`); `isTable_written_iff` puts both together.
-/

namespace ContentSchema

namespace Markdown

/-! ### Lines -/

/-- The lines of a page. A line ends at a line feed, at a carriage return, or at both in this order,
and the last one at the end of the page. -/
def lines : List Char → List (List Char)
  | [] => [[]]
  | c :: rest =>
    if c = '\n' ∨ c = '\r' ∧ rest.head? ≠ some '\n' then [] :: lines rest
    else if c = '\r' then lines rest
    else (lines rest).modifyHead (c :: ·)

/-- No line ends inside the text. -/
def Unbroken (text : List Char) : Prop := ∀ c ∈ text, c ≠ '\n' ∧ c ≠ '\r'

-- by the list and not over all characters, of which there are finitely many
instance (text : List Char) : Decidable (Unbroken text) :=
  List.decidableBAll _ text

theorem unbroken_append {text other : List Char} :
    Unbroken (text ++ other) ↔ Unbroken text ∧ Unbroken other := List.forall_mem_append

/-- Even the empty text is one line. -/
theorem lines_ne_nil (text : List Char) : lines text ≠ [] := by
  induction text with
  | nil => simp [lines]
  | cons c rest ih =>
    rw [lines]
    split_ifs
    · simp
    · exact ih
    · simpa using ih

theorem lines_of_unbroken {text : List Char} (h : Unbroken text) : lines text = [text] := by
  induction text with
  | nil => rfl
  | cons c rest ih =>
    obtain ⟨⟨hfeed, hreturn⟩, hrest⟩ := List.forall_mem_cons.1 h
    rw [lines, if_neg (by simp [hfeed, hreturn]), if_neg hreturn, ih hrest]
    rfl

/-- No line ends inside a text of one line. -/
theorem unbroken_of_lines {text line : List Char} (h : lines text = [line]) : Unbroken text := by
  induction text generalizing line with
  | nil => exact List.forall_mem_nil _
  | cons c rest ih =>
    rw [lines] at h
    split_ifs at h with hends hreturn
    · exact absurd (List.cons.inj h).2 (lines_ne_nil rest)
    · -- the return belongs to the line feed behind it, which ends the line
      obtain ⟨more, rfl⟩ : ∃ more, rest = '\n' :: more := by
        simpa [hreturn, List.head?_eq_some_iff] using hends
      exact absurd rfl (ih h '\n' List.mem_cons_self).1
    · obtain ⟨inner, hinner⟩ : ∃ inner, lines rest = [inner] := by
        cases hrest : lines rest with
        | nil => exact absurd hrest (lines_ne_nil rest)
        | cons first more =>
          rw [hrest, List.modifyHead_cons] at h
          exact ⟨first, by rw [(List.cons.inj h).2]⟩
      exact List.forall_mem_cons.2 ⟨⟨fun hfeed ↦ hends (.inl hfeed), hreturn⟩, ih hinner⟩

/-- What stands behind a line feed adds its lines. -/
theorem lines_append {text : List Char} (h : text.getLast? ≠ some '\r') (rest : List Char) :
    lines (text ++ '\n' :: rest) = lines text ++ lines rest := by
  induction text with
  | nil => rfl
  | cons c text ih =>
    cases text with
    | nil =>
      have hreturn : c ≠ '\r' := by simpa using h
      by_cases hfeed : c = '\n' <;> simp [lines, hreturn, hfeed]
    | cons d text =>
      have htext := ih (by rwa [List.getLast?_cons_cons] at h)
      rw [List.cons_append, lines, lines, htext, List.cons_append, List.head?_cons, List.head?_cons]
      split_ifs
      · rfl
      · rfl
      · cases hlines : lines (d :: text) with
        | nil => exact absurd hlines (lines_ne_nil _)
        | cons first more => rfl

/-! ### Bare pipes -/

/-- The number of bare pipes in a text behind a character, or at the beginning of a line. -/
def barePipesBehind (before : Option Char) : List Char → Nat
  | [] => 0
  | c :: rest => (if c = '|' ∧ before ≠ some '\\' then 1 else 0) + barePipesBehind (some c) rest

/-- The number of pipes in a text that no backslash stands before. -/
def barePipes (text : List Char) : Nat := barePipesBehind none text

theorem barePipesBehind_append (before : Option Char) (text rest : List Char) :
    barePipesBehind before (text ++ rest) =
      barePipesBehind before text + barePipesBehind (text.getLast?.or before) rest := by
  induction text generalizing before with
  | nil => simp [barePipesBehind]
  | cons c text ih =>
    rw [List.cons_append, barePipesBehind, barePipesBehind, ih, List.getLast?_cons, Nat.add_assoc]
    cases text.getLast? <;> rfl

/-- Only a backslash before a pipe tells what stands behind something from a text of its own. -/
theorem barePipesBehind_eq {before : Option Char} {text : List Char}
    (h : before ≠ some '\\' ∨ text.head? ≠ some '|') :
    barePipesBehind before text = barePipes text := by
  cases text with
  | nil => rfl
  | cons c rest =>
    rw [barePipes, barePipesBehind, barePipesBehind]
    congr 1
    rcases h with hbefore | hpipe
    · simp [hbefore]
    · simp_all

/-- The bare pipes of two texts add up, unless the first ends in the backslash that would cover a
pipe at the head of the second. -/
theorem barePipes_append {text rest : List Char}
    (h : text.getLast? ≠ some '\\' ∨ rest.head? ≠ some '|') :
    barePipes (text ++ rest) = barePipes text + barePipes rest := by
  rw [barePipes, barePipesBehind_append, Option.or_none, barePipesBehind_eq h, ← barePipes]

theorem barePipesBehind_of_notMem {text : List Char} (h : '|' ∉ text) (before : Option Char) :
    barePipesBehind before text = 0 := by
  induction text generalizing before with
  | nil => rfl
  | cons c rest ih =>
    obtain ⟨hc, hrest⟩ := not_or.1 (List.mem_cons.not.1 h)
    rw [barePipesBehind, if_neg fun hpipe ↦ hc hpipe.1.symm, ih hrest]

/-! ### Rows -/

/-- The text can stand in a cell: no line ends in it, and no cell. -/
structure Fits (text : List Char) : Prop where
  unbroken : Unbroken text
  undivided : barePipes text = 0

instance (text : List Char) : Decidable (Fits text) :=
  decidable_of_iff (Unbroken text ∧ barePipes text = 0)
    ⟨fun h ↦ ⟨h.1, h.2⟩, fun h ↦ ⟨h.1, h.2⟩⟩

/-- A text fits if both parts of it do, unless a backslash ends one and a pipe begins the other. -/
theorem fits_append {text rest : List Char}
    (h : text.getLast? ≠ some '\\' ∨ rest.head? ≠ some '|') :
    Fits (text ++ rest) ↔ Fits text ∧ Fits rest := by
  constructor
  · rintro ⟨hunbroken, hundivided⟩
    rw [barePipes_append h, Nat.add_eq_zero_iff] at hundivided
    have hunbroken := unbroken_append.1 hunbroken
    exact ⟨⟨hunbroken.1, hundivided.1⟩, hunbroken.2, hundivided.2⟩
  · rintro ⟨htext, hrest⟩
    refine ⟨unbroken_append.2 ⟨htext.unbroken, hrest.unbroken⟩, ?_⟩
    rw [barePipes_append h, htext.undivided, hrest.undivided]

/-- A text fits between others exactly if it fits by itself, where those end no line and no cell. -/
theorem fits_between {before text after : List Char} (hbefore : Fits before) (hafter : Fits after)
    (hlast : before.getLast? ≠ some '\\') (hhead : after.head? ≠ some '|') :
    Fits (before ++ (text ++ after)) ↔ Fits text := by
  rw [fits_append (.inl hlast), fits_append (.inr hhead), and_iff_right hbefore,
    and_iff_left hafter]

/-- A text without a pipe fits if it is one line. -/
theorem fits_of_notMem {text : List Char} (hunbroken : Unbroken text) (hpipe : '|' ∉ text) :
    Fits text :=
  ⟨hunbroken, barePipesBehind_of_notMem hpipe none⟩

/-- The line of a row, with a pipe before each cell and one at the end. -/
def row (cells : List (List Char)) : List Char :=
  cells.flatMap (fun cell ↦ '|' :: ' ' :: cell ++ [' ']) ++ ['|']

/-- A row opens each cell with a pipe of its own. -/
theorem row_cons (cell : List Char) (cells : List (List Char)) :
    row (cell :: cells) = ('|' :: ' ' :: cell ++ [' ']) ++ row cells := by
  rw [row, List.flatMap_cons, List.append_assoc, ← row]

/-- A row has a line break just when one of its cells does. -/
theorem unbroken_row {cells : List (List Char)} :
    Unbroken (row cells) ↔ ∀ cell ∈ cells, Unbroken cell := by
  induction cells with
  | nil => simp [row, Unbroken]
  | cons cell cells ih =>
    have hcell : Unbroken ('|' :: ' ' :: cell ++ [' ']) ↔ Unbroken cell := by
      simp [Unbroken, or_imp, forall_and]
    rw [row_cons, unbroken_append, ih, hcell, List.forall_mem_cons]

/-- A row has one bare pipe more than cells, and those that are in the cells. -/
theorem barePipes_row (cells : List (List Char)) :
    barePipes (row cells) = (cells.map barePipes).sum + (cells.length + 1) := by
  induction cells with
  | nil => rfl
  | cons cell cells ih =>
    have hcell : barePipes ('|' :: ' ' :: cell ++ [' ']) = 1 + barePipes cell :=
      calc barePipes (['|', ' '] ++ (cell ++ [' ']))
        _ = 1 + (barePipes cell + 0) := by
            rw [barePipes_append (.inl (by simp)), barePipes_append (.inr (by simp))]
            rfl
        _ = 1 + barePipes cell := by rw [Nat.add_zero]
    have hlast : ('|' :: ' ' :: cell ++ [' ']).getLast? ≠ some '\\' := by
      rw [List.getLast?_concat]
      decide
    rw [row_cons, barePipes_append (.inl hlast), hcell, ih, List.map_cons, List.sum_cons,
      List.length_cons]
    omega

/-- All cells of a row fit exactly if it is one line that has them and no others. -/
theorem forall_fits_iff {cells : List (List Char)} :
    (∀ cell ∈ cells, Fits cell) ↔
      Unbroken (row cells) ∧ barePipes (row cells) = cells.length + 1 := by
  have hpipes : barePipes (row cells) = cells.length + 1 ↔ ∀ cell ∈ cells, barePipes cell = 0 := by
    rw [barePipes_row, Nat.add_eq_right, List.sum_eq_zero_iff_forall_eq_nat, List.forall_mem_map]
  rw [unbroken_row, hpipes, ← forall₂_and]
  exact forall₂_congr fun cell _ ↦ ⟨fun h ↦ ⟨h.1, h.2⟩, fun h ↦ ⟨h.1, h.2⟩⟩

/-! ### Tables -/

/-- The text is a table with these rows: behind a line of titles and a line of dashes it has them as
its lines, an empty line ends it, and each line of it has as many cells as there are columns. -/
def IsTable (columns : Nat) (rows : List (List Char)) (text : List Char) : Prop :=
  ∃ titles dashes, lines text = titles :: dashes :: (rows ++ [[], []]) ∧
    ∀ line ∈ titles :: dashes :: rows, barePipes line = columns + 1

/-- A table as it is written, row by row. -/
def written (titles dashes : List Char) (rows : List (List (List Char))) : List Char :=
  titles ++ '\n' :: (dashes ++ '\n' :: (rows.flatMap (fun cells ↦ row cells ++ ['\n']) ++ ['\n']))

section Written

variable {titles dashes : List Char} {columns : Nat} {rows : List (List (List Char))}

theorem lines_rows (rows : List (List (List Char))) :
    lines (rows.flatMap (fun cells ↦ row cells ++ ['\n']) ++ ['\n']) =
      rows.flatMap (fun cells ↦ lines (row cells)) ++ [[], []] := by
  induction rows with
  | nil => rfl
  | cons cells rows ih =>
    rw [List.flatMap_cons, List.flatMap_cons, List.append_assoc, List.append_assoc,
      List.singleton_append, lines_append (by simp [row]), ih, List.append_assoc]

/-- A table whose titles and dashes are lines has these two first, then the lines of each row. -/
theorem lines_written (htitles : Unbroken titles) (hdashes : Unbroken dashes) :
    lines (written titles dashes rows) =
      titles :: dashes :: (rows.flatMap (fun cells ↦ lines (row cells)) ++ [[], []]) := by
  have hreturn : ∀ {line : List Char}, Unbroken line → line.getLast? ≠ some '\r' :=
    fun hline hlast ↦ absurd rfl (hline _ (List.mem_of_getLast? hlast)).2
  rw [written, lines_append (hreturn htitles), lines_append (hreturn hdashes), lines_rows,
    lines_of_unbroken htitles, lines_of_unbroken hdashes]
  rfl

/-- A table whose cells fit has its rows as its lines. -/
theorem isTable_written (htitles : Unbroken titles) (hdashes : Unbroken dashes)
    (hpipes : ∀ line ∈ [titles, dashes], barePipes line = columns + 1)
    (hrows : ∀ cells ∈ rows, cells.length = columns)
    (hfits : ∀ cells ∈ rows, ∀ cell ∈ cells, Fits cell) :
    IsTable columns (rows.map row) (written titles dashes rows) := by
  have hlines : ∀ cells ∈ rows, lines (row cells) = [row cells] :=
    fun cells hcells ↦ lines_of_unbroken (forall_fits_iff.1 (hfits cells hcells)).1
  refine ⟨titles, dashes, ?_, ?_⟩
  · rw [lines_written htitles hdashes, List.flatMap_congr hlines, ← List.map_eq_flatMap]
  · refine List.forall_mem_append.2 ⟨hpipes, List.forall_mem_map.2 fun cells hcells ↦ ?_⟩
    rw [(forall_fits_iff.1 (hfits cells hcells)).2, hrows cells hcells]

/-- Parts of a text that has a line for each of them have one line each. -/
theorem lines_eq_singleton {parts : List (List Char)}
    (h : (parts.flatMap lines).length = parts.length) :
    ∀ part ∈ parts, lines part = [part] := by
  have hpos : ∀ part, 0 < (lines part).length :=
    fun part ↦ List.length_pos_of_ne_nil (lines_ne_nil part)
  induction parts with
  | nil => exact List.forall_mem_nil _
  | cons part parts ih =>
    -- the parts behind have a line each as well, which leaves one for this part
    have hparts : parts.length ≤ (parts.flatMap lines).length := by
      rw [List.length_flatMap, ← List.length_map (fun part ↦ (lines part).length)]
      exact List.length_le_sum_of_one_le _ (List.forall_mem_map.2 fun part _ ↦ hpos part)
    have hpart := hpos part
    rw [List.flatMap_cons, List.length_append, List.length_cons] at h
    obtain ⟨line, hline⟩ := List.length_eq_one_iff.1 (show (lines part).length = 1 by omega)
    exact List.forall_mem_cons.2 ⟨lines_of_unbroken (unbroken_of_lines hline), ih (by omega)⟩

/-- Whatever the rows of a table are, if there are as many as were written then all cells fit. -/
theorem forall_fits_of_isTable (htitles : Unbroken titles) (hdashes : Unbroken dashes)
    (hrows : ∀ cells ∈ rows, cells.length = columns) {found : List (List Char)}
    (htable : IsTable columns found (written titles dashes rows))
    (hlength : found.length = rows.length) :
    ∀ cells ∈ rows, ∀ cell ∈ cells, Fits cell := by
  obtain ⟨_, _, hlines, hpipes⟩ := htable
  rw [lines_written htitles hdashes, ← List.flatMap_map] at hlines
  injection hlines with _ hlines
  injection hlines with _ hlines
  obtain rfl := List.append_cancel_right hlines
  have hline := lines_eq_singleton (by rw [hlength, List.length_map])
  intro cells hcells
  have hrow := hline (row cells) (List.mem_map_of_mem hcells)
  refine forall_fits_iff.2 ⟨unbroken_of_lines hrow, ?_⟩
  rw [hrows cells hcells]
  refine hpipes _ (List.mem_cons_of_mem _ (List.mem_cons_of_mem _ ?_))
  exact List.mem_flatMap.2 ⟨row cells, List.mem_map_of_mem hcells, hrow ▸ List.mem_singleton_self _⟩

/-- A table that is written row by row has the rows as its lines, or at least as many lines of as
many cells, exactly if all cells fit. -/
theorem isTable_written_iff (htitles : Unbroken titles) (hdashes : Unbroken dashes)
    (hpipes : ∀ line ∈ [titles, dashes], barePipes line = columns + 1)
    (hrows : ∀ cells ∈ rows, cells.length = columns) :
    (IsTable columns (rows.map row) (written titles dashes rows) ↔
      ∀ cells ∈ rows, ∀ cell ∈ cells, Fits cell) ∧
    ((∃ found : List (List Char), found.length = rows.length ∧
        IsTable columns found (written titles dashes rows)) ↔
      ∀ cells ∈ rows, ∀ cell ∈ cells, Fits cell) := by
  have hfits (found : List (List Char)) (hlength : found.length = rows.length)
      (htable : IsTable columns found (written titles dashes rows)) :
      ∀ cells ∈ rows, ∀ cell ∈ cells, Fits cell :=
    forall_fits_of_isTable htitles hdashes hrows htable hlength
  have hwritten := isTable_written htitles hdashes hpipes hrows
  refine ⟨⟨hfits _ (List.length_map _), hwritten⟩, ?_, fun h ↦ ?_⟩
  · rintro ⟨found, hlength, htable⟩
    exact hfits found hlength htable
  · exact ⟨rows.map row, List.length_map _, hwritten h⟩

end Written

end Markdown

end ContentSchema
