import Mathlib.Data.List.Basic
import ContentSchema.Text.Blank
/-!
# Lines and trimmed ends

A text is a last line, or a line, a line feed and more text (`lineInduction`), and `linesOf` follows
this view: `linesOf_of_notMem` and `linesOf_line` say what it makes of the two cases, and nothing
here looks at its accumulator again. A text that is put behind a line feed adds its own lines and
changes none of those before it (`linesOf_append_line`).

A lead that holds no character of a line's ending starts some line exactly if it stands in the text
at the beginning or behind a line feed (`exists_prefix_line_iff`). Trimming the end of a line takes
nothing from such a lead if that ends in a character that is no white space
(`trimEndChars_append`).
-/

namespace ContentSchema

/-! ### Lines -/

/-- The induction over the lines of a text. -/
theorem lineInduction {motive : List Char → Prop} (last : ∀ line, '\n' ∉ line → motive line)
    (more : ∀ line rest, '\n' ∉ line → motive rest → motive (line ++ '\n' :: rest))
    (text : List Char) : motive text := by
  by_cases hmem : '\n' ∈ text
  · obtain ⟨line, rest, rfl, hline⟩ := List.eq_append_cons_of_mem hmem
    exact more line rest hline (lineInduction last more rest)
  · exact last text hmem
termination_by text.length
decreasing_by
  subst_vars
  simp only [List.length_append, List.length_cons]
  omega

namespace linesOf

variable {line : List Char}

theorem go_line (h : '\n' ∉ line) (current rest : List Char) :
    go current (line ++ '\n' :: rest) = dropReturn (current.reverse ++ line) :: go [] rest := by
  induction line generalizing current with
  | nil => rw [List.nil_append, go, if_pos rfl, List.append_nil]
  | cons c line ih =>
    obtain ⟨hc, hline⟩ := not_or.1 (List.mem_cons.not.1 h)
    rw [List.cons_append, go, if_neg (Ne.symm hc), ih hline, List.reverse_cons, List.append_assoc,
      List.singleton_append]

theorem go_of_notMem (h : '\n' ∉ line) (current : List Char) :
    go current line = if (current.reverse ++ line).isEmpty then [] else [current.reverse ++ line] := by
  induction line generalizing current with
  | nil => simp [go]
  | cons c line ih =>
    obtain ⟨hc, hline⟩ := not_or.1 (List.mem_cons.not.1 h)
    rw [go, if_neg (Ne.symm hc), ih hline, List.reverse_cons, List.append_assoc,
      List.singleton_append]

end linesOf

section Lines

variable {line lead : List Char}

theorem linesOf_of_notMem (h : '\n' ∉ line) :
    linesOf line = if line.isEmpty then [] else [line] :=
  linesOf.go_of_notMem h []

/-- A line feed ends a line, and the rest of the text is read as a text of its own. -/
theorem linesOf_line (h : '\n' ∉ line) (rest : List Char) :
    linesOf (line ++ '\n' :: rest) = dropReturn line :: linesOf rest :=
  linesOf.go_line h [] rest

/-- What stands behind a line feed adds its lines. -/
theorem linesOf_append_line (text rest : List Char) :
    linesOf (text ++ '\n' :: rest) = linesOf (text ++ ['\n']) ++ linesOf rest := by
  induction text using lineInduction with
  | last line h => rw [linesOf_line h, linesOf_line h]; rfl
  | more line more h ih =>
    rw [List.append_assoc, List.cons_append, linesOf_line h, ih, List.append_assoc, List.cons_append,
      linesOf_line h, List.cons_append]

/-- The lead stands at the beginning of the text or behind a line feed. -/
def LeadsLine (lead text : List Char) : Prop :=
  ∃ before rest, text = before ++ (lead ++ rest) ∧ ∀ c ∈ before.getLast?, c = '\n'

theorem leadsLine_of_notMem (h : '\n' ∉ line) : LeadsLine lead line ↔ lead <+: line := by
  constructor
  · rintro ⟨before, rest, rfl, hbefore⟩
    obtain rfl : before = [] := by
      rcases List.eq_nil_or_concat before with hnil | ⟨init, c, rfl⟩
      · exact hnil
      · obtain rfl : c = '\n' := hbefore c (by simp)
        exact absurd (by simp) h
    exact List.prefix_append lead rest
  · rintro ⟨rest, rfl⟩
    exact ⟨[], rest, rfl, nofun⟩

/-- A mark leads a line of a text just when it leads the first or one of the rest. -/
theorem leadsLine_line_iff (hlead : '\n' ∉ lead) (h : '\n' ∉ line) (rest : List Char) :
    LeadsLine lead (line ++ '\n' :: rest) ↔ lead <+: line ∨ LeadsLine lead rest := by
  constructor
  · rintro ⟨before, after, heq, hbefore⟩
    rcases List.eq_nil_or_concat before with rfl | ⟨init, c, rfl⟩
    · -- at the beginning, where the lead ends before the line feed
      rw [List.nil_append] at heq
      rcases List.append_eq_append_iff.1 heq with ⟨more, rfl, hmore⟩ | ⟨more, rfl, -⟩
      · cases more with
        | nil => exact .inl (by simp)
        | cons c more =>
          obtain rfl : '\n' = c := (List.cons.inj hmore).1
          exact absurd (by simp) hlead
      · exact .inl (List.prefix_append lead more)
    · -- behind a line feed, which is the one after the line or one in the rest
      obtain rfl : c = '\n' := hbefore c (by simp)
      rw [List.concat_eq_append, List.append_assoc, List.singleton_append] at heq
      rcases List.append_eq_append_iff.1 heq with ⟨more, rfl, hmore⟩ | ⟨more, rfl, hmore⟩
      · cases more with
        | nil => exact .inr ⟨[], after, (List.cons.inj hmore).2, nofun⟩
        | cons c more =>
          refine .inr ⟨more ++ ['\n'], after, ?_, by simp⟩
          rw [List.append_assoc, List.singleton_append]
          exact (List.cons.inj hmore).2
      · cases more with
        | nil => exact .inr ⟨[], after, (List.cons.inj hmore).2.symm, nofun⟩
        | cons c more =>
          obtain rfl : '\n' = c := (List.cons.inj hmore).1
          exact absurd (by simp) h
  · rintro (⟨more, rfl⟩ | ⟨before, after, rfl, hbefore⟩)
    · exact ⟨[], more ++ '\n' :: rest, by simp, nofun⟩
    · refine ⟨line ++ '\n' :: before, after, by simp, fun c hc ↦ ?_⟩
      cases before with
      | nil => simpa using hc.symm
      | cons d before => exact hbefore c (by simpa using hc)

/-- Dropping the carriage return at the end of a line hides no mark that has none. -/
theorem prefix_dropReturn_iff (hlead : '\r' ∉ lead) : lead <+: dropReturn line ↔ lead <+: line := by
  unfold dropReturn
  split_ifs with hlast
  · obtain ⟨init, rfl⟩ := List.getLast?_eq_some_iff.1 hlast
    rw [List.dropLast_concat, List.prefix_concat_iff]
    refine ⟨.inr, ?_⟩
    rintro (rfl | h)
    · exact absurd (by simp) hlead
    · exact h
  · rfl

/-- Some line starts with the lead exactly if the lead stands at the beginning of the text or behind
a line feed. -/
theorem exists_prefix_line_iff (hne : lead ≠ []) (hfeed : '\n' ∉ lead) (hreturn : '\r' ∉ lead)
    (text : List Char) : (∃ line ∈ linesOf text, lead <+: line) ↔ LeadsLine lead text := by
  induction text using lineInduction with
  | last line h =>
    rw [linesOf_of_notMem h, leadsLine_of_notMem h]
    cases line with
    | nil => simpa using hne
    | cons c line => simp
  | more line rest h ih =>
    rw [linesOf_line h, List.exists_mem_cons_iff, prefix_dropReturn_iff hreturn, ih,
      leadsLine_line_iff hfeed h]

end Lines

/-! ### Trimmed ends -/

section TrimEnd

variable {lead : List Char}

/-- White space behind a character that is none is all that is trimmed. -/
theorem trimEndChars_append (hlast : ∀ c ∈ lead.getLast?, isBlank c = false) (rest : List Char) :
    trimEndChars (lead ++ rest) = lead ++ trimEndChars rest := by
  have hstop : lead.reverse.dropWhile isBlank = lead.reverse := by
    cases hreverse : lead.reverse with
    | nil => rfl
    | cons c more =>
      have hblank : isBlank c = false := hlast c (by simp [← List.head?_reverse, hreverse])
      exact List.dropWhile_cons_of_neg (by simp [hblank])
  rw [trimEndChars, trimEndChars, List.reverse_append, List.dropWhile_append]
  split_ifs with hempty
  · rw [hstop, List.reverse_reverse, List.isEmpty_iff.1 hempty, List.reverse_nil, List.append_nil]
  · rw [List.reverse_append, List.reverse_reverse]

theorem trimEndChars_of_getLast? (hlast : ∀ c ∈ lead.getLast?, isBlank c = false) :
    trimEndChars lead = lead := by
  have happend := trimEndChars_append hlast []
  rwa [List.append_nil, show trimEndChars [] = [] from rfl, List.append_nil] at happend

theorem trimEndChars_prefix_self (text : List Char) : trimEndChars text <+: text := by
  have hsuffix : text.reverse.dropWhile isBlank <:+ text.reverse := List.dropWhile_suffix isBlank
  rwa [← List.reverse_prefix, List.reverse_reverse] at hsuffix

end TrimEnd

end ContentSchema
