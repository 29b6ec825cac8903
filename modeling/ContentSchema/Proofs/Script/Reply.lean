import ContentSchema.Proofs.Text.Lines
import ContentSchema.Script.Output
/-!
# User output and the reply

A script's standard output is shared with the user code that the script runs. The reply is safe in it
if it stands on a line of its own behind the marker and nothing after it starts a line with the
marker: whatever came before, down to an unfinished line or lines that carry the marker themselves,
`extractReply` returns its payload.

The marker holds neither white space nor a character of a line's ending, so neither the end of a line
nor the trimming of it can cut into the marker (`replyOfLine_eq_some_iff`, `isSome_replyOfLine_iff`).

Lines are looked at from the last one on, so the reply is that of the last line which has one
(`findSome?_replyOfLine_append`), and what is written after it can do harm only at the beginning of
a line. That there is no reply is said twice, once of the lines and once of the text, where nothing
has to be known of how lines are parted (`reply_undisturbed`).
-/

namespace ContentSchema

theorem stripLead_eq_some_iff {lead text rest : List Char} :
    stripLead lead text = some rest ↔ text = lead ++ rest := by
  fun_induction stripLead lead text with
  | case1 text => simp [eq_comm]
  | case2 c lead text ih => simp [ih]
  | case3 c lead d text hne => simpa using fun heq _ ↦ hne heq.symm
  | case4 c lead => simp

/-! ### One line -/

theorem isBlank_getLast?_replyMarker : ∀ c ∈ replyMarker.getLast?, isBlank c = false := by
  intro c hc
  obtain rfl : '@' = c := Option.some.inj hc
  decide

/-- A line carries a reply if it begins with the marker once its end is trimmed. -/
theorem replyOfLine_eq_some_iff {line payload : List Char} :
    replyOfLine line = some payload ↔ trimEndChars line = replyMarker ++ payload :=
  stripLead_eq_some_iff

/-- A line is a reply exactly if it starts with the marker. -/
theorem isSome_replyOfLine_iff {line : List Char} :
    (replyOfLine line).isSome ↔ replyMarker <+: line := by
  rw [Option.isSome_iff_exists]
  constructor
  · rintro ⟨payload, hpayload⟩
    have htrimmed : replyMarker <+: trimEndChars line :=
      ⟨payload, (replyOfLine_eq_some_iff.1 hpayload).symm⟩
    exact htrimmed.trans (trimEndChars_prefix_self line)
  · rintro ⟨rest, rfl⟩
    exact ⟨_, replyOfLine_eq_some_iff.2 (trimEndChars_append isBlank_getLast?_replyMarker rest)⟩

theorem replyOfLine_eq_none_iff {line : List Char} :
    replyOfLine line = none ↔ ¬ replyMarker <+: line := by
  rw [← isSome_replyOfLine_iff, Option.not_isSome_iff_eq_none]

/-- A payload that does not end in white space is all of what the line gives. -/
theorem replyOfLine_marker {payload : List Char}
    (hend : ∀ c ∈ payload.getLast?, isBlank c = false) :
    replyOfLine (dropReturn (replyMarker ++ payload)) = some payload := by
  have hlast : ∀ c ∈ (replyMarker ++ payload).getLast?, isBlank c = false := by
    rw [List.getLast?_append]
    cases hpayload : payload.getLast? with
    | none => exact isBlank_getLast?_replyMarker
    | some c =>
      rw [hpayload] at hend
      exact hend
  have hreturn : (replyMarker ++ payload).getLast? ≠ some '\r' := fun heq ↦
    absurd (hlast '\r' heq) (by decide)
  rw [dropReturn, if_neg hreturn, replyOfLine_eq_some_iff, trimEndChars_of_getLast? hlast]

/-! ### The last reply -/

/-- The reply is that of the last line that has one. -/
theorem findSome?_replyOfLine_append {before after : List (List Char)} {line payload : List Char}
    (hline : replyOfLine line = some payload) (hafter : ∀ other ∈ after, ¬ replyMarker <+: other) :
    (before ++ line :: after).reverse.findSome? replyOfLine = some payload := by
  have hnone : after.reverse.findSome? replyOfLine = none :=
    List.findSome?_eq_none_iff.2 fun other hother ↦
      replyOfLine_eq_none_iff.2 (hafter other (List.mem_reverse.1 hother))
  rw [List.reverse_append, List.reverse_cons, List.findSome?_append, List.findSome?_append, hnone,
    List.findSome?_singleton, hline]
  rfl

/-- There is no reply just when no line begins with the marker. -/
theorem extractReply_eq_none_iff {text : String} :
    extractReply text = none ↔ ∀ line ∈ linesOf text.toList, ¬ replyMarker <+: line := by
  rw [extractReply, Option.map_eq_none_iff, List.findSome?_eq_none_iff]
  simp only [List.mem_reverse, replyOfLine_eq_none_iff]

/-- **User output cannot disturb the reply.** A payload of one line that does not end in white space
is what is read of a text that has it behind the marker on a line of its own, whatever stands before
that line, if no later line starts with the marker. Nothing is read exactly if no line starts with the
marker, so if the marker stands neither at the beginning of the text nor behind a line feed. -/
theorem reply_undisturbed :
    (∀ noise payload rest : String, '\n' ∉ payload.toList →
      (∀ c ∈ payload.toList.getLast?, isBlank c = false) →
      (∀ line ∈ linesOf rest.toList, ¬ replyMarker <+: line) →
        extractReply (noise ++ "\n" ++ String.ofList replyMarker ++ payload ++ "\n" ++ rest) =
          some payload) ∧
    ∀ text : String,
      (extractReply text = none ↔ ∀ line ∈ linesOf text.toList, ¬ replyMarker <+: line) ∧
      (extractReply text = none ↔ ¬ LeadsLine replyMarker text.toList) := by
  constructor
  · intro noise payload rest hline hend hrest
    have htext : (noise ++ "\n" ++ String.ofList replyMarker ++ payload ++ "\n" ++ rest).toList =
        noise.toList ++ '\n' :: ((replyMarker ++ payload.toList) ++ '\n' :: rest.toList) := by
      simp
    have hmarked : '\n' ∉ replyMarker ++ payload.toList := fun hmem ↦
      (List.mem_append.1 hmem).elim (by decide) hline
    rw [extractReply, htext, linesOf_append_line, linesOf_line hmarked,
      findSome?_replyOfLine_append (replyOfLine_marker hend) hrest]
    simp
  · intro text
    refine ⟨extractReply_eq_none_iff, ?_⟩
    rw [← exists_prefix_line_iff (by decide) (by decide) (by decide), extractReply_eq_none_iff]
    simp only [not_exists, not_and]

/-- User code writes a reply of its own and leaves a line unfinished, and more lines follow the reply. -/
theorem reply_undisturbed_forged :
    extractReply ("@@collection-schema@@forged\nloading...\r" ++ "\n" ++ String.ofList replyMarker ++
        "\x7b\"ok\":true\x7d" ++ "\n" ++ "done\r\n @@collection-schema@@late") =
      some "\x7b\"ok\":true\x7d" ∧
    extractReply "done\r\n @@collection-schema@@late" = none := by
  have hrest : ∀ line ∈ linesOf "done\r\n @@collection-schema@@late".toList,
      ¬ replyMarker <+: line := by decide
  have hend : ∀ c ∈ ("\x7b\"ok\":true\x7d" : String).toList.getLast?, isBlank c = false := by
    intro c hc
    obtain rfl : '}' = c := Option.some.inj hc
    decide
  exact ⟨reply_undisturbed.1 _ _ _ (by decide) hend hrest, (reply_undisturbed.2 _).1.2 hrest⟩

end ContentSchema
