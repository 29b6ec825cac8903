import Mathlib.Data.List.TakeWhile
import ContentSchema.Proofs.Script.Reply
import ContentSchema.Script.BundleReply
/-!
# What a reply of the bundler reports

`BundleReply.Reports` says what a reply stands for without the search that finds the specifier of an
unresolved import: a text names a specifier behind `before` if it splits into `before`, the lead, the
specifier, which is not empty and holds no quote, a closing quote and more text (`Names`), and what
counts is the split with the shortest `before` (`NamesFirst`).

The search looks at one place after the other. At each of them the specifier is determined by the
text, being all that stands before the next quote (`quotedText?_eq_some_iff`), so a place either
names a specifier or does not (`names_nil_iff`), and one that does not is passed over as any other
character is (`names_cons_iff`). An empty quote or one that is never closed therefore hides nothing
behind it: a text that names a specifier anywhere names a first one (`exists_namesFirst`).
-/

namespace ContentSchema

namespace Diagnostic

/-! ### The places where a text names a specifier -/

/-- Behind `before` the text says that the specifier could not be resolved. -/
def Names (text before specifier : List Char) : Prop :=
  specifier ≠ [] ∧ '"' ∉ specifier ∧
    ∃ rest, text = before ++ (unresolvedLead ++ (specifier ++ '"' :: rest))

/-- No specifier is named in the text before this one. -/
def NamesFirst (text specifier : List Char) : Prop :=
  ∃ before, Names text before specifier ∧
    ∀ before' specifier', Names text before' specifier' → before.length ≤ before'.length

variable {text before specifier : List Char}

/-- A quoted text is not empty and goes up to the next quotation mark. -/
theorem quotedText?_eq_some_iff : quotedText? text = some specifier ↔
    specifier ≠ [] ∧ '"' ∉ specifier ∧ ∃ rest, text = specifier ++ '"' :: rest := by
  constructor
  · intro h
    obtain ⟨hguard, heq⟩ := Option.ite_none_left_eq_some.1 h
    obtain ⟨hne, hlength⟩ : text.takeWhile (· ≠ '"') ≠ [] ∧
        (text.takeWhile (· ≠ '"')).length ≠ text.length := by simpa using hguard
    obtain rfl := Option.some.inj heq
    refine ⟨hne, fun hmem ↦ by simpa using List.mem_takeWhile_imp hmem, ?_⟩
    have hsplit : text.takeWhile (· ≠ '"') ++ text.dropWhile (· ≠ '"') = text :=
      List.takeWhile_append_dropWhile
    cases hdrop : text.dropWhile (· ≠ '"') with
    | nil =>
      -- then no quote closes the text
      rw [hdrop, List.append_nil] at hsplit
      exact absurd (congrArg List.length hsplit) hlength
    | cons c rest =>
      have hhead := List.head?_dropWhile_not (· ≠ '"') text
      rw [hdrop] at hhead
      obtain rfl : c = '"' := by simpa using hhead
      exact ⟨rest, by rw [← hdrop, hsplit]⟩
  · rintro ⟨hne, hquote, rest, rfl⟩
    have hplain : ∀ c ∈ specifier, decide (c ≠ '"') = true := fun c hc ↦
      decide_eq_true fun heq ↦ hquote (heq ▸ hc)
    have hinside : (specifier ++ '"' :: rest).takeWhile (· ≠ '"') = specifier := by
      rw [List.takeWhile_append_of_pos hplain, List.takeWhile_cons_of_neg (by simp),
        List.append_nil]
    rw [quotedText?, hinside]
    exact if_neg (by simpa using hne)

/-- The specifier at the front of a text is what the search takes there. -/
theorem names_nil_iff : Names text [] specifier ↔
    (stripLead unresolvedLead text).bind quotedText? = some specifier := by
  rw [Option.bind_eq_some_iff]
  constructor
  · rintro ⟨hne, hquote, rest, htext⟩
    exact ⟨specifier ++ '"' :: rest, stripLead_eq_some_iff.2 htext,
      quotedText?_eq_some_iff.2 ⟨hne, hquote, rest, rfl⟩⟩
  · rintro ⟨inner, hinner, hquoted⟩
    obtain ⟨hne, hquote, rest, rfl⟩ := quotedText?_eq_some_iff.1 hquoted
    have htext : text = unresolvedLead ++ (specifier ++ '"' :: rest) :=
      stripLead_eq_some_iff.1 hinner
    exact ⟨hne, hquote, rest, htext⟩

/-- An empty text names nothing. -/
theorem not_names_nil : ¬ Names [] before specifier := by
  rintro ⟨-, -, rest, heq⟩
  have hlength := congrArg List.length heq
  simp only [List.length_nil, List.length_append, List.length_cons] at hlength
  omega

/-- A specifier that is not named at the front is named in what follows the first character. -/
theorem names_cons_iff {c : Char} {rest : List Char} : Names (c :: rest) before specifier ↔
    (before = [] ∧ Names (c :: rest) [] specifier) ∨
      ∃ front, before = c :: front ∧ Names rest front specifier := by
  constructor
  · rintro ⟨hne, hquote, tail, htext⟩
    cases before with
    | nil => exact .inl ⟨rfl, hne, hquote, tail, htext⟩
    | cons d front =>
      obtain ⟨rfl, hrest⟩ := List.cons.inj htext
      exact .inr ⟨front, rfl, hne, hquote, tail, hrest⟩
  · rintro (⟨rfl, h⟩ | ⟨front, rfl, hne, hquote, tail, rfl⟩)
    · exact h
    · exact ⟨hne, hquote, tail, rfl⟩

/-! ### The first of them -/

/-- A specifier named at the front is the first. -/
theorem namesFirst_iff_of_names_nil {other : List Char} (h : Names text [] other) :
    NamesFirst text specifier ↔ other = specifier := by
  constructor
  · rintro ⟨before, hnames, hfirst⟩
    obtain rfl : before = [] := List.length_eq_zero_iff.1 (Nat.le_zero.1 (hfirst _ _ h))
    exact Option.some.inj ((names_nil_iff.1 h).symm.trans (names_nil_iff.1 hnames))
  · rintro rfl
    exact ⟨[], h, fun _ _ _ ↦ Nat.zero_le _⟩

/-- If none is named at the front, the first one is the first of what follows. -/
theorem namesFirst_cons_iff {c : Char} {rest : List Char}
    (h : ∀ other, ¬ Names (c :: rest) [] other) :
    NamesFirst (c :: rest) specifier ↔ NamesFirst rest specifier := by
  have hnames : ∀ {before specifier}, Names (c :: rest) before specifier ↔
      ∃ front, before = c :: front ∧ Names rest front specifier := fun {before specifier} ↦ by
    rw [names_cons_iff]
    exact or_iff_right fun hfront ↦ h _ hfront.2
  constructor
  · rintro ⟨before, hbefore, hfirst⟩
    obtain ⟨front, rfl, hfront⟩ := hnames.1 hbefore
    refine ⟨front, hfront, fun other specifier' hother ↦ ?_⟩
    exact Nat.le_of_succ_le_succ (hfirst (c :: other) specifier' (hnames.2 ⟨other, rfl, hother⟩))
  · rintro ⟨front, hfront, hfirst⟩
    refine ⟨c :: front, hnames.2 ⟨front, rfl, hfront⟩, fun other specifier' hother ↦ ?_⟩
    obtain ⟨later, rfl, hlater⟩ := hnames.1 hother
    exact Nat.succ_le_succ (hfirst later specifier' hlater)

/-- The search finds the specifier that is named first. -/
theorem unresolved?_eq_some_iff : unresolved? text = some specifier ↔ NamesFirst text specifier := by
  induction text with
  | nil =>
    refine ⟨nofun, ?_⟩
    rintro ⟨before, hnames, -⟩
    exact absurd hnames not_names_nil
  | cons c rest ih =>
    rw [unresolved?]
    split
    next other hother =>
      rw [namesFirst_iff_of_names_nil (names_nil_iff.2 hother), Option.some.injEq]
    next hnone =>
      rw [ih, namesFirst_cons_iff]
      intro other hother
      rw [names_nil_iff.1 hother] at hnone
      cases hnone

/-- Wherever a text names a specifier, it names a first one. -/
theorem exists_namesFirst (h : Names text before specifier) : ∃ first, NamesFirst text first := by
  induction text generalizing before with
  | nil => exact absurd h not_names_nil
  | cons c rest ih =>
    by_cases hfront : ∃ other, Names (c :: rest) [] other
    · obtain ⟨other, hother⟩ := hfront
      exact ⟨other, (namesFirst_iff_of_names_nil hother).2 rfl⟩
    · rw [not_exists] at hfront
      rcases names_cons_iff.1 h with ⟨-, hnames⟩ | ⟨before, -, hnames⟩
      · exact absurd hnames (hfront specifier)
      · obtain ⟨first, hfirst⟩ := ih hnames
        exact ⟨first, (namesFirst_cons_iff hfront).2 hfirst⟩

/-- Nothing is found just when the text names no specifier anywhere. -/
theorem unresolved?_eq_none_iff :
    unresolved? text = none ↔ ∀ before specifier, ¬ Names text before specifier := by
  constructor
  · intro hnone before specifier hnames
    obtain ⟨first, hfirst⟩ := exists_namesFirst hnames
    rw [unresolved?_eq_some_iff.2 hfirst] at hnone
    cases hnone
  · intro h
    cases hfound : unresolved? text with
    | none => rfl
    | some specifier =>
      obtain ⟨before, hnames, -⟩ := unresolved?_eq_some_iff.1 hfound
      exact absurd hnames (h before specifier)

/-! ### What is reported -/

/-- What is known of the place of a diagnostic, from the line on until something is not known. -/
def position (diagnostic : Diagnostic) : List Nat :=
  ([diagnostic.line, diagnostic.column].takeWhile Option.isSome).filterMap id

/-- The file and what is known of the place in it, joined by colons. -/
theorem location_eq (diagnostic : Diagnostic) : diagnostic.location =
    diagnostic.file.map fun file ↦ joinWith ":" (file :: diagnostic.position.map toString) := by
  obtain ⟨kind, text, file, line, column⟩ := diagnostic
  cases file with
  | none => rfl
  | some file =>
    cases line <;> cases column <;> rfl

/-- The error that a diagnostic stands for. -/
inductive Reports (diagnostic : Diagnostic) : BundleError → Prop where
  | tool (hkind : diagnostic.kind = some "tool") : Reports diagnostic (.tool diagnostic.text)
  | unresolved {specifier : List Char} (hkind : diagnostic.kind ≠ some "tool")
      (hnames : NamesFirst diagnostic.text.toList specifier) :
      Reports diagnostic (.unresolvedImport (String.ofList specifier)
        (diagnostic.file.map fun file ↦ joinWith ":" (file :: diagnostic.position.map toString)))
  | badSyntax (hkind : diagnostic.kind ≠ some "tool")
      (hnames : ∀ before specifier, ¬ Names diagnostic.text.toList before specifier) :
      Reports diagnostic (.badSyntax diagnostic.text
        (diagnostic.file.map fun file ↦ joinWith ":" (file :: diagnostic.position.map toString)))

/-- The function and the relation on splits of the text agree on every diagnostic. -/
theorem classify_eq_iff {diagnostic : Diagnostic} {error : BundleError} :
    diagnostic.classify = error ↔ diagnostic.Reports error := by
  rw [classify]
  split_ifs with hkind
  · refine ⟨fun heq ↦ heq ▸ .tool hkind, fun h ↦ ?_⟩
    cases h with
    | tool => rfl
    | unresolved hother | badSyntax hother => exact absurd hkind hother
  · rw [location_eq]
    split
    next specifier hfound =>
      have hnames : NamesFirst diagnostic.text.toList specifier := unresolved?_eq_some_iff.1 hfound
      refine ⟨fun heq ↦ heq ▸ .unresolved hkind hnames, fun h ↦ ?_⟩
      cases h with
      | tool hother => exact absurd hother hkind
      | unresolved _ hother =>
        rw [unresolved?_eq_some_iff.2 hother] at hfound
        cases hfound
        rfl
      | badSyntax _ hother =>
        obtain ⟨before, hbefore, -⟩ := hnames
        exact absurd hbefore (hother before specifier)
    next hnone =>
      have hnames := unresolved?_eq_none_iff.1 hnone
      refine ⟨fun heq ↦ heq ▸ .badSyntax hkind hnames, fun h ↦ ?_⟩
      cases h with
      | tool hother => exact absurd hother hkind
      | unresolved _ hother =>
        obtain ⟨before, hbefore, -⟩ := hother
        exact absurd hbefore (hnames before _)
      | badSyntax => rfl

end Diagnostic

/-- What a reply stands for: the code of a success, or the error that its first diagnostic reports. -/
inductive BundleReply.Reports (reply : BundleReply) : Except BundleError String → Prop where
  | code {code : String} (hok : reply.ok = true) (hcode : reply.code = some code) :
      Reports reply (.ok code)
  | noCode (hok : reply.ok = true) (hcode : reply.code = none) :
      Reports reply (.error (.tool "bundle reply is missing code"))
  | noDiagnostic (hok : reply.ok = false) (herrors : reply.errors = []) :
      Reports reply (.error (.tool "bundler failed without diagnostics"))
  | diagnostic {first : Diagnostic} {rest : List Diagnostic} {error : BundleError}
      (hok : reply.ok = false) (herrors : reply.errors = first :: rest)
      (hfirst : first.Reports error) : Reports reply (.error error)

theorem BundleReply.outcome_eq_iff {reply : BundleReply} {result : Except BundleError String} :
    reply.outcome = result ↔ reply.Reports result := by
  obtain ⟨ok, code, errors⟩ := reply
  cases ok with
  | true =>
    cases code with
    | some code =>
      refine ⟨fun heq ↦ heq ▸ .code rfl rfl, fun h ↦ ?_⟩
      cases h with
      | code _ hcode => cases hcode; rfl
      | noCode _ hcode => cases hcode
      | noDiagnostic hok | diagnostic hok => cases hok
    | none =>
      refine ⟨fun heq ↦ heq ▸ .noCode rfl rfl, fun h ↦ ?_⟩
      cases h with
      | code _ hcode => cases hcode
      | noCode => rfl
      | noDiagnostic hok | diagnostic hok => cases hok
  | false =>
    cases errors with
    | nil =>
      refine ⟨fun heq ↦ heq ▸ .noDiagnostic rfl rfl, fun h ↦ ?_⟩
      cases h with
      | code hok | noCode hok => cases hok
      | noDiagnostic => rfl
      | diagnostic _ herrors => cases herrors
    | cons first rest =>
      refine ⟨fun heq ↦ heq ▸ .diagnostic rfl rfl (Diagnostic.classify_eq_iff.1 rfl), fun h ↦ ?_⟩
      cases h with
      | code hok | noCode hok => cases hok
      | noDiagnostic _ herrors => cases herrors
      | diagnostic _ herrors hfirst =>
        cases herrors
        exact congrArg Except.error (Diagnostic.classify_eq_iff.2 hfirst)

/-- A diagnostic whose text quotes nothing before it quotes what could not be resolved, and which knows
a column but no line. -/
def Diagnostic.blocks : Diagnostic :=
  ⟨some "build", "Could not resolve \"\": Could not resolve \"./blocks\"", some "config.ts", none,
    some 4⟩

/-- The text of a reply with that diagnostic and another one. -/
def BundleReply.blocksText : String :=
  "\x7b\"ok\":false,\"errors\":[\x7b\"kind\":\"build\"," ++
    "\"text\":\"Could not resolve \\\"\\\": Could not resolve \\\"./blocks\\\"\"," ++
    "\"file\":\"config.ts\",\"column\":4\x7d,\x7b\"text\":\"late\"\x7d]\x7d"

end ContentSchema
