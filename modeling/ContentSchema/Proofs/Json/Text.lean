import Mathlib.Data.List.TakeWhile
import ContentSchema.Json.Printer
import ContentSchema.Json.Reader
import ContentSchema.Proofs.Json.Settled
/-!
# JSON text and back

What `Json.pretty` writes, `Written.read?` reads, member by member and in order (`read?_pretty`),
provided that each number inside the value reads back from its own text. That is a condition, since
the quick rule of `Binary64.ofScaled` may read a neighbour of the double that was written.

The induction is on the value, for every text that follows it. A string or a container knows where it
ends, but a numeral ends where the next character cannot carry it on (`EndsNumeral`); what follows a
value in a written text is a comma or a line break.
-/

namespace ContentSchema

namespace Written

/-! ### Numerals -/

/-- Whether a text cannot carry on a numeral that stands before it. -/
def EndsNumeral (rest : List Char) : Prop :=
  ∀ c ∈ rest.head?, c.isDigit = false ∧ c ≠ '.' ∧ c ≠ 'e' ∧ c ≠ 'E'

/-- Digits are taken as far as they go, and there has to be one. -/
theorem digits?_eq_some_iff {text digits left : List Char} :
    digits? text = some (digits, left) ↔ digits ≠ [] ∧ (∀ c ∈ digits, c.isDigit = true) ∧
      (∀ c ∈ left.head?, c.isDigit = false) ∧ text = digits ++ left := by
  constructor
  · intro h
    rw [digits?] at h
    obtain ⟨hne, heq⟩ := Option.ite_none_left_eq_some.1 h
    obtain ⟨rfl, rfl⟩ := Prod.mk.inj (Option.some.inj heq)
    refine ⟨fun heq ↦ hne (List.isEmpty_iff.2 heq), fun c hc ↦ List.mem_takeWhile_imp hc, ?_,
      List.takeWhile_append_dropWhile.symm⟩
    intro c hc
    have hhead := List.head?_dropWhile_not Char.isDigit text
    rw [hc] at hhead
    exact hhead
  · rintro ⟨hne, hdigits, hleft, rfl⟩
    have htake : left.takeWhile Char.isDigit = [] := by
      cases left with
      | nil => rfl
      | cons c left => exact List.takeWhile_cons_of_neg (by simpa using hleft c rfl)
    have hdrop : left.dropWhile Char.isDigit = left := by
      cases left with
      | nil => rfl
      | cons c left => exact List.dropWhile_cons_of_neg (by simpa using hleft c rfl)
    rw [digits?, List.takeWhile_append_of_pos hdigits, List.dropWhile_append_of_pos hdigits, htake,
      hdrop, List.append_nil]
    exact if_neg (by simpa using hne)

variable {text left rest : List Char}

/-- What ends a number stops its digits, so that a text behind it changes nothing. -/
theorem digits?_append {digits : List Char} (h : digits? text = some (digits, left))
    (hrest : EndsNumeral rest) : digits? (text ++ rest) = some (digits, left ++ rest) := by
  obtain ⟨hne, hdigits, hleft, rfl⟩ := digits?_eq_some_iff.1 h
  refine digits?_eq_some_iff.2 ⟨hne, hdigits, ?_, List.append_assoc digits left rest⟩
  cases left with
  | nil => exact fun c hc ↦ (hrest c hc).1
  | cons c left => exact hleft

theorem fraction?_append {fraction : Option (List Char)} (h : fraction? text = some (fraction, left))
    (hrest : EndsNumeral rest) : fraction? (text ++ rest) = some (fraction, left ++ rest) := by
  unfold fraction? at h
  split at h
  next digits =>
    obtain ⟨⟨digits, left⟩, hdigits, heq⟩ := Option.map_eq_some_iff.1 h
    cases heq
    exact Option.map_eq_some_iff.2 ⟨_, digits?_append hdigits hrest, rfl⟩
  next hne =>
    cases h
    unfold fraction?
    split
    next more heq =>
      cases text with
      | nil => exact absurd rfl (hrest '.' (by simp [show rest = '.' :: more from heq])).2.1
      | cons c text => exact absurd (congrArg (· :: text) (List.cons.inj heq).1) (hne text)
    next => rfl

theorem exponentSign_append (hne : text ≠ []) :
    exponentSign (text ++ rest) = ((exponentSign text).1, (exponentSign text).2 ++ rest) := by
  cases text with
  | nil => exact absurd rfl hne
  | cons c text =>
    rw [List.cons_append]
    unfold exponentSign
    split <;> split <;> simp_all

theorem exponent?_append {exponent : Option (Bool × List Char)}
    (h : exponent? text = some (exponent, left)) (hrest : EndsNumeral rest) :
    exponent? (text ++ rest) = some (exponent, left ++ rest) := by
  cases text with
  | nil =>
    cases h
    cases rest with
    | nil => rfl
    | cons c rest =>
      -- there was no exponent, and what follows must not be taken for one
      obtain ⟨-, -, he, hE⟩ := hrest c rfl
      exact if_neg (not_or.2 ⟨he, hE⟩)
  | cons c text =>
    rw [List.cons_append]
    rw [exponent?] at h ⊢
    split at h
    next hc =>
      obtain ⟨⟨digits, left⟩, hdigits, heq⟩ := Option.map_eq_some_iff.1 h
      cases heq
      have hne : text ≠ [] := by
        rintro rfl
        cases hdigits
      rw [if_pos hc, exponentSign_append hne]
      exact Option.map_eq_some_iff.2 ⟨_, digits?_append hdigits hrest, rfl⟩
    next hc =>
      cases h
      exact if_neg hc

theorem minus_append (hne : text ≠ []) :
    minus (text ++ rest) = ((minus text).1, (minus text).2 ++ rest) := by
  cases text with
  | nil => exact absurd rfl hne
  | cons c text =>
    rw [List.cons_append]
    unfold minus
    split <;> split <;> simp_all

/-- A numeral is the same before a text that cannot carry it on. -/
theorem numeral?_append {n : Numeral} (h : numeral? text = some (n, left))
    (hrest : EndsNumeral rest) : numeral? (text ++ rest) = some (n, left ++ rest) := by
  have hne : text ≠ [] := by
    rintro rfl
    cases h
  obtain ⟨⟨whole, afterWhole⟩, hwhole, h⟩ := Option.bind_eq_some_iff.1 h
  obtain ⟨_, hguard, h⟩ := Option.bind_eq_some_iff.1 h
  obtain ⟨⟨fraction, afterFraction⟩, hfraction, h⟩ := Option.bind_eq_some_iff.1 h
  obtain ⟨⟨exponent, left⟩, hexponent, h⟩ := Option.bind_eq_some_iff.1 h
  cases h
  rw [numeral?, minus_append hne]
  exact Option.bind_eq_some_iff.2 ⟨_, digits?_append hwhole hrest,
    Option.bind_eq_some_iff.2 ⟨_, hguard,
      Option.bind_eq_some_iff.2 ⟨_, fraction?_append hfraction hrest,
        Option.bind_eq_some_iff.2 ⟨_, exponent?_append hexponent hrest, rfl⟩⟩⟩⟩

/-! ### Strings -/

/-- The string read so far, if it has a value so far. -/
def Partial.of (chars : List Char) : Partial := ⟨chars, true, none⟩

/-- Four hexadecimal digits hold every control character. -/
theorem number?_digits {n : Nat} (h : n < 32) :
    Hex.number? (Hex.digits Hex.digit 4 n) = some n := by
  revert n
  decide

/-- A short escape is read as the character that it stands for. -/
theorem string?_escape {e c : Char} (hu : e ≠ 'u') (he : escaped? e = some c)
    (chars rest : List Char) :
    string? (.of chars) ('\\' :: e :: rest) = string? (.of (c :: chars)) rest := by
  rw [string?]
  · rw [he]
    rfl
  · rintro _ _ _ _ _ heq
    exact absurd heq hu

/-- A control character is read from its escape with four digits. -/
theorem string?_unit {n : Nat} (h : n < 32) (chars rest : List Char) :
    string? (.of chars) ('\\' :: 'u' :: (Hex.digits Hex.digit 4 n ++ rest)) =
      string? (.of (Char.ofNat n :: chars)) rest := by
  have hpush : (Partial.of chars).pushUnit n = .of (Char.ofNat n :: chars) := by
    rw [Partial.pushUnit, if_neg (by omega), if_neg (by omega)]
    rfl
  obtain ⟨a, b, c, d, hdigits⟩ : ∃ a b c d, Hex.digits Hex.digit 4 n = [a, b, c, d] :=
    ⟨_, _, _, _, rfl⟩
  have hunit : unit? a b c d = some n := by rw [unit?, ← hdigits, number?_digits h]
  rw [hdigits]
  show string? (.of chars) ('\\' :: 'u' :: a :: b :: c :: d :: rest) = _
  rw [string?, hunit]
  show string? ((Partial.of chars).pushUnit n) rest = _
  rw [hpush]

/-- A character that needs no escape is read as itself. -/
theorem string?_plain {c : Char} (hquote : c ≠ '"') (hescape : c ≠ '\\') (hcontrol : 32 ≤ c.toNat)
    (chars rest : List Char) :
    string? (.of chars) (c :: rest) = string? (.of (c :: chars)) rest := by
  rw [string?]
  · rw [if_neg (not_or.2 ⟨hescape, Nat.not_lt.2 hcontrol⟩)]
    rfl
  · exact hquote
  · rintro _ _ _ _ _ heq
    exact absurd heq hescape
  · rintro _ _ heq
    exact absurd heq hescape

/-- A written character is read back. -/
theorem string?_escapeChar (c : Char) (chars rest : List Char) :
    string? (.of chars) (Json.escapeChar c ++ rest) = string? (.of (c :: chars)) rest := by
  unfold Json.escapeChar
  split_ifs with hquote hescape hnewline hreturn htab hbackspace hfeed hcontrol
  · subst hquote
    exact string?_escape (by decide) (by decide) chars rest
  · subst hescape
    exact string?_escape (by decide) (by decide) chars rest
  · exact hnewline ▸ string?_escape (by decide) (by decide) chars rest
  · exact hreturn ▸ string?_escape (by decide) (by decide) chars rest
  · exact htab ▸ string?_escape (by decide) (by decide) chars rest
  · rw [show c = Char.ofNat 8 by rw [← hbackspace, Char.ofNat_toNat]]
    exact string?_escape (by decide) (by decide) chars rest
  · rw [show c = Char.ofNat 12 by rw [← hfeed, Char.ofNat_toNat]]
    exact string?_escape (by decide) (by decide) chars rest
  · have hunit := string?_unit hcontrol chars rest
    rwa [Char.ofNat_toNat] at hunit
  · exact string?_plain hquote hescape (Nat.le_of_not_lt hcontrol) chars rest

/-- A text is read back from the escapes of its characters, up to the quotation mark. -/
theorem string?_flatMap_escapeChar (text chars rest : List Char) :
    string? (.of chars) (text.flatMap Json.escapeChar ++ '"' :: rest) =
      some (some (String.ofList (chars.reverse ++ text)), rest) := by
  induction text generalizing chars with
  | nil =>
    show string? (.of chars) ('"' :: rest) = _
    rw [string?, List.append_nil]
    rfl
  | cons c text ih =>
    rw [List.flatMap_cons, List.append_assoc, string?_escapeChar, ih, List.reverse_cons,
      List.append_assoc, List.singleton_append]

theorem string?_quoted (text : String) (rest : List Char) :
    string? .empty (text.toList.flatMap Json.escapeChar ++ '"' :: rest) = some (some text, rest) := by
  show string? (.of []) _ = _
  simp [string?_flatMap_escapeChar]

theorem toList_quoted_append (text : String) (rest : List Char) :
    (Json.quoted text).toList ++ rest =
      '"' :: (text.toList.flatMap Json.escapeChar ++ '"' :: rest) := by
  simp [Json.quoted]

/-- A quoted string is read back. -/
theorem document?_quoted (fuel : Nat) (text : String) (rest : List Char) :
    document? (fuel + 1) ((Json.quoted text).toList ++ rest) = some (.str (some text), rest) := by
  rw [toList_quoted_append, document?, string?_quoted, Option.map_some]

end Written

/-! ### Numbers -/

/-- The text of a number is a numeral, and its value is the number. -/
def Number.ReadsBack (n : Number) : Prop :=
  ∃ numeral, Written.numeral? (Json.numberText n).toList = some (numeral, []) ∧
    numeral.value? = some n

namespace Json

/-- Every number inside a value reads back from its text. -/
inductive NumbersReadBack : Json → Prop where
  | intro {value : Json} (hnumber : ∀ n, value = .num n → n.ReadsBack)
      (hparts : ∀ part ∈ value.parts, NumbersReadBack part) : NumbersReadBack value

@[simp] theorem numbersReadBack_null : NumbersReadBack null :=
  .intro (by simp) (by simp [parts])

@[simp] theorem numbersReadBack_bool (value : Bool) : (bool value).NumbersReadBack :=
  .intro (by simp) (by simp [parts])

@[simp] theorem numbersReadBack_str (text : String) : (str text).NumbersReadBack :=
  .intro (by simp) (by simp [parts])

@[simp] theorem numbersReadBack_arr {items : List Json} :
    (arr items).NumbersReadBack ↔ ∀ item ∈ items, item.NumbersReadBack :=
  ⟨fun ⟨_, h⟩ ↦ h, fun h ↦ .intro (by simp) h⟩

@[simp] theorem numbersReadBack_obj {members : List (String × Json)} :
    (obj members).NumbersReadBack ↔ ∀ member ∈ members, member.2.NumbersReadBack :=
  ⟨fun ⟨_, h⟩ ↦ List.forall_mem_map.1 h, fun h ↦ .intro (by simp) (List.forall_mem_map.2 h)⟩

/-! ### Documents -/

mutual

/-- A value as a document. -/
def written : Json → Written
  | .null => .null
  | .bool value => .bool value
  | .num value => .num (some value)
  | .str text => .str (some text)
  | .arr items => .arr (writtenItems items)
  | .obj members => .obj (writtenMembers members)

/-- The items of an array as documents. -/
def writtenItems : List Json → List Written
  | [] => []
  | item :: items => written item :: writtenItems items

/-- The members of an object as documents. -/
def writtenMembers : List (String × Json) → List (Option String × Written)
  | [] => []
  | (key, value) :: members => (some key, written value) :: writtenMembers members

end

end Json

namespace Written

/-- The white space of a new line is skipped, however deep the line is indented. -/
theorem skipBlank_newline (level : Nat) (rest : List Char) :
    skipBlank ((Json.newline level).toList ++ rest) = skipBlank rest := by
  have hspaces : ∀ n, skipBlank (List.replicate n ' ' ++ rest) = skipBlank rest := by
    intro n
    induction n with
    | zero => rfl
    | succ n ih => exact ih
  rw [Json.newline, String.toList_ofList]
  exact hspaces (2 * level)

theorem skipBlank_quoted (text : String) (rest : List Char) :
    skipBlank ((Json.quoted text).toList ++ rest) = (Json.quoted text).toList ++ rest := by
  rw [toList_quoted_append]
  rfl

theorem endsNumeral_newline (level : Nat) (rest : List Char) :
    EndsNumeral ((Json.newline level).toList ++ rest) := by
  rw [Json.newline, String.toList_ofList]
  rintro c hc
  cases hc
  decide

theorem endsNumeral_comma (rest : List Char) : EndsNumeral (',' :: rest) := by
  rintro c hc
  cases hc
  decide

/-- No value starts with white space, so it has to be skipped first. -/
theorem document?_blank (fuel : Nat) {c : Char} (hc : c = ' ' ∨ c = '\t' ∨ c = '\n' ∨ c = '\r')
    (rest : List Char) : document? fuel (c :: rest) = none := by
  cases fuel with
  | zero => rfl
  | succ fuel => rcases hc with rfl | rfl | rfl | rfl <;> rfl

/-- No white space stands before a document that is read. -/
theorem skipBlank_of_document? {fuel : Nat} {text : List Char} {result : Written × List Char}
    (h : document? fuel text = some result) : skipBlank text = text := by
  cases text with
  | nil => rfl
  | cons c rest =>
    rw [skipBlank]
    split
    next hc =>
      rw [document?_blank fuel hc] at h
      cases h
    next => rfl

/-- An array is its opening bracket and then the list of its items. -/
theorem document?_arr {fuel : Nat} {text rest : List Char} {items : List Written}
    (h : listed? fuel (skipBlank text) = some (items, rest)) :
    document? (fuel + 1) ('[' :: text) = some (.arr items, rest) := by
  have hclose : ∀ more, skipBlank text ≠ ']' :: more := fun more heq ↦ by
    rw [heq] at h
    cases fuel with
    | zero => cases h
    | succ fuel => cases fuel <;> cases h
  rw [document?]
  split
  next more heq => exact absurd heq (hclose more)
  next =>
    rw [h]
    rfl

/-- An object is its opening brace and then the entries. -/
theorem document?_obj {fuel : Nat} {text rest : List Char} {members : List (Option String × Written)}
    (h : entries? fuel (skipBlank text) = some (members, rest)) :
    document? (fuel + 1) ('{' :: text) = some (.obj members, rest) := by
  have hclose : ∀ more, skipBlank text ≠ '}' :: more := fun more heq ↦ by
    rw [heq] at h
    cases fuel <;> cases h
  rw [document?]
  split
  next more heq => exact absurd heq (hclose more)
  next =>
    rw [h]
    rfl

theorem document?_numeral {fuel : Nat} {text rest : List Char} {n : Numeral}
    (h : numeral? text = some (n, rest)) :
    document? (fuel + 1) text = some (.num n.value?, rest) := by
  rw [document?]
  · rw [h]
    rfl
  all_goals
    rintro more rfl
    cases h

/-- An item before a closing bracket is the last one. -/
theorem listed?_last {fuel : Nat} {text left rest : List Char} {item : Written}
    (hitem : document? fuel text = some (item, left)) (hleft : skipBlank left = ']' :: rest) :
    listed? (fuel + 1) text = some ([item], rest) := by
  rw [listed?, hitem, Option.bind_some]
  simp [hleft]

/-- An item before a comma is followed by more. -/
theorem listed?_more {fuel : Nat} {text left rest : List Char} {item : Written}
    {items : List Written} (hitem : document? fuel text = some (item, ',' :: left))
    (hitems : listed? fuel (skipBlank left) = some (items, rest)) :
    listed? (fuel + 1) text = some (item :: items, rest) := by
  rw [listed?, hitem, Option.bind_some]
  simp [skipBlank, hitems]

/-- An entry before a closing brace is the last one. -/
theorem entries?_last {fuel : Nat} {key : String} {text left rest : List Char} {value : Written}
    (hvalue : document? fuel text = some (value, left)) (hleft : skipBlank left = '}' :: rest) :
    entries? (fuel + 1) ((Json.quoted key).toList ++ ':' :: ' ' :: text) =
      some ([(some key, value)], rest) := by
  have hblank : skipBlank (' ' :: text) = text := skipBlank_of_document? hvalue
  have hcolon : skipBlank (':' :: ' ' :: text) = ':' :: ' ' :: text := rfl
  rw [toList_quoted_append, entries?, string?_quoted, Option.bind_some]
  simp [hcolon, hblank, hvalue, hleft]

/-- An entry before a comma is followed by more. -/
theorem entries?_more {fuel : Nat} {key : String} {text left rest : List Char} {value : Written}
    {members : List (Option String × Written)}
    (hvalue : document? fuel text = some (value, ',' :: left))
    (hmembers : entries? fuel (skipBlank left) = some (members, rest)) :
    entries? (fuel + 1) ((Json.quoted key).toList ++ ':' :: ' ' :: text) =
      some ((some key, value) :: members, rest) := by
  have hblank : skipBlank (' ' :: text) = text := skipBlank_of_document? hvalue
  have hcolon : skipBlank (':' :: ' ' :: text) = ':' :: ' ' :: text := rfl
  have hcomma : skipBlank (',' :: left) = ',' :: left := rfl
  rw [toList_quoted_append, entries?, string?_quoted, Option.bind_some]
  simp [hcolon, hblank, hvalue, hcomma, hmembers]

/-! ### Written texts -/

open Json (prettyAt prettyItems prettyMembers newline quoted written writtenItems writtenMembers)

/-- The text of a value is read back, whatever follows it that cannot carry on a numeral. -/
def Legible (value : Json) : Prop :=
  ∀ (level fuel : Nat) (rest : List Char), 2 * (prettyAt level value).toList.length ≤ fuel →
    EndsNumeral rest →
    document? fuel ((prettyAt level value).toList ++ rest) = some (value.written, rest)

/-- The written items of an array are read back. The fuel is counted in characters, two for each, as
each item takes one to begin and one to go on. -/
theorem listed?_prettyItems {items : List Json} (h : ∀ item ∈ items, Legible item)
    (hne : items ≠ []) {level outer fuel : Nat} {rest : List Char}
    (hfuel : 2 * (prettyItems level items).toList.length + 1 ≤ fuel) :
    listed? fuel (skipBlank ((prettyItems level items).toList ++
      ((newline outer).toList ++ ']' :: rest))) = some (writtenItems items, rest) := by
  induction items generalizing fuel with
  | nil => exact absurd rfl hne
  | cons item items ih =>
    obtain ⟨hitem, hitems⟩ := List.forall_mem_cons.1 h
    obtain _ | fuel := fuel
    · omega
    cases items with
    | nil =>
      have htext : ∀ tail, (prettyItems level [item]).toList ++ tail =
          (newline level).toList ++ ((prettyAt level item).toList ++ tail) := by simp [prettyItems]
      have hlength := congrArg List.length (htext [])
      simp only [List.append_nil, List.length_append] at hlength
      have hread := hitem level fuel ((newline outer).toList ++ ']' :: rest) (by omega)
        (endsNumeral_newline _ _)
      rw [htext, skipBlank_newline, skipBlank_of_document? hread]
      exact listed?_last hread (skipBlank_newline outer (']' :: rest))
    | cons next items =>
      have htext : ∀ tail, (prettyItems level (item :: next :: items)).toList ++ tail =
          (newline level).toList ++ ((prettyAt level item).toList ++
            ',' :: ((prettyItems level (next :: items)).toList ++ tail)) := by simp [prettyItems]
      have hlength := congrArg List.length (htext [])
      simp only [List.append_nil, List.length_append, List.length_cons] at hlength
      have hread := hitem level fuel (',' :: ((prettyItems level (next :: items)).toList ++
        ((newline outer).toList ++ ']' :: rest))) (by omega) (endsNumeral_comma _)
      rw [htext, skipBlank_newline, skipBlank_of_document? hread]
      exact listed?_more hread (ih hitems nofun (by omega))

/-- The written members of an object are read back, on the same fuel. -/
theorem entries?_prettyMembers {members : List (String × Json)}
    (h : ∀ member ∈ members, Legible member.2) (hne : members ≠ []) {level outer fuel : Nat}
    {rest : List Char} (hfuel : 2 * (prettyMembers level members).toList.length + 1 ≤ fuel) :
    entries? fuel (skipBlank ((prettyMembers level members).toList ++
      ((newline outer).toList ++ '}' :: rest))) = some (writtenMembers members, rest) := by
  induction members generalizing fuel with
  | nil => exact absurd rfl hne
  | cons member members ih =>
    obtain ⟨key, value⟩ := member
    have hvalue : Legible value := h (key, value) List.mem_cons_self
    have hmembers : ∀ member ∈ members, Legible member.2 := (List.forall_mem_cons.1 h).2
    obtain _ | fuel := fuel
    · omega
    cases members with
    | nil =>
      have htext : ∀ tail, (prettyMembers level [(key, value)]).toList ++ tail =
          (newline level).toList ++ ((quoted key).toList ++
            ':' :: ' ' :: ((prettyAt level value).toList ++ tail)) := by simp [prettyMembers]
      have hlength := congrArg List.length (htext [])
      simp only [List.append_nil, List.length_append, List.length_cons] at hlength
      have hread := hvalue level fuel ((newline outer).toList ++ '}' :: rest) (by omega)
        (endsNumeral_newline _ _)
      rw [htext, skipBlank_newline, skipBlank_quoted]
      exact entries?_last hread (skipBlank_newline outer ('}' :: rest))
    | cons next members =>
      have htext : ∀ tail, (prettyMembers level ((key, value) :: next :: members)).toList ++ tail =
          (newline level).toList ++ ((quoted key).toList ++
            ':' :: ' ' :: ((prettyAt level value).toList ++
              ',' :: ((prettyMembers level (next :: members)).toList ++ tail))) := by
        simp [prettyMembers]
      have hlength := congrArg List.length (htext [])
      simp only [List.append_nil, List.length_append, List.length_cons] at hlength
      have hread := hvalue level fuel (',' :: ((prettyMembers level (next :: members)).toList ++
        ((newline outer).toList ++ '}' :: rest))) (by omega) (endsNumeral_comma _)
      rw [htext, skipBlank_newline, skipBlank_quoted]
      exact entries?_more hread (ih hmembers nofun (by omega))

/-- A number can be read wherever it stands, if the reader gives back what the printer wrote. -/
theorem legible_num {n : Number} (h : n.ReadsBack) : Legible (.num n) := by
  intro level fuel rest hfuel hrest
  obtain ⟨numeral, hnumeral, hvalue⟩ := h
  rw [prettyAt] at hfuel ⊢
  obtain _ | fuel := fuel
  · -- only an empty text would need no fuel, and no number begins with that
    have hnil : (Json.numberText n).toList = [] := List.length_eq_zero_iff.1 (by omega)
    rw [hnil] at hnumeral
    cases hnumeral
  · rw [document?_numeral (numeral?_append hnumeral hrest), hvalue]
    rfl

/-- An array can be read if its items can. -/
theorem legible_arr {items : List Json} (h : ∀ item ∈ items, Legible item) :
    Legible (.arr items) := by
  intro level fuel rest hfuel _
  cases items with
  | nil =>
    obtain _ | fuel := fuel
    · simp [prettyAt] at hfuel
    · simp [prettyAt, document?, skipBlank, written, writtenItems]
  | cons item items =>
    have htext : ∀ tail, (prettyAt level (.arr (item :: items))).toList ++ tail =
        '[' :: ((prettyItems (level + 1) (item :: items)).toList ++
          ((newline level).toList ++ ']' :: tail)) := by simp [prettyAt]
    have hlength := congrArg List.length (htext [])
    simp only [List.append_nil, List.length_cons, List.length_append] at hlength
    obtain _ | fuel := fuel
    · omega
    rw [htext]
    exact document?_arr (listed?_prettyItems h nofun (by omega))

/-- An object can be read if the values of its members can. -/
theorem legible_obj {members : List (String × Json)} (h : ∀ member ∈ members, Legible member.2) :
    Legible (.obj members) := by
  intro level fuel rest hfuel _
  cases members with
  | nil =>
    obtain _ | fuel := fuel
    · simp [prettyAt] at hfuel
    · simp [prettyAt, document?, skipBlank, written, writtenMembers]
  | cons member members =>
    have htext : ∀ tail, (prettyAt level (.obj (member :: members))).toList ++ tail =
        '{' :: ((prettyMembers (level + 1) (member :: members)).toList ++
          ((newline level).toList ++ '}' :: tail)) := by simp [prettyAt]
    have hlength := congrArg List.length (htext [])
    simp only [List.append_nil, List.length_cons, List.length_append] at hlength
    obtain _ | fuel := fuel
    · omega
    rw [htext]
    exact document?_obj (entries?_prettyMembers h nofun (by omega))

/-- Every value whose numbers read back is read back. -/
theorem legible_of_numbersReadBack {value : Json} (h : value.NumbersReadBack) : Legible value := by
  induction h with
  | @intro value hnumber hparts ih =>
    cases value with
    | num n => exact legible_num (hnumber n rfl)
    | arr items => exact legible_arr ih
    | obj members => exact legible_obj (List.forall_mem_map.1 ih)
    | str text =>
      intro level fuel rest hfuel _
      obtain _ | fuel := fuel
      · simp [prettyAt, quoted] at hfuel
      · exact document?_quoted fuel text rest
    | null =>
      intro level fuel rest hfuel _
      obtain _ | fuel := fuel
      · simp [prettyAt] at hfuel
      · simp [prettyAt, document?, word?, written]
    | bool value =>
      intro level fuel rest hfuel _
      obtain _ | fuel := fuel
      · cases value <;> simp [prettyAt] at hfuel
      · cases value <;> simp [prettyAt, document?, word?, written]

/-- A written value is read back as a document, whatever its nesting. -/
theorem read?_pretty {value : Json} (h : value.NumbersReadBack) :
    read? value.pretty = some value.written := by
  have hdocument : document? (2 * value.pretty.toList.length + 2) (value.pretty.toList ++ []) =
      some (value.written, []) :=
    legible_of_numbersReadBack h 0 _ [] (Nat.le_add_right _ 2) nofun
  rw [List.append_nil] at hdocument
  rw [read?, skipBlank_of_document? hdocument, hdocument]
  rfl

end Written

end ContentSchema
