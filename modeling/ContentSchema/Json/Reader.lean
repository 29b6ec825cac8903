import ContentSchema.Json.Written
import ContentSchema.Text.Hex
/-!
# Reading JSON text

The grammar is the strict one: white space is space, tab, line feed and carriage return; a numeral
has no leading zero and no bare point; a string holds no character below the space; nothing stands
after the value. `Written.read?` gives the document as written, `Json.read?` its value.

Every step returns what is left of the text. The recursion over values is bounded by a count of
steps: an opening bracket takes two, for the array and for its first item, and all else at most one
a character, so twice the length and two are enough.
-/

namespace ContentSchema

namespace Written

/-- Drops white space. -/
def skipBlank : List Char → List Char
  | c :: rest => if c = ' ' ∨ c = '\t' ∨ c = '\n' ∨ c = '\r' then skipBlank rest else c :: rest
  | [] => []

/-! ### Numerals -/

/-- A numeral: its sign, its whole digits and, if written, its fraction and exponent. -/
structure Numeral where
  negative : Bool
  whole : List Char
  fraction : Option (List Char)
  exponent : Option (Bool × List Char)

/-- The digits at the front of a text, at least one of them. -/
def digits? (text : List Char) : Option (List Char × List Char) :=
  let digits := text.takeWhile Char.isDigit
  if digits.isEmpty then none else some (digits, text.dropWhile Char.isDigit)

/-- Whether a minus sign stands at the front of a text, and what is left after it. -/
def minus : List Char → Bool × List Char
  | '-' :: rest => (true, rest)
  | rest => (false, rest)

/-- The fraction at the front of a text, if one is written. -/
def fraction? : List Char → Option (Option (List Char) × List Char)
  | '.' :: rest => (digits? rest).map fun (digits, rest) ↦ (some digits, rest)
  | rest => some (none, rest)

/-- Whether an exponent is negative; it may have either sign or none. -/
def exponentSign : List Char → Bool × List Char
  | '-' :: rest => (true, rest)
  | '+' :: rest => (false, rest)
  | rest => (false, rest)

/-- The exponent at the front of a text, if one is written. -/
def exponent? : List Char → Option (Option (Bool × List Char) × List Char)
  | e :: rest =>
    if e = 'e' ∨ e = 'E' then
      let (negative, rest) := exponentSign rest
      (digits? rest).map fun (digits, rest) ↦ (some (negative, digits), rest)
    else some (none, e :: rest)
  | [] => some (none, [])

/-- The numeral at the front of a text. -/
def numeral? (text : List Char) : Option (Numeral × List Char) := do
  let (negative, text) := minus text
  let (whole, text) ← digits? text
  guard (whole.head? ≠ some '0' ∨ whole.length = 1)
  let (fraction, text) ← fraction? text
  let (exponent, text) ← exponent? text
  return (⟨negative, whole, fraction, exponent⟩, text)

/-- The significand while digits are read: whether it still takes digits, its value, and how many
powers of ten it is short of. -/
structure Significand where
  takes : Bool
  value : Nat
  scale : Int

/-- Takes a digit if the significand stays below `2 ^ 64`; the first that does not fit closes it. A
digit taken changes the scale by `taken`, one left out by `dropped`. -/
def Significand.push (taken dropped : Int) (s : Significand) (digit : Char) : Significand :=
  let value := s.value * 10 + (digit.toNat - '0'.toNat)
  if s.takes && value < Nat.pow 2 64 then ⟨true, value, s.scale + taken⟩
  else ⟨false, s.value, s.scale + dropped⟩

/-- The value of a numeral: an integer if it is written as one and lies in `-2⁶³ … 2⁶⁴ - 1` (and is
not `-0`), else the double of its significand and scale. -/
def Numeral.value? (n : Numeral) : Option Number :=
  let magnitude := digitsValue n.whole
  let isInteger := n.fraction.isNone && n.exponent.isNone &&
    (if n.negative then 0 < magnitude && magnitude ≤ Nat.pow 2 63 else magnitude < Nat.pow 2 64)
  if isInteger then some (.int (if n.negative then -(magnitude : Int) else magnitude))
  else
    let whole := n.whole.foldl (Significand.push 0 1) ⟨true, 0, 0⟩
    let all := (n.fraction.getD []).foldl (Significand.push (-1) 0) { whole with takes := true }
    let exponent : Int :=
      match n.exponent with
      | none => 0
      | some (true, digits) => -(digitsValue digits : Int)
      | some (false, digits) => digitsValue digits
    (Binary64.ofScaled n.negative all.value (all.scale + exponent)).map .real

/-! ### Strings -/

/-- The unit of four hexadecimal digits. -/
def unit? (a b c d : Char) : Option Nat := Hex.number? [a, b, c, d]

/-- The character of a one-letter escape. -/
def escaped? (c : Char) : Option Char :=
  if c = '"' ∨ c = '\\' ∨ c = '/' then some c
  else if c = 'b' then some (Char.ofNat 8)
  else if c = 'f' then some (Char.ofNat 12)
  else if c = 'n' then some '\n'
  else if c = 'r' then some '\r'
  else if c = 't' then some '\t'
  else none

/-- A string while it is read: the characters so far, last first, whether all of it has a value, and
the first half of a surrogate pair whose second half must follow. -/
structure Partial where
  chars : List Char
  sound : Bool
  high : Option Nat

/-- Adds a character; a pending half pair is then unsound. -/
def Partial.push (p : Partial) (c : Char) : Partial := ⟨c :: p.chars, p.sound && p.high.isNone, none⟩

/-- Adds a unit given by its number, joining the halves of a pair. -/
def Partial.pushUnit (p : Partial) (n : Nat) : Partial :=
  if 0xDC00 ≤ n ∧ n ≤ 0xDFFF then
    match p.high with
    | some high =>
      ⟨Char.ofNat (0x10000 + (high - 0xD800) * 0x400 + (n - 0xDC00)) :: p.chars, p.sound, none⟩
    | none => ⟨p.chars, false, none⟩
  else if 0xD800 ≤ n ∧ n ≤ 0xDBFF then ⟨p.chars, p.sound && p.high.isNone, some n⟩
  else p.push (Char.ofNat n)

/-- The finished string, if all of it has a value. -/
def Partial.text? (p : Partial) : Option String :=
  if p.sound && p.high.isNone then some (String.ofList p.chars.reverse) else none

/-- The rest of a string after its opening quote, and what follows the closing one. -/
def string? (p : Partial) : List Char → Option (Option String × List Char)
  | '"' :: rest => some (p.text?, rest)
  | '\\' :: 'u' :: a :: b :: c :: d :: rest =>
    match unit? a b c d with
    | some n => string? (p.pushUnit n) rest
    | none => none
  | '\\' :: e :: rest =>
    match escaped? e with
    | some c => string? (p.push c) rest
    | none => none
  | c :: rest => if c = '\\' ∨ c.toNat < 32 then none else string? (p.push c) rest
  | [] => none

/-- An empty string at its start. -/
def Partial.empty : Partial := ⟨[], true, none⟩

/-! ### Documents -/

/-- Drops the front of a text that must be `word`. -/
def word? (word : List Char) (text : List Char) : Option (List Char) :=
  match word, text with
  | [], rest => some rest
  | c :: word, d :: text => if c = d then word? word text else none
  | _ :: _, [] => none

mutual

/-- The document at the front of a text, which starts with no white space. -/
def document? (fuel : Nat) (text : List Char) : Option (Written × List Char) :=
  match fuel with
  | 0 => none
  | fuel + 1 =>
    match text with
    | 'n' :: rest => (word? "ull".toList rest).map (.null, ·)
    | 't' :: rest => (word? "rue".toList rest).map (.bool true, ·)
    | 'f' :: rest => (word? "alse".toList rest).map (.bool false, ·)
    | '"' :: rest => (string? .empty rest).map fun (text, rest) ↦ (.str text, rest)
    | '[' :: rest =>
      match skipBlank rest with
      | ']' :: rest => some (.arr [], rest)
      | rest => (listed? fuel rest).map fun (items, rest) ↦ (.arr items, rest)
    | '{' :: rest =>
      match skipBlank rest with
      | '}' :: rest => some (.obj [], rest)
      | rest => (entries? fuel rest).map fun (members, rest) ↦ (.obj members, rest)
    | rest => (numeral? rest).map fun (n, rest) ↦ (.num n.value?, rest)

/-- The items of an array that is not empty, up to and past its bracket. -/
def listed? (fuel : Nat) (text : List Char) : Option (List Written × List Char) :=
  match fuel with
  | 0 => none
  | fuel + 1 =>
    (document? fuel text).bind fun (item, rest) ↦
      match skipBlank rest with
      | ',' :: rest => (listed? fuel (skipBlank rest)).map fun (items, rest) ↦ (item :: items, rest)
      | ']' :: rest => some ([item], rest)
      | _ => none

/-- The members of an object that is not empty, up to and past its brace. -/
def entries? (fuel : Nat) (text : List Char) : Option (List (Option String × Written) × List Char) :=
  match fuel with
  | 0 => none
  | fuel + 1 =>
    match text with
    | '"' :: rest =>
      (string? .empty rest).bind fun (key, rest) ↦
        match skipBlank rest with
        | ':' :: rest =>
          (document? fuel (skipBlank rest)).bind fun (value, rest) ↦
            match skipBlank rest with
            | ',' :: rest =>
              (entries? fuel (skipBlank rest)).map fun (members, rest) ↦
                ((key, value) :: members, rest)
            | '}' :: rest => some ([(key, value)], rest)
            | _ => none
        | _ => none
    | _ => none

end

/-- The document that a text holds. -/
def read? (text : String) : Option Written :=
  let chars := text.toList
  match document? (2 * chars.length + 2) (skipBlank chars) with
  | some (document, rest) => if (skipBlank rest).isEmpty then some document else none
  | none => none

end Written

/-- The value that a text holds. -/
def Json.read? (text : String) : Option Json := (Written.read? text).bind Written.toJson?

end ContentSchema
