import ContentSchema.Decimal.Reading
/-!
# What plain scalars mean

A plain scalar may stand for null, a truth value or a number; any other is text. The rules are those
of the core schema: decimal, hexadecimal, octal and binary integers, decimals with point and
exponent, infinities and not-a-number with a leading point. Digits after a leading zero are text.
-/

namespace ContentSchema.Yaml

/-- The spellings of null. -/
def isNullWord (text : String) : Bool := ["null", "Null", "NULL", "~"].contains text

/-- The spellings of the truth values. -/
def isBoolWord (text : String) : Bool :=
  ["true", "True", "TRUE", "false", "False", "FALSE"].contains text

/-- The value of a digit in a base of at most 16. -/
def digitValue? (base : Nat) (c : Char) : Option Nat :=
  let value :=
    if '0' ≤ c ∧ c ≤ '9' then c.toNat - '0'.toNat
    else if 'a' ≤ c ∧ c ≤ 'f' then c.toNat - 'a'.toNat + 10
    else if 'A' ≤ c ∧ c ≤ 'F' then c.toNat - 'A'.toNat + 10
    else 16
  if value < base then some value else none

/-- The natural number that digits of a base denote; there must be one digit at least. -/
def natOfDigits? (base : Nat) (digits : List Char) : Option Nat :=
  if digits.isEmpty then none
  else
    digits.foldlM (fun value c ↦ (digitValue? base c).map fun digit ↦ value * base + digit) 0

/-- Whether a text starts with a sign. -/
def startsWithSign : List Char → Bool
  | '+' :: _ | '-' :: _ => true
  | _ => false

/-- Whether a text is digits after a leading zero, which are no number. -/
def isZeroPadded (text : List Char) : Bool :=
  let digits := if startsWithSign text then text.drop 1 else text
  1 < digits.length && digits.head? == some '0' && digits.all Char.isDigit

/-- The natural number of a text, with or without a plus sign, below a limit. -/
def nat? (limit : Nat) (text : List Char) : Option Nat :=
  let body := match text with
    | '+' :: rest => rest
    | rest => rest
  let below (n : Option Nat) : Option Nat := n.bind fun n ↦ if n < limit then some n else none
  let decimal : Option Nat :=
    if startsWithSign body || isZeroPadded text then none else below (natOfDigits? 10 body)
  match body with
  | '0' :: 'x' :: digits => below (natOfDigits? 16 digits)
  | '0' :: 'o' :: digits => below (natOfDigits? 8 digits)
  | '0' :: 'b' :: digits => below (natOfDigits? 2 digits)
  | _ => decimal

/-- Whether a text is an integer of at most 128 bits. -/
def isInteger (text : List Char) : Bool :=
  match text with
  | '-' :: rest =>
    let least := Nat.pow 2 127 + 1
    !startsWithSign rest && (nat? least rest).isSome
  | _ => (nat? (Nat.pow 2 128) text).isSome

/-- Whether a text is a number with a point or an exponent, or names infinity or not-a-number. -/
def isReal (text : List Char) : Bool :=
  let body := match text with
    | '+' :: rest => rest
    | rest => rest
  let signed := text.length ≠ body.length && startsWithSign body
  if signed then false
  else
    [".inf", ".Inf", ".INF"].contains (String.ofList body) ||
      ["-.inf", "-.Inf", "-.INF", ".nan", ".NaN", ".NAN"].contains (String.ofList text) ||
      (match Real64.ofText? (String.ofList body) with
        | some (.finite _) => true
        | _ => false)

/-- Whether a plain scalar of this text could be taken for something else than text. -/
def isAmbiguous (text : String) : Bool :=
  let chars := text.toList
  chars.isEmpty || isNullWord text || isBoolWord text || isInteger chars || isZeroPadded chars ||
    isReal chars

end ContentSchema.Yaml
