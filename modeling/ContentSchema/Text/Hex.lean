/-!
# Hexadecimal digits

Reading takes both cases; writing says which one it uses and how many digits it writes, the last ones
of the number.
-/

namespace ContentSchema.Hex

/-- The value of a digit. -/
def value? (c : Char) : Option Nat :=
  if '0' ≤ c ∧ c ≤ '9' then some (c.toNat - '0'.toNat)
  else if 'a' ≤ c ∧ c ≤ 'f' then some (c.toNat - 'a'.toNat + 10)
  else if 'A' ≤ c ∧ c ≤ 'F' then some (c.toNat - 'A'.toNat + 10)
  else none

/-- The number that a list of digits writes. -/
def number? (digits : List Char) : Option Nat :=
  digits.foldlM (fun value c ↦ (value? c).map (value * 16 + ·)) 0

/-- A digit in lower case. -/
def digit (n : Nat) : Char := "0123456789abcdef".toList.getD n '0'

/-- A digit in upper case. -/
def upperDigit (n : Nat) : Char := "0123456789ABCDEF".toList.getD n '0'

/-- The last `width` digits of a number, each written by `write`. -/
def digits (write : Nat → Char) (width n : Nat) : List Char :=
  match width with
  | 0 => []
  | width + 1 => write (n / Nat.pow 16 width % 16) :: digits write width n

end ContentSchema.Hex
