/-!
# Double-precision numbers as exact data

A finite double is a sign, a significand and a power of two, kept in the one canonical form of its
value, so that two of them are equal exactly when they have the same bits. All arithmetic goes
through `ofRatio`, which rounds an exact quotient to the nearest double, a tie to the even
significand, and has no answer where the result is not finite. Nothing here uses machine floats.
-/

namespace ContentSchema

/-- The significands and exponents of finite doubles: normal numbers have 53 significant bits, and
subnormal ones share the least exponent. -/
def Binary64.Canonical (significand : Nat) (exponent : Int) : Prop :=
  (significand < Nat.pow 2 52 ∧ exponent = -1074) ∨
    (Nat.pow 2 52 ≤ significand ∧ significand < Nat.pow 2 53 ∧ -1074 ≤ exponent ∧ exponent ≤ 971)

instance (significand : Nat) (exponent : Int) :
    Decidable (Binary64.Canonical significand exponent) := by
  unfold Binary64.Canonical; infer_instance

/-- A finite double, `±significand · 2 ^ exponent`. -/
structure Binary64 where
  negative : Bool
  significand : Nat
  exponent : Int
  canonical : Binary64.Canonical significand exponent
deriving DecidableEq

namespace Binary64

/-- Positive zero. -/
def zero : Binary64 := ⟨false, 0, -1074, by decide⟩

instance : Inhabited Binary64 := ⟨zero⟩

/-- Gives a magnitude the sign `negative`. -/
def withSign (negative : Bool) (x : Binary64) : Binary64 := { x with negative := negative }

/-- Whether the value is zero, of either sign. -/
def isZero (x : Binary64) : Bool := x.significand == 0

/-- Numeric equality: the two zeros are one number. -/
def equals (x y : Binary64) : Bool := x == y || (x.isZero && y.isZero)

/-! ### Rounding -/

/-- The integer nearest to `num / den`, a tie going to the even neighbour. -/
def roundQuotient (num den : Nat) : Nat :=
  let quotient := num / den
  let twice := 2 * (num % den)
  if twice < den then quotient
  else if den < twice then quotient + 1
  else if quotient % 2 = 0 then quotient else quotient + 1

/-- `num / den / 2 ^ exponent`, rounded to an integer. -/
def significandAt (num den : Nat) (exponent : Int) : Nat :=
  if 0 ≤ exponent then roundQuotient num (den * Nat.pow 2 exponent.toNat)
  else roundQuotient (num * Nat.pow 2 (-exponent).toNat) den

/-- The double of the given parts, if they are the canonical form of a finite one. -/
def ofParts? (negative : Bool) (significand : Nat) (exponent : Int) : Option Binary64 :=
  if h : Canonical significand exponent then some ⟨negative, significand, exponent, h⟩ else none

/-- The double nearest to `±num / den`, or nothing when that overflows.

The trial exponent makes the quotient 53 or 54 bits wide, so it is right or one too small; a
significand that rounds up to `2 ^ 53` is `2 ^ 52` one exponent higher. -/
def ofRatio (negative : Bool) (num den : Nat) : Option Binary64 :=
  if num = 0 then some (zero.withSign negative)
  else
    let trial : Int := max ((num.log2 : Int) - den.log2 - 53) (-1074)
    let exponent := if significandAt num den trial < Nat.pow 2 53 then trial else trial + 1
    let significand := significandAt num den exponent
    if significand = Nat.pow 2 53 then ofParts? negative (Nat.pow 2 52) (exponent + 1)
    else ofParts? negative significand exponent

/-- The double nearest to an integer. -/
def ofInt (n : Int) : Option Binary64 := ofRatio (n < 0) n.natAbs 1

/-! ### Exact values -/

/-- The magnitude as a fraction `num / den` with a positive denominator. -/
def magnitude (x : Binary64) : Nat × Nat :=
  if 0 ≤ x.exponent then (x.significand * Nat.pow 2 x.exponent.toNat, 1)
  else (x.significand, Nat.pow 2 (-x.exponent).toNat)

/-- The product, rounded once. -/
def mul (x y : Binary64) : Option Binary64 :=
  let a := x.magnitude
  let b := y.magnitude
  ofRatio (x.negative != y.negative) (a.1 * b.1) (a.2 * b.2)

/-- The quotient by a number that is not zero, rounded once. -/
def div (x y : Binary64) : Option Binary64 :=
  let a := x.magnitude
  let b := y.magnitude
  ofRatio (x.negative != y.negative) (a.1 * b.2) (a.2 * b.1)

/-- The value as an integer, when it has no fraction. -/
def toInt? (x : Binary64) : Option Int :=
  let (num, den) := x.magnitude
  if num % den = 0 then
    let n : Int := (num / den : Nat)
    some (if x.negative then -n else n)
  else none

end Binary64

/-- A double of any class, as the bound of a number may be one. -/
inductive Real64 where
  | finite (value : Binary64)
  | infinite (negative : Bool)
  | nan
deriving DecidableEq

end ContentSchema
