import ContentSchema.Decimal.Binary64
/-!
# Shortest decimal text

A double is the nearest one to every real in an interval around it, ends included when its
significand is even. `Binary64.shortest` gives the decimal with the fewest digits in that interval,
and of those the nearest to the value, a tie going to the even digit. The search takes the two
neighbours of the value on the grid of `1, 2, … 17` digits; the first grid with a hit wins.

How such a decimal is written is a `DecimalFormat`: which exponents are positional, and how the
exponent is introduced.
-/

namespace ContentSchema

/-- A positive decimal `0.d₁d₂…` scaled: the digits `digits`, the last standing for `10 ^ exponent`. -/
structure Decimal where
  digits : Nat
  exponent : Int
deriving DecidableEq, Repr, Inhabited

namespace Decimal

/-- The digits as text. -/
def digitText (d : Decimal) : List Char := Nat.toDigits 10 d.digits

/-- The exponent of the leading digit. -/
def leading (d : Decimal) : Int := d.exponent + (d.digitText.length : Int) - 1

/-- Drops trailing zeros; `fuel` bounds their number. -/
def trim (fuel : Nat) (d : Decimal) : Decimal :=
  match fuel with
  | 0 => d
  | fuel + 1 =>
    if d.digits ≠ 0 ∧ d.digits % 10 = 0 then trim fuel ⟨d.digits / 10, d.exponent + 1⟩ else d

end Decimal

namespace Binary64

/-- `10 ^ k` as a fraction. -/
def tenPower (k : Int) : Nat × Nat :=
  if 0 ≤ k then (Nat.pow 10 k.toNat, 1) else (1, Nat.pow 10 (-k).toNat)

/-- Whether `a / b ≤ c / d` for positive denominators. -/
def fractionLe (x y : Nat × Nat) : Bool := x.1 * y.2 ≤ y.1 * x.2

/-- The exponent of the leading decimal digit of a positive fraction: the estimate from the binary
length is right or next to it. -/
def leadingExponent (value : Nat × Nat) : Int :=
  let estimate := Int.fdiv (((value.1.log2 : Int) - value.2.log2) * 30103) 100000
  if !fractionLe (tenPower estimate) value then estimate - 1
  else if fractionLe (tenPower (estimate + 1)) value then estimate + 1
  else estimate

/-- Four times the lower end, the value and the upper end of the interval that rounds to `x`, as
fractions over one denominator. -/
def roundingInterval (x : Binary64) : Nat × Nat × Nat × Nat :=
  let below := if x.significand = Nat.pow 2 52 ∧ -1074 < x.exponent then 1 else 2
  let m := 4 * x.significand
  if 0 ≤ x.exponent then
    let scale := Nat.pow 2 x.exponent.toNat
    ((m - below) * scale, m * scale, (m + 2) * scale, 4)
  else (m - below, m, m + 2, 4 * Nat.pow 2 (-x.exponent).toNat)

/-- The better of the two neighbours of `x` on the grid of step `10 ^ exponent`, if one of them
reads back as `x`. -/
def onGrid? (x : Binary64) (exponent : Int) : Option Decimal :=
  let (low, value, high, den) := x.roundingInterval
  let step := tenPower exponent
  -- in units of the step: the ends and the value over `den * step.1`
  let unit := den * step.1
  let low := low * step.2
  let value := value * step.2
  let high := high * step.2
  let inside (n : Nat) : Bool :=
    if x.significand % 2 = 0 then low ≤ n * unit && n * unit ≤ high
    else low < n * unit && n * unit < high
  let down := value / unit
  let up := down + 1
  let gapDown := value - down * unit
  let gapUp := up * unit - value
  match inside down && down != 0, inside up with
  | true, true =>
    if gapDown < gapUp || (gapDown == gapUp && down % 2 == 0) then some ⟨down, exponent⟩
    else some ⟨up, exponent⟩
  | true, false => some ⟨down, exponent⟩
  | false, true => some ⟨up, exponent⟩
  | false, false => none

/-- The shortest decimal that reads back as the magnitude of `x`, which is not zero. -/
def shortest (x : Binary64) : Decimal :=
  let top := leadingExponent x.magnitude
  let hit := (List.range 17).findSome? fun (k : Nat) ↦ onGrid? x (top - k)
  (hit.getD ⟨0, 0⟩).trim 17

end Binary64

/-- How a decimal is written. -/
structure DecimalFormat where
  /-- Leading exponents from `least` on are written positionally. -/
  least : Int
  /-- From this leading exponent on the scientific form is used. -/
  limit : Int
  /-- What stands before a non-negative exponent of the scientific form. -/
  positiveExponent : String

namespace DecimalFormat

/-- The text of a positive decimal. -/
def render (format : DecimalFormat) (d : Decimal) : String :=
  let digits := d.digitText
  let leading := d.leading
  if format.least ≤ leading ∧ leading < format.limit then
    if leading < 0 then
      "0." ++ String.ofList (List.replicate (-leading - 1).toNat '0' ++ digits)
    else
      let whole := leading.toNat + 1
      let padded := digits ++ List.replicate (whole - digits.length) '0'
      let fraction := padded.drop whole
      String.ofList (padded.take whole) ++ "." ++
        (if fraction.isEmpty then "0" else String.ofList fraction)
  else
    let exponent :=
      if leading < 0 then "e-" ++ toString leading.natAbs
      else "e" ++ format.positiveExponent ++ toString leading.natAbs
    match digits with
    | [digit] => String.ofList [digit] ++ exponent
    | first :: rest => String.ofList (first :: '.' :: rest) ++ exponent
    | [] => exponent

/-- The text of a double; zero keeps its sign. -/
def renderReal (format : DecimalFormat) (x : Binary64) : String :=
  let sign := if x.negative then "-" else ""
  if x.isZero then sign ++ "0.0" else sign ++ format.render x.shortest

end DecimalFormat

end ContentSchema
