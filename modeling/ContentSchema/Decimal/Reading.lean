import ContentSchema.Decimal.Binary64
/-!
# Reading decimals

Two rules turn decimal digits into a double. `Binary64.ofScaled` is the quick rule of JSON texts: the
significand is rounded, then multiplied or divided by a rounded power of ten, so the result may be
next to the nearest double. `Real64.ofText?` is the exact rule: one rounding of the decimal itself,
with infinities and not-a-number by name.
-/

namespace ContentSchema

/-- The value of a list of decimal digits. -/
def digitsValue (digits : List Char) : Nat :=
  digits.foldl (fun value digit ↦ value * 10 + (digit.toNat - '0'.toNat)) 0

namespace Binary64

/-- `±significand · 10 ^ exponent` by one rounded multiplication or division, for exponents up to
308; below `-308` the division is done in steps of 308, and above there is no value unless the
significand is zero. Three steps bring every 64-bit significand to zero, which bounds the fuel. -/
def scaleByTen (fuel : Nat) (x : Binary64) (exponent : Int) : Option Binary64 :=
  match fuel with
  | 0 => some zero
  | fuel + 1 =>
    if exponent.natAbs ≤ 308 then
      (ofRatio false (Nat.pow 10 exponent.natAbs) 1).bind fun power ↦
        if 0 ≤ exponent then x.mul power else x.div power
    else if x.isZero then some x
    else if 0 ≤ exponent then none
    else (ofRatio false (Nat.pow 10 308) 1).bind fun power ↦
      (x.div power).bind fun y ↦ scaleByTen fuel y (exponent + 308)

/-- The double of a decimal under the quick rule. -/
def ofScaled (negative : Bool) (significand : Nat) (exponent : Int) : Option Binary64 :=
  (ofRatio false significand 1).bind fun x ↦
    (scaleByTen 4 x exponent).map (withSign negative)

/-- The double nearest to `±significand · 10 ^ exponent`, or nothing when that overflows. The two
guards keep the powers small: such values are beyond every double, or below half the least one. -/
def ofDecimal (negative : Bool) (significand : Nat) (exponent : Int) : Option Binary64 :=
  let size : Int := (Nat.toDigits 10 significand).length + exponent
  if significand = 0 ∨ size < -400 then some (zero.withSign negative)
  else if 400 < size then none
  else if 0 ≤ exponent then ofRatio negative (significand * Nat.pow 10 exponent.toNat) 1
  else ofRatio negative significand (Nat.pow 10 (-exponent).toNat)

end Binary64

/-- A decimal as written: digits, a point with at least one digit on either side, an exponent. -/
def decimalParts? (text : List Char) : Option (Nat × Int) :=
  let whole := text.takeWhile Char.isDigit
  let afterWhole := text.dropWhile Char.isDigit
  let (fraction, afterFraction) :=
    match afterWhole with
    | '.' :: rest => (rest.takeWhile Char.isDigit, rest.dropWhile Char.isDigit)
    | rest => ([], rest)
  if whole.isEmpty && fraction.isEmpty then none
  else
    let significand := digitsValue (whole ++ fraction)
    let scale : Int := -(fraction.length : Int)
    let exponent (negative : Bool) (digits : List Char) : Option (Nat × Int) :=
      if digits.isEmpty || !digits.all Char.isDigit then none
      else
        let n : Int := digitsValue digits
        some (significand, scale + if negative then -n else n)
    match afterFraction with
    | [] => some (significand, scale)
    | e :: rest =>
      if e == 'e' || e == 'E' then
        match rest with
        | '+' :: digits => exponent false digits
        | '-' :: digits => exponent true digits
        | digits => exponent false digits
      else none

/-- The double that a decimal text denotes: correctly rounded, infinite beyond the range; `inf`,
`infinity` and `nan` in any case are read too. -/
def Real64.ofText? (text : String) : Option Real64 :=
  let (negative, body) :=
    match text.toList with
    | '-' :: rest => (true, rest)
    | '+' :: rest => (false, rest)
    | rest => (false, rest)
  let word := body.map Char.toLower
  if word = "inf".toList ∨ word = "infinity".toList then some (.infinite negative)
  else if word = "nan".toList then some .nan
  else
    (decimalParts? body).map fun (significand, exponent) ↦
      match Binary64.ofDecimal negative significand exponent with
      | some x => .finite x
      | none => .infinite negative

end ContentSchema
