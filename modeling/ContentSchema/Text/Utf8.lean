/-!
# UTF-8 with replacement

Bytes that are not well-formed UTF-8 are read with the replacement character in their place: one for
each longest start of a well-formed sequence that does not go on, and one for each byte that can start
none. A lead byte decides how many continuation bytes follow and what range the first of them has,
which rules out overlong forms, surrogates and what lies past the last code point.
-/

namespace ContentSchema.Utf8

/-- The part of the code that a lead byte carries, and the ranges of the bytes that must follow it. -/
def lead? (byte : Nat) : Option (Nat × List (Nat × Nat)) :=
  let any := (0x80, 0xBF)
  if byte < 0x80 then some (byte, [])
  else if byte < 0xC2 then none
  else if byte < 0xE0 then some (byte - 0xC0, [any])
  else if byte = 0xE0 then some (0, [(0xA0, 0xBF), any])
  else if byte = 0xED then some (0xD, [(0x80, 0x9F), any])
  else if byte < 0xF0 then some (byte - 0xE0, [any, any])
  else if byte = 0xF0 then some (0, [(0x90, 0xBF), any, any])
  else if byte < 0xF4 then some (byte - 0xF0, [any, any, any])
  else if byte = 0xF4 then some (4, [(0x80, 0x8F), any, any])
  else none

/-- Reads the bytes that must follow a lead byte, as far as they are there: the code, if all are, and
what is left. -/
def follow (code : Nat) : List (Nat × Nat) → List UInt8 → Option Nat × List UInt8
  | [], rest => (some code, rest)
  | _ :: _, [] => (none, [])
  | (low, high) :: ranges, byte :: rest =>
    if low ≤ byte.toNat ∧ byte.toNat ≤ high then follow (code * 64 + (byte.toNat - 0x80)) ranges rest
    else (none, byte :: rest)

theorem length_follow_le (code : Nat) (ranges : List (Nat × Nat)) (bytes : List UInt8) :
    (follow code ranges bytes).2.length ≤ bytes.length := by
  fun_induction follow code ranges bytes <;> simp_all
  omega

/-- The replacement character. -/
def replacement : Char := Char.ofNat 0xFFFD

/-- The characters of a list of bytes, after those in `before`, last first. -/
def decodeAfter (before : List Char) : List UInt8 → List Char
  | [] => before.reverse
  | byte :: rest =>
    match lead? byte.toNat with
    | none => decodeAfter (replacement :: before) rest
    | some (code, ranges) =>
      let followed := follow code ranges rest
      decodeAfter ((followed.1.map Char.ofNat).getD replacement :: before) followed.2
termination_by bytes => bytes.length
decreasing_by
  · simp
  · have := length_follow_le code ranges rest
    simp only [List.length_cons]
    omega

/-- The text of a sequence of bytes. -/
def decode (bytes : ByteArray) : String := String.ofList (decodeAfter [] bytes.toList)

end ContentSchema.Utf8
