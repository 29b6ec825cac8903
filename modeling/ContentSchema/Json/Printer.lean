import ContentSchema.Decimal.Shortest
import ContentSchema.Json.Basic
import ContentSchema.Text.Hex
/-!
# JSON text

`Json.compact` writes a value without spaces, `Json.pretty` one item or member a line, two spaces an
indent, with `[]` and `{}` for what is empty. Strings are verbatim but for quotes, backslashes and
the characters below the space. Numbers follow `Json.decimals`.
-/

namespace ContentSchema

namespace Json

/-- Doubles are positional from `10⁻⁵` to below `10¹⁶`; a positive exponent carries its sign. -/
def decimals : DecimalFormat := ⟨-5, 16, "+"⟩

/-- A character inside a quoted string. -/
def escapeChar (c : Char) : List Char :=
  if c = '"' then ['\\', '"']
  else if c = '\\' then ['\\', '\\']
  else if c = '\n' then ['\\', 'n']
  else if c = '\r' then ['\\', 'r']
  else if c = '\t' then ['\\', 't']
  else if c.toNat = 8 then ['\\', 'b']
  else if c.toNat = 12 then ['\\', 'f']
  else if c.toNat < 32 then '\\' :: 'u' :: Hex.digits Hex.digit 4 c.toNat
  else [c]

/-- A quoted string. -/
def quoted (text : String) : String :=
  "\"" ++ String.ofList (text.toList.flatMap escapeChar) ++ "\""

/-- The text of a number. -/
def numberText : Number → String
  | .int value => toString value
  | .real value => decimals.renderReal value

/-! ### Compact text -/

mutual

/-- The text of a value without spaces. -/
def compact : Json → String
  | .null => "null"
  | .bool true => "true"
  | .bool false => "false"
  | .num value => numberText value
  | .str text => quoted text
  | .arr items => "[" ++ compactItems items ++ "]"
  | .obj members => "\x7b" ++ compactMembers members ++ "\x7d"

/-- The items, separated by commas. -/
def compactItems : List Json → String
  | [] => ""
  | [item] => compact item
  | item :: items => compact item ++ "," ++ compactItems items

/-- The members, separated by commas. -/
def compactMembers : List (String × Json) → String
  | [] => ""
  | [(key, value)] => quoted key ++ ":" ++ compact value
  | (key, value) :: members => quoted key ++ ":" ++ compact value ++ "," ++ compactMembers members

end

/-! ### Pretty text -/

/-- A line break and the indent of a level. -/
def newline (level : Nat) : String := String.ofList ('\n' :: List.replicate (2 * level) ' ')

mutual

/-- The indented text of a value that stands at `level`. -/
def prettyAt (level : Nat) : Json → String
  | .arr [] => "[]"
  | .obj [] => "\x7b\x7d"
  | .arr items => "[" ++ prettyItems (level + 1) items ++ newline level ++ "]"
  | .obj members => "\x7b" ++ prettyMembers (level + 1) members ++ newline level ++ "\x7d"
  | .null => "null"
  | .bool true => "true"
  | .bool false => "false"
  | .num value => numberText value
  | .str text => quoted text

/-- The items, one a line. -/
def prettyItems (level : Nat) : List Json → String
  | [] => ""
  | [item] => newline level ++ prettyAt level item
  | item :: items => newline level ++ prettyAt level item ++ "," ++ prettyItems level items

/-- The members, one a line. -/
def prettyMembers (level : Nat) : List (String × Json) → String
  | [] => ""
  | [(key, value)] => newline level ++ quoted key ++ ": " ++ prettyAt level value
  | (key, value) :: members =>
    newline level ++ quoted key ++ ": " ++ prettyAt level value ++ "," ++ prettyMembers level members

end

/-- The indented text of a value. -/
def pretty (value : Json) : String := prettyAt 0 value

end Json

end ContentSchema
