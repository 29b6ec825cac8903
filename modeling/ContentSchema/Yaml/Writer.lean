import ContentSchema.Json.Printer
import ContentSchema.Yaml.Char
import ContentSchema.Yaml.Scalar
/-!
# YAML text

Values are written in block style, two columns a level; an array under a key stays at the key's
column, and what is empty is `[]` or `{}`. Lines are never folded.

A text is plain if nothing in it could be misread, else in single quotes; text with line feeds is a
literal block. Both give way to double quotes where escapes are needed or white space would be lost.
A key that breaks lines, or is longer than 128 bytes, is written after a question mark.
-/

namespace ContentSchema.Yaml

/-- How a text is written. -/
inductive Style where
  | plain
  | singleQuoted
  | doubleQuoted
  | literal
deriving DecidableEq, Repr

/-! ### Choosing a style -/

/-- Characters that a plain scalar may not start with. -/
def leadIndicators : List Char :=
  ['#', ',', '[', ']', '\x7b', '\x7d', '&', '*', '!', '|', '>', '\'', '"', '%', '@', '\x60']

/-- Whether a character at the front of a text reads as an indicator, given what follows. -/
def isLeadIndicator (c : Char) (after : List Char) : Bool :=
  leadIndicators.contains c || ((c == '?' || c == ':' || c == '-') && atSeparator after)

/-- Whether indicators stand inside a text: a colon before a separator, or a hash after one. -/
def hasInnerIndicator (before : Char) : List Char → Bool
  | [] => false
  | c :: rest =>
    (c == ':' && atSeparator rest) || (c == '#' && isSeparator before) || hasInnerIndicator c rest

/-- Whether a text reads as something else when it is plain. -/
def hasIndicators (text : List Char) : Bool :=
  match text with
  | '-' :: '-' :: '-' :: _ => true
  | '.' :: '.' :: '.' :: _ => true
  | first :: rest => isLeadIndicator first rest || hasInnerIndicator first rest
  | [] => false

/-- Whether some neighbours satisfy `p`. -/
def hasAdjacent (p : Char → Char → Bool) : List Char → Bool
  | c :: d :: rest => p c d || hasAdjacent p (d :: rest)
  | _ => false

/-- Whether a character needs an escape. -/
def needsEscape (c : Char) : Bool := !isPrintable c

/-- The style of a text. -/
def styleOf (text : String) : Style :=
  let chars := text.toList
  let escapes := chars.any needsEscape
  let spaceThenBreak := hasAdjacent (fun c d ↦ c == ' ' && isBreak d) chars
  let breakThenSpace := hasAdjacent (fun c d ↦ isBreak c && d == ' ') chars
  let edge (c : Option Char) : Bool := (c.map fun c ↦ c == ' ' || isBreak c).getD false
  if chars.contains '\n' then
    if escapes || spaceThenBreak || chars.getLast? == some ' ' then .doubleQuoted else .literal
  else if escapes || spaceThenBreak || breakThenSpace then .doubleQuoted
  else if isAmbiguous text || edge chars.head? || edge chars.getLast? || chars.any isBreak ||
      hasIndicators chars then .singleQuoted
  else .plain

/-! ### Writing a text -/

/-- Spaces up to a column. -/
def pad (column : Nat) : List Char := List.replicate column ' '

/-- A character between double quotes. -/
def escapeChar (c : Char) : List Char :=
  let code := c.toNat
  if isPrintable c && !isBreak c && c != '"' && c != '\\' then [c]
  else
    match [(0x00, '0'), (0x07, 'a'), (0x08, 'b'), (0x09, 't'), (0x0A, 'n'), (0x0B, 'v'), (0x0C, 'f'),
        (0x0D, 'r'), (0x1B, 'e'), (0x22, '"'), (0x5C, '\\'), (0x85, 'N'), (0xA0, '_'), (0x2028, 'L'),
        (0x2029, 'P')].lookup code with
    | some letter => ['\\', letter]
    | none =>
      if code ≤ 0xFF then '\\' :: 'x' :: Hex.digits Hex.upperDigit 2 code
      else if code ≤ 0xFFFF then '\\' :: 'u' :: Hex.digits Hex.upperDigit 4 code
      else '\\' :: 'U' :: Hex.digits Hex.upperDigit 8 code

/-- Text between single quotes: a quote is doubled, and after breaks the line starts at `column`. -/
def singleQuotedBody (column : Nat) (broken : Bool) : List Char → List Char
  | [] => if broken then pad column else []
  | c :: rest =>
    if isBreak c then c :: singleQuotedBody column true rest
    else
      (if broken then pad column else []) ++ (if c == '\'' then ['\'', '\''] else [c]) ++
        singleQuotedBody column false rest

/-- The lines of a literal block, each that is not empty at `column`. -/
def literalBody (column : Nat) (broken : Bool) : List Char → List Char
  | [] => []
  | c :: rest =>
    if isBreak c then c :: literalBody column true rest
    else (if broken then pad column else []) ++ c :: literalBody column false rest

/-- How the breaks at the end of a literal block are kept. -/
inductive Chomping where
  | strip
  | clip
  | keep
deriving DecidableEq, Repr

/-- The chomping of a text: no break at its end, one, or more. -/
def chompingOf (text : List Char) : Chomping :=
  match text.reverse with
  | last :: rest =>
    if !isBreak last then .strip
    else
      match rest with
      | [] => .keep
      | before :: _ => if isBreak before then .keep else .clip
  | [] => .strip

/-- The header of a literal block; a text that starts with a space or break needs its indent. -/
def literalHeader (text : List Char) : List Char :=
  let indent := match text with
    | c :: _ => if c == ' ' || isBreak c then ['2'] else []
    | [] => []
  let chomping := match chompingOf text with
    | .strip => ['-']
    | .clip => []
    | .keep => ['+']
  '|' :: (indent ++ chomping)

/-- A text in its style; further lines start at `column`. -/
def scalar (column : Nat) (text : String) : List Char :=
  let chars := text.toList
  match styleOf text with
  | .plain => chars
  | .singleQuoted => '\'' :: (singleQuotedBody column false chars ++ ['\''])
  | .doubleQuoted => '"' :: (chars.flatMap escapeChar ++ ['"'])
  | .literal => literalHeader chars ++ '\n' :: literalBody column true chars

/-- Whether a key stands on one line before its colon. -/
def isSimpleKey (key : String) : Bool := !key.toList.any isBreak && key.utf8ByteSize ≤ 128

/-! ### Writing a value -/

/-- Doubles are positional as in JSON, and a positive exponent has no sign. -/
def decimals : DecimalFormat := ⟨-5, 16, ""⟩

/-- Ends the line, if the text has not ended it, and goes to a column. -/
def nextLine (column : Nat) (text : List Char) : List Char :=
  match text.getLast? with
  | some c => if isBreak c then text ++ pad column else text ++ '\n' :: pad column
  | none => pad column

/-- What stands before a value: the colon of a simple key, or an indicator of its own. -/
inductive Lead where
  | key
  | indicator
deriving DecidableEq, Repr

/-- Where an array starts after its lead at `column`: under a key on the next line at the key's
column, after an indicator on the same line two columns on. -/
def Lead.beforeArray (lead : Lead) (column : Nat) : List Char × Nat :=
  match lead with
  | .key => ('\n' :: pad column, column)
  | .indicator => ([' '], column + 2)

/-- Where an object starts after its lead at `column`: two columns on in either case. -/
def Lead.beforeObject (lead : Lead) (column : Nat) : List Char × Nat :=
  match lead with
  | .key => ('\n' :: pad (column + 2), column + 2)
  | .indicator => ([' '], column + 2)

/-- A member at `column`, its value given as written after either lead. -/
def entry (column : Nat) (key : String) (value : Lead → List Char) : List Char :=
  if isSimpleKey key then scalar (column + 2) key ++ ':' :: value .key
  else nextLine column ('?' :: ' ' :: scalar (column + 2) key) ++ ':' :: value .indicator

mutual

/-- A value after its lead at `column`, with the space or line break between them. -/
def after (lead : Lead) (column : Nat) : Json → List Char
  | .null => " null".toList
  | .bool true => " true".toList
  | .bool false => " false".toList
  | .num (.int value) => ' ' :: (toString value).toList
  | .num (.real value) => ' ' :: (decimals.renderReal value).toList
  | .str text => ' ' :: scalar (column + 2) text
  | .arr items =>
    if items.isEmpty then " []".toList
    else
      let (gap, start) := lead.beforeArray column
      gap ++ sequence start items
  | .obj members =>
    if members.isEmpty then " \x7b\x7d".toList
    else
      let (gap, start) := lead.beforeObject column
      gap ++ mapping start members

/-- The items of an array, at `column`. -/
def sequence (column : Nat) : List Json → List Char
  | [] => []
  | [item] => '-' :: after .indicator column item
  | item :: items => nextLine column ('-' :: after .indicator column item) ++ sequence column items

/-- The members of an object, at `column`. -/
def mapping (column : Nat) : List (String × Json) → List Char
  | [] => []
  | [(key, value)] => entry column key fun lead ↦ after lead column value
  | (key, value) :: members =>
    nextLine column (entry column key fun lead ↦ after lead column value) ++ mapping column members

end

/-- The document of an object. -/
def render (value : Json) : String :=
  let body := match value with
    | .obj (member :: members) => mapping 0 (member :: members)
    | value => (after .indicator 0 value).drop 1
  String.ofList (nextLine 0 body)

end ContentSchema.Yaml
