import ContentSchema.Text.Hex
import ContentSchema.Yaml.Char
/-!
# Texts of scalars

How the characters of a scalar become its text. Before anything is read, `plainBreaks` makes every
line feed, carriage return and next line one line feed, so each break is a single character.

Plain and quoted scalars fold: blanks around a line break vanish, a single break is a space, and of
more the first vanishes. `Folding` holds a text with the white space that may still be dropped. In a
block scalar the indent of its first line that is not empty counts, or the one in its header; a
folded block joins neighbouring lines that do not start with a blank.

Each reader is a recursion on the characters left and returns them with the place they start at.
-/

namespace ContentSchema.Yaml

/-- Makes every spelling of the end of a line one line feed. -/
def plainBreaks : List Char → List Char
  | '\r' :: '\n' :: rest => '\n' :: plainBreaks rest
  | c :: rest => (if c == '\r' || c.toNat == 0x85 then '\n' else c) :: plainBreaks rest
  | [] => []

/-- A place in a document: characters before it, lines before it, characters before it on its line. -/
structure Place where
  index : Nat
  line : Nat
  column : Nat
deriving Repr, DecidableEq

namespace Place

/-- The start of a document. -/
def start : Place := ⟨0, 0, 0⟩

/-- The place after characters of the same line. -/
def right (place : Place) (count : Nat) : Place :=
  { place with index := place.index + count, column := place.column + count }

/-- The place after a line break. -/
def down (place : Place) : Place := ⟨place.index + 1, place.line + 1, 0⟩

/-- The place after a character. -/
def past (place : Place) (c : Char) : Place := if isBreak c then place.down else place.right 1

end Place

/-- Whether three hyphens or three points stand alone at the front of a text. -/
def isDocumentMark : List Char → Bool
  | '-' :: '-' :: '-' :: rest => atSeparator rest
  | '.' :: '.' :: '.' :: rest => atSeparator rest
  | _ => false

/-! ### Folding -/

/-- A text that folds, last character first. -/
structure Folding where
  text : List Char
  /-- Blanks since the last character, on its line. -/
  blanks : List Char
  /-- The first break since the last character. -/
  firstBreak : Option Char
  /-- The breaks after the first. -/
  moreBreaks : List Char
  /-- Whether the line has ended since the last character. -/
  broken : Bool

namespace Folding

/-- Nothing yet. -/
def empty : Folding := ⟨[], [], none, [], false⟩

/-- Whether white space is pending. -/
def isPending (f : Folding) : Bool := f.broken || !f.blanks.isEmpty

/-- Takes a blank; it does not count once the line has ended. -/
def blank (f : Folding) (c : Char) : Folding :=
  if f.broken then f else { f with blanks := c :: f.blanks }

/-- Takes a line break. -/
def lineBreak (f : Folding) (c : Char) : Folding :=
  if f.broken then { f with moreBreaks := c :: f.moreBreaks }
  else { f with blanks := [], firstBreak := some c, broken := true }

/-- Ends the line without a break of its own. -/
def joinLine (f : Folding) : Folding := { f with broken := true }

/-- Settles the pending white space. -/
def settle (f : Folding) : Folding :=
  let space : List Char :=
    if f.broken then
      if f.firstBreak = some '\n' then if f.moreBreaks.isEmpty then [' '] else f.moreBreaks
      else f.moreBreaks ++ f.firstBreak.toList
    else f.blanks
  ⟨space ++ f.text, [], none, [], false⟩

/-- Takes a character that is no white space. -/
def push (f : Folding) (c : Char) : Folding :=
  let settled := f.settle
  { settled with text := c :: settled.text }

/-- The text, with the pending white space dropped. -/
def finish (f : Folding) : String := String.ofList f.text.reverse

end Folding

/-! ### Quoted scalars -/

/-- The character whose code hexadecimal digits give. -/
def charOfHex? (digits : List Char) : Option Char := do
  let code ← Hex.number? digits
  if code.isValidChar then some (Char.ofNat code) else none

/-- The character of a one-letter escape. -/
def escaped? (c : Char) : Option Char :=
  match c with
  | '0' => some (Char.ofNat 0)
  | 'a' => some (Char.ofNat 7)
  | 'b' => some (Char.ofNat 8)
  | 't' | '\t' => some '\t'
  | 'n' => some '\n'
  | 'v' => some (Char.ofNat 11)
  | 'f' => some (Char.ofNat 12)
  | 'r' => some '\r'
  | 'e' => some (Char.ofNat 27)
  | ' ' => some ' '
  | '"' => some '"'
  | '/' => some '/'
  | '\\' => some '\\'
  | 'N' => some (Char.ofNat 0x85)
  | '_' => some (Char.ofNat 0xA0)
  | 'L' => some (Char.ofNat 0x2028)
  | 'P' => some (Char.ofNat 0x2029)
  | _ => none

/-- Characters read as a text, the place after them and what is left. -/
abbrev Read (α : Type) := α × Place × List Char

/-- The rest of a scalar in single quotes. -/
def singleQuoted? (f : Folding) (place : Place) : List Char → Option (Read String)
  | [] => none
  | c :: rest =>
    if isSpaceOrTab c then singleQuoted? (f.blank c) (place.right 1) rest
    else if isBreak c then singleQuoted? (f.lineBreak c) place.down rest
    else if place.column = 0 && isDocumentMark (c :: rest) then none
    else if c = '\'' then
      match rest with
      | '\'' :: rest => singleQuoted? (f.push '\'') (place.right 2) rest
      | rest => some (f.settle.finish, place.right 1, rest)
    else singleQuoted? (f.push c) (place.right 1) rest

/-- The rest of a scalar in double quotes. -/
def doubleQuoted? (f : Folding) (place : Place) : List Char → Option (Read String)
  | [] => none
  | '\\' :: 'x' :: a :: b :: rest =>
    (charOfHex? [a, b]).bind fun c ↦ doubleQuoted? (f.push c) (place.right 4) rest
  | '\\' :: 'u' :: a :: b :: c :: d :: rest =>
    (charOfHex? [a, b, c, d]).bind fun c ↦ doubleQuoted? (f.push c) (place.right 6) rest
  | '\\' :: 'U' :: a :: b :: c :: d :: e :: g :: h :: i :: rest =>
    (charOfHex? [a, b, c, d, e, g, h, i]).bind fun c ↦ doubleQuoted? (f.push c) (place.right 10) rest
  | '\\' :: e :: rest =>
    if isBreak e then doubleQuoted? f.settle.joinLine (place.right 1).down rest
    else (escaped? e).bind fun c ↦ doubleQuoted? (f.push c) (place.right 2) rest
  | c :: rest =>
    if isSpaceOrTab c then doubleQuoted? (f.blank c) (place.right 1) rest
    else if isBreak c then doubleQuoted? (f.lineBreak c) place.down rest
    else if place.column = 0 && isDocumentMark (c :: rest) then none
    else if c = '"' then some (f.settle.finish, place.right 1, rest)
    else doubleQuoted? (f.push c) (place.right 1) rest

/-! ### Plain scalars -/

/-- The brackets, braces and comma of flow collections. -/
def isFlowIndicator (c : Char) : Bool := [',', '[', ']', '\x7b', '\x7d'].contains c

/-- Whether a colon inside a flow collection stands before an indicator, which no scalar may. -/
def isBadColon (c : Char) (rest : List Char) : Bool :=
  c == ':' && ((rest.head?.map fun d ↦ d == '?' || isFlowIndicator d).getD false)

/-- Whether a plain scalar ends before a character. -/
def endsPlain (inFlow : Bool) (c : Char) (rest : List Char) : Bool :=
  (c == ':' && atSeparator rest) || (inFlow && isFlowIndicator c)

/-- A plain scalar whose further lines stand at column `least` at least, outside of flow
collections. With the text comes whether the line had ended before the scalar did. -/
def plain? (inFlow : Bool) (least : Nat) (f : Folding) (place : Place) :
    List Char → Option (Read (String × Bool))
  | [] => some ((f.finish, f.broken), place, [])
  | c :: rest =>
    if isSpaceOrTab c then
      if f.broken && place.column < least && c == '\t' then none
      else plain? inFlow least (f.blank c) (place.right 1) rest
    else if isBreak c then plain? inFlow least (f.lineBreak c) place.down rest
    else if f.isPending &&
        ((!inFlow && place.column < least) || (place.column = 0 && isDocumentMark (c :: rest)) ||
          c == '#') then
      some ((f.finish, f.broken), place, c :: rest)
    else if inFlow && isBadColon c rest then none
    else if endsPlain inFlow c rest then some ((f.finish, f.broken), place, c :: rest)
    else plain? inFlow least (f.push c) (place.right 1) rest

/-! ### Block scalars -/

/-- What happens to the breaks at the end of a block scalar. -/
inductive BlockEnd where
  | strip
  | clip
  | keep
deriving DecidableEq, Repr

/-- The header of a block scalar. -/
structure BlockHeader where
  folded : Bool
  ending : BlockEnd
  /-- The indent relative to the block around it, if it is given. -/
  indent : Option Nat

/-- A block scalar while it is read, texts last character first. -/
structure Block where
  text : List Char
  /-- The break that ends the last line. -/
  lastBreak : Option Char
  /-- The breaks of the empty lines after it. -/
  emptyLines : List Char
  /-- Whether the last line starts with a blank. -/
  blankLead : Bool
  /-- The column of its lines; zero while it is not known. -/
  indent : Nat
  /-- The most spaces before that. -/
  spaces : Nat
  /-- Whether a line is being read, and not the space before one. -/
  inLine : Bool

namespace Block

/-- The first character of a line: joins the lines so far and takes the character. -/
def startLine (b : Block) (folded : Bool) (c : Char) : Block :=
  let blank := isSpaceOrTab c
  let joined :=
    if folded && b.lastBreak == some '\n' && !b.blankLead && !blank then
      if b.emptyLines.isEmpty then ' ' :: b.text else b.emptyLines ++ b.text
    else b.emptyLines ++ b.lastBreak.toList ++ b.text
  { b with
    text := c :: joined, lastBreak := none, emptyLines := [], blankLead := blank, inLine := true }

/-- The finished text. -/
def finish (b : Block) (ending : BlockEnd) : String :=
  let last := match ending with
    | .strip => []
    | .clip => b.lastBreak.toList
    | .keep => b.emptyLines ++ b.lastBreak.toList
  String.ofList (last ++ b.text).reverse

end Block

/-- The lines of a block scalar; `least` is the least column they may have. -/
def block? (header : BlockHeader) (least : Nat) (b : Block) (place : Place) :
    List Char → Option (Read String)
  | [] => some (b.finish header.ending, place, [])
  | c :: rest =>
    if b.inLine then
      if isBreak c then
        block? header least { b with lastBreak := some c, inLine := false } place.down rest
      else block? header least { b with text := c :: b.text } (place.right 1) rest
    else
      let outside := b.indent == 0 || place.column < b.indent
      if c = ' ' && outside then block? header least b (place.right 1) rest
      else if c = '\t' && outside then none
      else
        let b := { b with spaces := max b.spaces place.column }
        if isBreak c then
          block? header least { b with emptyLines := c :: b.emptyLines } place.down rest
        else
          let b := if b.indent == 0 then { b with indent := max b.spaces (max least 1) } else b
          if place.column = b.indent then
            block? header least (b.startLine header.folded c) (place.right 1) rest
          else some (b.finish header.ending, place, c :: rest)

/-- A block scalar without lines. -/
def Block.empty (indent : Nat) : Block := ⟨[], none, [], false, indent, 0, false⟩

end ContentSchema.Yaml
