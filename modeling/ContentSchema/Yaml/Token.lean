import ContentSchema.Yaml.Text
/-!
# Tokens of YAML

A document as a list of tokens. Indentation becomes tokens that open and close blocks, and a key
that stands before its colon on one line gets its `key` token when the colon is seen: the place where
such a key may start is remembered for each open flow collection, and given up at the end of the
line or after 1024 characters.

`Lexer` is the state while tokens are read, with the tokens so far; each step takes one token off the
text, and what is no token of the language has no result.
-/

namespace ContentSchema.Yaml

/-- How a scalar is written. -/
inductive Presentation where
  | plain
  | quoted
  | literal
  | folded
deriving DecidableEq, Repr

/-- A token. -/
inductive Token where
  | version (major minor : Nat)
  | tagDirective (handle lead : String)
  | documentStart
  | documentEnd
  | blockSequence
  | blockMapping
  | blockEnd
  | openSequence
  | closeSequence
  | openMapping
  | closeMapping
  | blockEntry
  | flowEntry
  | key
  | value
  | alias (name : String)
  | anchor (name : String)
  | tag (handle suffix : String)
  | scalar (text : String) (presentation : Presentation)
deriving DecidableEq, Repr

/-- A place where a key may have started. -/
structure KeyStart where
  /-- How many tokens stand before it. -/
  token : Nat
  /-- Whether the block around it must have a key there. -/
  required : Bool
  place : Place

/-- The state while tokens are read. -/
structure Lexer where
  rest : List Char
  place : Place
  /-- The column of the innermost block. -/
  indent : Int
  /-- The columns of the blocks around it. -/
  outer : List Int
  /-- Where a key may have started: for the innermost flow collection first, for the blocks last. -/
  starts : List (Option KeyStart)
  /-- Whether a key may start here. -/
  keyAllowed : Bool
  /-- The tokens so far. -/
  tokens : Array Token

namespace Lexer

/-- The start of a text. -/
def start (text : List Char) : Lexer := ⟨text, .start, -1, [], [none], true, #[]⟩

/-- Whether a flow collection is open. -/
def inFlow (lexer : Lexer) : Bool := 1 < lexer.starts.length

/-- Adds a token. -/
def emit (lexer : Lexer) (token : Token) : Lexer := { lexer with tokens := lexer.tokens.push token }

/-- Adds a token after the first `count`. -/
def emitAfter (lexer : Lexer) (count : Nat) (token : Token) : Lexer :=
  { lexer with tokens := lexer.tokens.insertIdxIfInBounds count token }

/-- Drops characters of the same line. -/
def skip (lexer : Lexer) (count : Nat) : Lexer :=
  { lexer with rest := lexer.rest.drop count, place := lexer.place.right count }

/-- Allows a key here, or not. -/
def allowKey (lexer : Lexer) (allowed : Bool) : Lexer := { lexer with keyAllowed := allowed }

/-- Takes over what a reader of a part has left. -/
def resume {α : Type} (lexer : Lexer) (read : Read α) : Lexer :=
  { lexer with rest := read.2.2, place := read.2.1 }

/-! ### Keys and blocks -/

/-- The place where a key may have started, if it is still open at `place`. -/
def openStart? (place : Place) (start : KeyStart) : Bool :=
  !(start.place.line < place.line || start.place.index + 1024 < place.index)

/-- Gives up starts of keys that are too far back; a required one may not be given up. -/
def expireStarts (lexer : Lexer) : Option Lexer := do
  let starts ← lexer.starts.mapM fun start ↦
    match start with
    | none => some none
    | some start =>
      if openStart? lexer.place start then some (some start)
      else if start.required then none
      else some none
  return { lexer with starts }

/-- Gives up the innermost start of a key; a required one may not be given up. -/
def dropStart (lexer : Lexer) : Option Lexer :=
  match lexer.starts with
  | some start :: outer => if start.required then none else some { lexer with starts := none :: outer }
  | _ => some lexer

/-- Remembers that a key may start here, if one may. -/
def saveStart (lexer : Lexer) : Option Lexer :=
  if lexer.keyAllowed then do
    let required := !lexer.inFlow && lexer.indent == lexer.place.column
    let lexer ← lexer.dropStart
    return { lexer with
      starts := some ⟨lexer.tokens.size, required, lexer.place⟩ :: lexer.starts.drop 1 }
  else some lexer

/-- Opens a block at a column that is right of the innermost one, its token after the first
`count`. -/
def openBlock (lexer : Lexer) (column : Nat) (count : Nat) (token : Token) : Lexer :=
  if lexer.inFlow || (column : Int) ≤ lexer.indent then lexer
  else
    ({ lexer with outer := lexer.indent :: lexer.outer, indent := column }).emitAfter count token

/-- Closes the blocks right of a column, given the columns of those around the innermost. -/
def closeTo (column : Int) (indent : Int) (tokens : Array Token) : List Int → Int × List Int × Array Token
  | [] => (indent, [], tokens)
  | next :: outer =>
    if column < indent then closeTo column next (tokens.push .blockEnd) outer
    else (indent, next :: outer, tokens)

/-- Closes the blocks right of a column. -/
def closeBlocks (lexer : Lexer) (column : Int) : Lexer :=
  if lexer.inFlow then lexer
  else
    let (indent, outer, tokens) := closeTo column lexer.indent lexer.tokens lexer.outer
    { lexer with indent, outer, tokens }

/-! ### White space, comments -/

/-- Drops white space and comments. Outside of flow collections a new line lets a key start; a tab
may not stand where one could. A byte-order mark is dropped where it starts a line, and what follows
stands in the next column. -/
def skipSpace (flow keyAllowed : Bool) (inComment : Bool) (place : Place) :
    List Char → Read Bool
  | [] => (keyAllowed, place, [])
  | c :: rest =>
    if isBreak c then skipSpace flow (keyAllowed || !flow) false place.down rest
    else if inComment || c == '#' then skipSpace flow keyAllowed true (place.right 1) rest
    else if c == ' ' || (c == '\t' && (flow || !keyAllowed)) ||
        (place.column == 0 && c.toNat == 0xFEFF) then
      skipSpace flow keyAllowed false (place.right 1) rest
    else (keyAllowed, place, c :: rest)

/-- Goes to the next token. -/
def toToken (lexer : Lexer) : Lexer :=
  let read := skipSpace lexer.inFlow lexer.keyAllowed false lexer.place lexer.rest
  (lexer.resume read).allowKey read.1

/-! ### Tokens with a text -/

/-- The characters of a name at the front of a text. -/
def nameOf (text : List Char) : List Char := text.takeWhile isWordChar

/-- An anchor or alias: its name, which must end before a separator or one of some indicators. -/
def anchor (lexer : Lexer) (token : String → Token) : Option Lexer := do
  let lexer ← lexer.saveStart
  let name := nameOf (lexer.rest.drop 1)
  let lexer := (lexer.allowKey false).skip (1 + name.length)
  let ends := atSeparator lexer.rest ||
    (lexer.rest.head?.map fun c ↦ ['?', ':', ',', ']', '\x7d', '%', '@', '\x60'].contains c).getD false
  if name.isEmpty || !ends then none else return lexer.emit (token (String.ofList name))

/-- Whether a character may stand in a tag, `wide` if in a verbatim one. -/
def isTagChar (wide : Bool) (c : Char) : Bool :=
  isWordChar c ||
    [';', '/', '?', ':', '@', '&', '=', '+', '$', '.', '%', '!', '~', '*', '\'', '(', ')'].contains c ||
    (wide && [',', '[', ']'].contains c)

/-- The octets of a run of percent escapes. -/
def escapedOctets : List Char → Option (List Nat)
  | [] => some []
  | '%' :: a :: b :: rest => do
    let high ← Hex.value? a
    let low ← Hex.value? b
    let octets ← escapedOctets rest
    return (high * 16 + low) :: octets
  | _ => none

/-- The character of a code that needs `least` at least; the replacement mark if there is none. -/
def charOfCode (least code : Nat) : Char :=
  if least ≤ code ∧ code.isValidChar then Char.ofNat code else Char.ofNat 0xFFFD

/-- The characters that a run of octets encodes. The octets must be of the form of UTF-8; a sequence
that is longer than it need be, or is for no character, gives a replacement mark. -/
def charsOfOctets? : List Nat → Option (List Char)
  | [] => some []
  | a :: rest =>
    let next (octet : Nat) : Option Nat := if octet / 64 = 2 then some (octet % 64) else none
    if a < 0x80 then (charsOfOctets? rest).map (Char.ofNat a :: ·)
    else if a / 32 = 6 then
      match rest with
      | b :: rest => do
        let code := a % 32 * 64 + (← next b)
        return charOfCode 0x80 code :: (← charsOfOctets? rest)
      | _ => none
    else if a / 16 = 14 then
      match rest with
      | b :: c :: rest => do
        let code := (a % 16 * 64 + (← next b)) * 64 + (← next c)
        return charOfCode 0x800 code :: (← charsOfOctets? rest)
      | _ => none
    else if a / 8 = 30 then
      match rest with
      | b :: c :: d :: rest => do
        let code := ((a % 8 * 64 + (← next b)) * 64 + (← next c)) * 64 + (← next d)
        return charOfCode 0x10000 code :: (← charsOfOctets? rest)
      | _ => none
    else none

/-- The characters of a tag, percent escapes decoded; `run` is the run of escapes just read, reversed. -/
def decodeTag (run : List Char) : List Char → Option (List Char)
  | '%' :: a :: b :: rest => decodeTag (b :: a :: '%' :: run) rest
  | c :: rest => do
    let before ← (escapedOctets run.reverse).bind charsOfOctets?
    if c = '%' then none
    else return before ++ c :: (← decodeTag [] rest)
  | [] => (escapedOctets run.reverse).bind charsOfOctets?

/-- The text that is written in a tag; an escaped null character ends it. -/
def tagText? (raw : List Char) : Option (List Char) :=
  (decodeTag [] raw).map (·.takeWhile fun c ↦ !isNull c)

/-- The handle at the front of a tag: `!`, `!!` or `!name!`, or `!` and a name without its end. -/
def handleOf (text : List Char) : List Char :=
  let name := nameOf (text.drop 1)
  let after := text.drop (1 + name.length)
  '!' :: name ++ if after.head? = some '!' then ['!'] else []

/-- A tag. -/
def tag (lexer : Lexer) : Option Lexer := do
  let lexer ← lexer.saveStart
  let lexer := lexer.allowKey false
  let (lexer, handle, suffix) ←
    if lexer.rest[1]? = some '<' then do
      let raw := (lexer.rest.drop 2).takeWhile (isTagChar true)
      let text ← tagText? raw
      let lexer := lexer.skip (2 + raw.length)
      if raw.isEmpty || lexer.rest.head? ≠ some '>' then none
      else some (lexer.skip 1, [], text)
    else do
      let handle := handleOf lexer.rest
      let after := lexer.rest.drop handle.length
      let raw := after.takeWhile (isTagChar false)
      let text ← tagText? raw
      let lexer := lexer.skip (handle.length + raw.length)
      if 1 < handle.length && handle.getLast? = some '!' then
        if raw.isEmpty then none else some (lexer, handle, text)
      else
        let suffix := handle.drop 1 ++ text
        if suffix.isEmpty then some (lexer, [], ['!']) else some (lexer, ['!'], suffix)
  if atSeparator lexer.rest || (lexer.inFlow && lexer.rest.head? = some ',') then
    return lexer.emit (.tag (String.ofList handle) (String.ofList suffix))
  else none

/-- A scalar in quotes. -/
def quoted (lexer : Lexer) (single : Bool) : Option Lexer := do
  let lexer ← lexer.saveStart
  let lexer := (lexer.allowKey false).skip 1
  let read ←
    if single then singleQuoted? .empty lexer.place lexer.rest
    else doubleQuoted? .empty lexer.place lexer.rest
  return (lexer.resume read).emit (.scalar read.1 .quoted)

/-- A plain scalar. A key may follow it on a line of its own. -/
def plain (lexer : Lexer) : Option Lexer := do
  let lexer ← lexer.saveStart
  let lexer := lexer.allowKey false
  let read ← plain? lexer.inFlow (lexer.indent + 1).toNat .empty lexer.place lexer.rest
  return ((lexer.resume read).allowKey read.1.2).emit (.scalar read.1.1 .plain)

/-- The indicators in the header of a block scalar: an ending and an indent in either order. -/
def headerOf (folded : Bool) (text : List Char) : Option (BlockHeader × Nat) :=
  let ending? (c : Char) : Option BlockEnd :=
    if c = '+' then some .keep else if c = '-' then some .strip else none
  let indent? (c : Char) : Option Nat := if c.isDigit then some (c.toNat - '0'.toNat) else none
  let header (ending : BlockEnd) (indent : Option Nat) (count : Nat) : Option (BlockHeader × Nat) :=
    if indent = some 0 then none else some (⟨folded, ending, indent⟩, count)
  match text with
  | a :: rest =>
    let b := rest.head?
    match ending? a, indent? a with
    | some ending, _ =>
      match b.bind indent? with
      | some indent => header ending (some indent) 2
      | none => header ending none 1
    | none, some indent =>
      match b.bind ending? with
      | some ending => header ending (some indent) 2
      | none => header .clip (some indent) 1
    | none, none => header .clip none 0
  | [] => header .clip none 0

/-- Drops blanks and a comment up to the end of the line, and the break. -/
def finishLine (lexer : Lexer) : Option Lexer :=
  let blanks := lexer.rest.takeWhile isSpaceOrTab
  let lexer := lexer.skip blanks.length
  let comment :=
    if lexer.rest.head? = some '#' then lexer.rest.takeWhile (fun c ↦ !isBreak c) else []
  let lexer := lexer.skip comment.length
  match lexer.rest with
  | [] => some lexer
  | c :: rest => if isBreak c then some { lexer with rest, place := lexer.place.down } else none

/-- A block scalar. -/
def blockScalar (lexer : Lexer) (folded : Bool) : Option Lexer := do
  let lexer ← lexer.dropStart
  let lexer := (lexer.allowKey true).skip 1
  let (header, count) ← headerOf folded lexer.rest
  let lexer ← (lexer.skip count).finishLine
  let least := (lexer.indent + 1).toNat
  let indent := match header.indent with
    | some indent => (max lexer.indent 0).toNat + indent
    | none => 0
  let read ← block? header least (.empty indent) lexer.place lexer.rest
  return (lexer.resume read).emit (.scalar read.1 (if folded then .folded else .literal))

/-! ### Directives -/

/-- A natural number of at most nine digits. -/
def shortNumber? (text : List Char) : Option (Nat × Nat) :=
  let digits := text.takeWhile Char.isDigit
  if digits.isEmpty || 9 < digits.length then none
  else some (digits.foldl (fun n c ↦ n * 10 + (c.toNat - '0'.toNat)) 0, digits.length)

/-- Drops blanks. -/
def skipBlanks (lexer : Lexer) : Lexer := lexer.skip (lexer.rest.takeWhile isSpaceOrTab).length

/-- A directive: the version of the language, or the meaning of a tag handle. -/
def directive (lexer : Lexer) : Option Lexer := do
  let lexer ← (lexer.closeBlocks (-1)).dropStart
  let lexer := (lexer.allowKey false).skip 1
  let name := nameOf lexer.rest
  let lexer := lexer.skip name.length
  if name.isEmpty || !atSeparator lexer.rest then none
  let lexer := lexer.skipBlanks
  if name = "YAML".toList then do
    let (major, count) ← shortNumber? lexer.rest
    let lexer := lexer.skip count
    if lexer.rest.head? ≠ some '.' then none
    let lexer := lexer.skip 1
    let (minor, count) ← shortNumber? lexer.rest
    ((lexer.skip count).finishLine).map (·.emit (.version major minor))
  else if name = "TAG".toList then do
    if lexer.rest.head? ≠ some '!' then none
    let handle := handleOf lexer.rest
    if handle ≠ ['!'] && handle.getLast? ≠ some '!' then none
    let lexer := lexer.skip handle.length
    if !((lexer.rest.head?.map isSpaceOrTab).getD false) then none
    let lexer := lexer.skipBlanks
    let raw := lexer.rest.takeWhile (isTagChar true)
    let lead ← tagText? raw
    let lexer := lexer.skip raw.length
    if raw.isEmpty || !atSeparator lexer.rest then none
    (lexer.finishLine).map (·.emit (.tagDirective (String.ofList handle) (String.ofList lead)))
  else none

/-! ### Structure -/

/-- The mark at the start or end of a document. -/
def documentMark (lexer : Lexer) (token : Token) : Option Lexer := do
  let lexer ← (lexer.closeBlocks (-1)).dropStart
  return ((lexer.allowKey false).skip 3).emit token

/-- The bracket that opens a flow collection. -/
def openFlow (lexer : Lexer) (token : Token) : Option Lexer := do
  let lexer ← lexer.saveStart
  return (({ lexer with starts := none :: lexer.starts }.allowKey true).skip 1).emit token

/-- The bracket that closes a flow collection. -/
def closeFlow (lexer : Lexer) (token : Token) : Option Lexer := do
  let lexer ← lexer.dropStart
  let starts := if lexer.inFlow then lexer.starts.drop 1 else lexer.starts
  return (({ lexer with starts }.allowKey false).skip 1).emit token

/-- The comma of a flow collection. -/
def flowEntry (lexer : Lexer) : Option Lexer := do
  let lexer ← lexer.dropStart
  return ((lexer.allowKey true).skip 1).emit .flowEntry

/-- An indicator that may open a block: it stands where a key could. -/
def indicator (lexer : Lexer) (block token : Token) (thenKey : Bool) : Option Lexer := do
  if !lexer.inFlow && !lexer.keyAllowed then none
  let lexer := lexer.openBlock lexer.place.column lexer.tokens.size block
  let lexer ← lexer.dropStart
  return ((lexer.allowKey thenKey).skip 1).emit token

/-- The colon of a value. If a key may have started before it on the line, that was a key. -/
def value (lexer : Lexer) : Option Lexer :=
  match lexer.starts with
  | some start :: outer =>
    let lexer := { lexer with starts := none :: outer }.emitAfter start.token .key
    let lexer := lexer.openBlock start.place.column start.token .blockMapping
    some (((lexer.allowKey false).skip 1).emit .value)
  | _ =>
    if lexer.inFlow then some (((lexer.allowKey false).skip 1).emit .value)
    else if !lexer.keyAllowed then none
    else
      let lexer := lexer.openBlock lexer.place.column lexer.tokens.size .blockMapping
      some (((lexer.allowKey true).skip 1).emit .value)

/-- Reads one token, given the first character of the text and what follows. -/
def token (lexer : Lexer) (c : Char) (after : List Char) : Option Lexer :=
  let separated := atSeparator after
  let front := lexer.place.column = 0
  if front && c == '%' then lexer.directive
  else if front && c == '-' && isDocumentMark (c :: after) then lexer.documentMark .documentStart
  else if front && c == '.' && isDocumentMark (c :: after) then lexer.documentMark .documentEnd
  else if c == '[' then lexer.openFlow .openSequence
  else if c == '\x7b' then lexer.openFlow .openMapping
  else if c == ']' then lexer.closeFlow .closeSequence
  else if c == '\x7d' then lexer.closeFlow .closeMapping
  else if c == ',' then lexer.flowEntry
  else if c == '-' && separated then lexer.indicator .blockSequence .blockEntry true
  else if c == '?' && (lexer.inFlow || separated) then
    lexer.indicator .blockMapping .key !lexer.inFlow
  else if c == ':' && (lexer.inFlow || separated) then lexer.value
  else if c == '*' then lexer.anchor .alias
  else if c == '&' then lexer.anchor .anchor
  else if c == '!' then lexer.tag
  else if c == '|' && !lexer.inFlow then lexer.blockScalar false
  else if c == '>' && !lexer.inFlow then lexer.blockScalar true
  else if c == '\'' then lexer.quoted true
  else if c == '"' then lexer.quoted false
  else if ['|', '>', '%', '@', '\x60'].contains c || isSeparator c then none
  else lexer.plain

/-- Reads all tokens; every token takes a character, so the text's length bounds their number. -/
def run (fuel : Nat) (lexer : Lexer) : Option (List Token) :=
  match fuel with
  | 0 => none
  | fuel + 1 => do
    let lexer ← lexer.toToken.expireStarts
    let lexer := lexer.closeBlocks lexer.place.column
    match lexer.rest with
    | [] => do
      let lexer ← (lexer.closeBlocks (-1)).dropStart
      return lexer.tokens.toList
    | c :: after => run fuel (← lexer.token c after)

end Lexer

/-- The tokens of a text. -/
def tokens? (text : String) : Option (List Token) :=
  let chars := plainBreaks text.toList
  if chars.all isAllowed then (Lexer.start chars).run (chars.length + 1) else none

end ContentSchema.Yaml
