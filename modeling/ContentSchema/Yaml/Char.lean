/-!
# Characters of YAML

The character classes of the format. Five characters break a line; a blank is a space or a tab.
Printable is what may stand in a document without an escape.
-/

namespace ContentSchema.Yaml

/-- Line feed, carriage return, next line, line separator, paragraph separator. -/
def isBreak (c : Char) : Bool :=
  c == '\n' || c == '\r' || c.toNat == 0x85 || c.toNat == 0x2028 || c.toNat == 0x2029

/-- A space or a tab. -/
def isSpaceOrTab (c : Char) : Bool := c == ' ' || c == '\t'

/-- The null character, which ends a document. -/
def isNull (c : Char) : Bool := c.toNat == 0

/-- A character that separates words: a blank, a break or the end. -/
def isSeparator (c : Char) : Bool := isSpaceOrTab c || isBreak c || isNull c

/-- Whether a text is at its end or starts with a separator. -/
def atSeparator : List Char → Bool
  | [] => true
  | c :: _ => isSeparator c

/-- What is written without an escape. -/
def isPrintable (c : Char) : Bool :=
  let code := c.toNat
  code == 0x0A || (0x20 ≤ code && code ≤ 0x7E) || (0xA0 ≤ code && code ≤ 0xD7FF) ||
    (0xE000 ≤ code && code ≤ 0xFFFD && code != 0xFEFF) || 0x10000 ≤ code

/-- What a document may hold at all. -/
def isAllowed (c : Char) : Bool :=
  let code := c.toNat
  code == 0x09 || code == 0x0A || code == 0x0D || (0x20 ≤ code && code ≤ 0x7E) || code == 0x85 ||
    (0xA0 ≤ code && code ≤ 0xD7FF) || (0xE000 ≤ code && code ≤ 0xFFFD) || 0x10000 ≤ code

/-- A character of an anchor's or directive's name. -/
def isWordChar (c : Char) : Bool :=
  ('0' ≤ c && c ≤ '9') || ('a' ≤ c && c ≤ 'z') || ('A' ≤ c && c ≤ 'Z') || c == '_' || c == '-'

end ContentSchema.Yaml
