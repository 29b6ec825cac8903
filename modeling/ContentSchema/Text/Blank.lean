/-!
# White space and lines

White space is the Unicode property `White_Space`, which is wider than the blanks of any data
format. Trimming works on lists of characters; a line ends at a line feed, and a carriage return
just before it belongs to the ending.
-/

namespace ContentSchema

/-- Whether a character is white space. -/
def isBlank (c : Char) : Bool :=
  let code := c.toNat
  (9 ≤ code && code ≤ 13) || code == 0x20 || code == 0x85 || code == 0xA0 || code == 0x1680 ||
    (0x2000 ≤ code && code ≤ 0x200A) || code == 0x2028 || code == 0x2029 || code == 0x202F ||
    code == 0x205F || code == 0x3000

/-- Drops white space at the end. -/
def trimEndChars (text : List Char) : List Char := (text.reverse.dropWhile isBlank).reverse

/-- Drops white space at both ends. -/
def trimChars (text : List Char) : List Char := trimEndChars (text.dropWhile isBlank)

/-- Drops white space at the end of a string. -/
def trimEnd (text : String) : String := String.ofList (trimEndChars text.toList)

/-- Drops white space at both ends of a string. -/
def trim (text : String) : String := String.ofList (trimChars text.toList)

/-- Whether a string holds nothing but white space. -/
def isBlankText (text : String) : Bool := text.toList.all isBlank

/-- Drops the carriage return that ends a line before its line feed. -/
def dropReturn (line : List Char) : List Char :=
  if line.getLast? = some '\r' then line.dropLast else line

/-- The lines of a text; a last one without a line feed counts if it is not empty. -/
def linesOf (text : List Char) : List (List Char) :=
  go [] text
where
  /-- The lines, given the current one so far, last character first. -/
  go (current : List Char) : List Char → List (List Char)
    | [] => if current.isEmpty then [] else [current.reverse]
    | c :: rest =>
      if c = '\n' then dropReturn current.reverse :: go [] rest else go (c :: current) rest

/-- The texts between the occurrences of a separator, joined by it. -/
def joinWith (separator : String) (parts : List String) : String := String.intercalate separator parts

end ContentSchema
