/-!
# Characters in Place and Tokens

A document is read character by character, and the line and the column of a character matter as much
as the character; how long something is counts in bytes.  A glyph is a character with its place.
Glyphs know only three line ends: the separators U+2028 and U+2029, and a line feed for all others.

Before it is seen as a tree, a document consists of tokens: scalars with their names and tags, and
the marks of collections.  Collections that show in the indentation have marks of their own.
-/

namespace SpectrumPacking.Yaml

/-! ## §1 Glyphs -/

/-- A character with its line and its column. -/
structure Glyph where
  /-- The character. -/
  char : Char
  /-- The number of line ends before it. -/
  line : Nat
  /-- The number of characters before it on its line. -/
  column : Nat
  /-- The number of bytes before it in the document. -/
  offset : Nat

/-- Whether a character may stand in a document. -/
def isAllowed (c : Char) : Bool :=
  c == '\t' || c == '\n' || c == '\r' || (' ' ≤ c && c ≤ '~') || c == '\u0085' ||
    ('\u00a0' ≤ c && c ≤ '\ufffd') || 0x10000 ≤ c.toNat

/-- Whether a character separates words on a line. -/
def isGap (c : Char) : Bool := c == ' ' || c == '\t'

/-- Whether a character is a line end that stays as it is. -/
def isSeparator (c : Char) : Bool := c == '\u2028' || c == '\u2029'

/-- Whether the character of a glyph ends a line. -/
def isLineEnd (c : Char) : Bool := c == '\n' || isSeparator c

/-- Whether a character ends a line in a text that was not read yet. -/
def isRawLineEnd (c : Char) : Bool := isLineEnd c || c == '\r' || c == '\u0085'

/-- The characters of a text with their places, the first one at a given place. -/
def glyphs (line column offset : Nat) : List Char → List Glyph
  | [] => []
  | '\r' :: '\n' :: rest => ⟨'\n', line, column, offset⟩ :: glyphs (line + 1) 0 (offset + 2) rest
  | c :: rest =>
    let next := offset + c.utf8Size
    if isRawLineEnd c then
      ⟨if isSeparator c then c else '\n', line, column, offset⟩ :: glyphs (line + 1) 0 next rest
    else ⟨c, line, column, offset⟩ :: glyphs line (column + 1) next rest

/-- Whether the glyphs start with a gap or a line end, or are over. -/
def endsWord : List Glyph → Bool
  | [] => true
  | g :: _ => isGap g.char || isLineEnd g.char

/-- Whether the glyphs start with a mark between documents, three equal characters at the start of
a line. -/
def startsMark (mark : Char) : List Glyph → Bool
  | a :: b :: c :: rest =>
    a.column == 0 && a.char == mark && b.char == mark && c.char == mark && endsWord rest
  | _ => false

/-- Whether the glyphs start with a mark at the start or at the end of a document. -/
def startsAnyMark (l : List Glyph) : Bool := startsMark '-' l || startsMark '.' l

/-- Takes the characters in front that pass a test. -/
def spanChars (p : Char → Bool) (l : List Glyph) : List Char × List Glyph :=
  let (taken, rest) := l.span fun g => p g.char
  (taken.map Glyph.char, rest)

/-- The glyphs behind the gaps in front. -/
def dropGaps (l : List Glyph) : List Glyph := l.dropWhile fun g => isGap g.char

/-- The glyphs behind the rest of a line that says nothing but a comment; none if it says
something. -/
def dropIdleLine? (l : List Glyph) : Option (List Glyph) :=
  match dropGaps l with
  | [] => some []
  | g :: rest =>
    if isLineEnd g.char then some rest
    else if g.char == '#' then some ((rest.dropWhile fun g => !isLineEnd g.char).drop 1)
    else none

example : (glyphs 0 0 0 "é\r\nb\rc".toList).map (fun g => (g.char, g.line, g.column, g.offset)) =
    [('é', 0, 0, 0), ('\n', 0, 1, 2), ('b', 1, 0, 4), ('\n', 1, 1, 5), ('c', 2, 0, 6)] := by
  decide

/-! ## §2 Tokens -/

/-- How a scalar is written. -/
inductive ScalarStyle where
  | plain
  /-- In single quotes. -/
  | singleQuoted
  /-- In double quotes. -/
  | doubleQuoted
  /-- As an indented block of lines. -/
  | literal
  /-- As an indented block of lines that are joined. -/
  | folded
  deriving DecidableEq, Repr, Inhabited

/-- A part of a document. -/
inductive Token where
  /-- The version of the language. -/
  | version (major minor : Nat)
  /-- What a handle in a tag stands for. -/
  | tagHandle (handle text : List Char)
  | documentStart
  | documentEnd
  /-- The start of a sequence in brackets. -/
  | flowSequenceStart
  /-- The end of a sequence in brackets. -/
  | flowSequenceEnd
  /-- The start of a mapping in braces. -/
  | flowMappingStart
  /-- The end of a mapping in braces. -/
  | flowMappingEnd
  /-- The comma between entries in brackets or braces. -/
  | flowEntry
  /-- The start of a sequence in the indentation. -/
  | blockSequenceStart
  /-- The start of a mapping in the indentation. -/
  | blockMappingStart
  /-- The end of a collection in the indentation. -/
  | blockEnd
  /-- The dash in front of an item. -/
  | blockEntry
  /-- The start of a key. -/
  | key
  /-- The start of a value. -/
  | value
  /-- A node that stands elsewhere. -/
  | alias (name : List Char)
  /-- A name for the node that follows. -/
  | anchor (name : List Char)
  /-- A tag of the node that follows, in two parts. -/
  | tag (handle suffix : List Char)
  | scalar (style : ScalarStyle) (text : List Char)
  deriving DecidableEq, Repr, Inhabited

end SpectrumPacking.Yaml
