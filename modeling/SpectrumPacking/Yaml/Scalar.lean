import SpectrumPacking.Json.Value
import SpectrumPacking.Yaml.Token

/-!
# Reading Scalars

A scalar may stand on several lines.  Between two parts on different lines the gaps do not count,
one line end becomes a blank, and of several the first one is dropped.  Plain texts end in front of
what has a meaning of its own; texts in quotes end at the quote; blocks end with their indentation.
-/

namespace SpectrumPacking.Yaml

/-! ## §1 Between the Parts of a Scalar -/

/-- What stands between two parts of a scalar. -/
structure Joint where
  /-- The gaps, as long as no line has ended. -/
  gaps : List Char := []
  /-- Whether a line has ended. -/
  hasLineEnd : Bool := false
  /-- The first line end, unless it does not count. -/
  first : Option Char := none
  /-- The other line ends. -/
  others : List Char := []

namespace Joint

/-- A joint at a line end that does not count. -/
def continued : Joint := { hasLineEnd := true }

/-- The joint with one more gap or line end. -/
def add (j : Joint) (c : Char) : Joint :=
  if isGap c then if j.hasLineEnd then j else { j with gaps := j.gaps ++ [c] }
  else if j.hasLineEnd then { j with others := j.others ++ [c] }
  else { hasLineEnd := true, first := some c }

/-- What a joint means as a part of the text. -/
def text (j : Joint) : List Char :=
  if !j.hasLineEnd then j.gaps
  else
    match j.first with
    | some '\n' => if j.others.isEmpty then [' '] else j.others
    | first => first.toList ++ j.others

end Joint

/-! ## §2 Plain Texts -/

/-- Whether a character has a meaning in brackets and braces. -/
def isFlowMark (c : Char) : Bool := [',', '[', ']', '\x7b', '\x7d'].contains c

/-- Whether a colon in brackets or braces, in front of some glyphs, can mean nothing. -/
def isStrayColon : List Glyph → Bool
  | [] => false
  | g :: _ => isFlowMark g.char || g.char == '?'

/-- Takes a plain text off some glyphs: the text, whether a line has ended behind it, and the glyphs
left.  Behind a joint the text goes on only at the column `indent` or further right. -/
def plain? (inFlow : Bool) (indent : Nat) (isResumed : Bool) (joint : Joint) :
    List Glyph → Option (List Char × Bool × List Glyph)
  | [] => some ([], joint.hasLineEnd, [])
  | g :: rest =>
    if isGap g.char || isLineEnd g.char then
      if joint.hasLineEnd && g.char == '\t' && g.column < indent then none
      else plain? inFlow indent true (joint.add g.char) rest
    else if isResumed && (startsAnyMark (g :: rest) || g.char == '#' ||
        !inFlow && g.column < indent) then some ([], joint.hasLineEnd, g :: rest)
    else if inFlow && g.char == ':' && isStrayColon rest then none
    else if g.char == ':' && endsWord rest || inFlow && isFlowMark g.char then
      some ([], joint.hasLineEnd, g :: rest)
    else
      (plain? inFlow indent false {} rest).map fun (t, b, r) => (joint.text ++ g.char :: t, b, r)

/-- Whether a plain text can start with a character in front of some glyphs. -/
def startsPlain (inFlow : Bool) (c : Char) (rest : List Glyph) : Bool :=
  if c == '-' then
    match rest with
    | [] => true
    | g :: _ => !isGap g.char
  else if c == '?' || c == ':' then !inFlow && !endsWord rest
  else !isGap c && !isLineEnd c && !isFlowMark c && !"#&*!|>'\"%@\x60".toList.contains c

/-! ## §3 Texts in Quotes -/

/-- Takes the rest of a text in single quotes off some glyphs; two quotes stand for one. -/
def singleQuoted? (joint : Joint) : List Glyph → Option (List Char × List Glyph)
  | [] => none
  | g :: rest =>
    if isGap g.char || isLineEnd g.char then singleQuoted? (joint.add g.char) rest
    else if startsAnyMark (g :: rest) then none
    else if g.char != '\x27' then
      (singleQuoted? {} rest).map fun (t, r) => (joint.text ++ g.char :: t, r)
    else
      match rest with
      | [] => some (joint.text, [])
      | h :: more =>
        if h.char == '\x27' then
          (singleQuoted? {} more).map fun (t, r) => (joint.text ++ '\x27' :: t, r)
        else some (joint.text, h :: more)

/-- The character that a backslash and one letter stand for. -/
def simpleEscape? (c : Char) : Option Char :=
  [('0', '\x00'), ('a', '\x07'), ('b', '\x08'), ('t', '\t'), ('\t', '\t'), ('n', '\n'),
    ('v', '\x0b'), ('f', '\x0c'), ('r', '\r'), ('e', '\x1b'), (' ', ' '), ('"', '"'), ('/', '/'),
    ('\\', '\\'), ('N', '\u0085'), ('_', '\u00a0'), ('L', '\u2028'), ('P', '\u2029')].lookup c

/-- How many hexadecimal digits follow a backslash and a letter. -/
def escapeLength? (c : Char) : Option Nat := [('x', 2), ('u', 4), ('U', 8)].lookup c

/-- The character with a number that is written in `n` hexadecimal digits at the front. -/
def hexEscape? (n : Nat) (l : List Glyph) : Option (Char × List Glyph) :=
  match (l.take n).mapM fun g => Json.hexDigit? g.char with
  | none => none
  | some digits =>
    let value := digits.foldl (fun m d => m * 16 + d) 0
    if digits.length = n ∧ value.isValidChar then some (Char.ofNat value, l.drop n) else none

/-- The character that a backslash in front of a character and some glyphs stands for. -/
def escape? (c : Char) (rest : List Glyph) : Option (Char × List Glyph) :=
  match simpleEscape? c with
  | some d => some (d, rest)
  | none => (escapeLength? c).bind fun n => hexEscape? n rest

/-- Takes the rest of a text in double quotes off some glyphs, in at most `fuel` steps. -/
def doubleQuoted? : Nat → Joint → List Glyph → Option (List Char × List Glyph)
  | 0, _, _ => none
  | _, _, [] => none
  | fuel + 1, joint, g :: rest =>
    if isGap g.char || isLineEnd g.char then doubleQuoted? fuel (joint.add g.char) rest
    else if startsAnyMark (g :: rest) then none
    else if g.char == '"' then some (joint.text, rest)
    else
      let read? : Option (List Char × List Glyph) :=
        match g.char, rest with
        | '\\', h :: more =>
          if isLineEnd h.char then doubleQuoted? fuel .continued more
          else
            (escape? h.char more).bind fun (c, r) =>
              (doubleQuoted? fuel {} r).map fun (t, r) => (c :: t, r)
        | c, _ => (doubleQuoted? fuel {} rest).map fun (t, r) => (c :: t, r)
      read?.map fun (t, r) => (joint.text ++ t, r)

/-! ## §4 Blocks -/

/-- What becomes of the line ends behind a block. -/
inductive Chomping where
  /-- None stays. -/
  | strip
  /-- One stays. -/
  | clip
  /-- All stay. -/
  | keep
  deriving DecidableEq, Repr

/-- The chomping that a character asks for. -/
def Chomping.ofChar? (c : Char) : Option Chomping :=
  if c == '-' then some .strip else if c == '+' then some .keep else none

/-- A digit from one to nine. -/
def indentHint? (c : Char) : Option Nat :=
  if '1' ≤ c ∧ c ≤ '9' then some (c.toNat - '0'.toNat) else none

/-- Takes the characters behind the mark of a block: the chomping, the indentation if it is given,
and the glyphs left. -/
def blockHeader (l : List Glyph) : Chomping × Option Nat × List Glyph :=
  match l with
  | [] => (.clip, none, [])
  | a :: rest =>
    let next := rest.head?.map Glyph.char
    match Chomping.ofChar? a.char, indentHint? a.char with
    | some chomping, _ =>
      match next.bind indentHint? with
      | some n => (chomping, some n, rest.drop 1)
      | none => (chomping, none, rest)
    | none, some n =>
      match next.bind Chomping.ofChar? with
      | some chomping => (chomping, some n, rest.drop 1)
      | none => (.clip, some n, rest)
    | none, none => (.clip, none, a :: rest)

/-- Takes the indentation and the empty lines off some glyphs: the greatest column met, the line
ends, and the glyphs left.  Blanks are taken up to the column `indent`, if it is known. -/
def blockBreaks? (indent : Option Nat) (widest : Nat) :
    List Glyph → Option (Nat × List Char × List Glyph)
  | [] => some (widest, [], [])
  | g :: rest =>
    let isBefore := indent.all fun n => g.column < n
    if isBefore && g.char == ' ' then blockBreaks? indent widest rest
    else if isBefore && g.char == '\t' then none
    else
      let widest := max widest g.column
      if isLineEnd g.char then
        (blockBreaks? indent widest rest).map fun (n, t, r) => (n, g.char :: t, r)
      else some (widest, [], g :: rest)

/-- The lines of a block under way. -/
structure BlockText where
  /-- The text so far. -/
  text : List Char := []
  /-- The line end behind the last line. -/
  lineEnd : List Char := []
  /-- The line ends of the empty lines that follow. -/
  emptyLines : List Char := []
  /-- Whether the last line starts with a gap. -/
  isIndented : Bool := false

/-- The text with what stands between the last line and one that starts with a gap or not. -/
def BlockText.joined (b : BlockText) (isFolded isIndented : Bool) : List Char :=
  if isFolded && b.lineEnd == ['\n'] && !b.isIndented && !isIndented then
    b.text ++ if b.emptyLines.isEmpty then [' '] else b.emptyLines
  else b.text ++ b.lineEnd ++ b.emptyLines

/-- The text of a finished block. -/
def BlockText.chomped (b : BlockText) : Chomping → List Char
  | .strip => b.text
  | .clip => b.text ++ b.lineEnd
  | .keep => b.text ++ b.lineEnd ++ b.emptyLines

/-- Takes the lines of a block with an indentation off some glyphs, at most `fuel` of them. -/
def blockLines? (isFolded : Bool) (indent : Nat) :
    Nat → BlockText → List Glyph → Option (BlockText × List Glyph)
  | 0, _, _ => none
  | _, b, [] => some (b, [])
  | fuel + 1, b, g :: rest =>
    if g.column != indent then some (b, g :: rest)
    else
      let isIndented := isGap g.char
      let (line, r) := spanChars (fun c => !isLineEnd c) (g :: rest)
      let text := b.joined isFolded isIndented ++ line
      (blockBreaks? (some indent) 0 (r.drop 1)).bind fun (_, emptyLines, r') =>
        blockLines? isFolded indent fuel
          ⟨text, (r.take 1).map Glyph.char, emptyLines, isIndented⟩ r'

/-- Takes a block off some glyphs behind its mark; what holds it is indented less than
`contentIndent`. -/
def block? (isFolded : Bool) (contentIndent : Nat) (l : List Glyph) :
    Option (List Char × List Glyph) :=
  let (chomping, hint, l) := blockHeader l
  (dropIdleLine? l).bind fun l =>
    let given := hint.map fun n => contentIndent - 1 + n
    (blockBreaks? given 0 l).bind fun (widest, emptyLines, l) =>
      let indent := given.getD (max widest (max contentIndent 1))
      (blockLines? isFolded indent (l.length + 1) { emptyLines := emptyLines } l).map
        fun (b, l) => (b.chomped chomping, l)

end SpectrumPacking.Yaml
