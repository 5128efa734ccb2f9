import SpectrumPacking.Yaml.Scalar

/-!
# From Characters to Tokens

What the indentation says becomes tokens of its own: a collection starts where something stands
further right than before, and ends where something stands further left.  A key shows only at the
colon behind it, so the start of whatever may become a key is kept in mind; a key stands on one
line and has no more than 1024 bytes.
-/

namespace SpectrumPacking.Yaml

/-! ## §1 Names and Tags -/

/-- Whether a character may stand in a name. -/
def isWordChar (c : Char) : Bool := c.isAlphanum || c == '_' || c == '-'

/-- Takes a name off some glyphs. -/
def name? (l : List Glyph) : Option (List Char × List Glyph) :=
  let (name, rest) := spanChars isWordChar l
  match rest with
  | [] => if name.isEmpty then none else some (name, [])
  | g :: _ =>
    if !name.isEmpty && (endsWord rest || "?:,]\x7d%@\x60".toList.contains g.char) then
      some (name, rest)
    else none

/-- Whether a character may stand in the text of a tag. -/
def isTagChar (isVerbatim : Bool) (c : Char) : Bool :=
  isWordChar c || ";/?:@&=+$.!~*'()%".toList.contains c ||
    isVerbatim && [',', '[', ']'].contains c

/-- The text that stands for itself and for bytes behind percent signs. -/
def unescaped? : List Char → Option (List UInt8)
  | [] => some []
  | '%' :: a :: b :: rest => do
    let byte := (← Json.hexDigit? a) * 16 + (← Json.hexDigit? b)
    return .ofNat byte :: (← unescaped? rest)
  | '%' :: _ => none
  | c :: rest => (unescaped? rest).map ((String.singleton c).toUTF8.toList ++ ·)

/-- Takes the text of a tag off some glyphs. -/
def tagText? (isVerbatim : Bool) (l : List Glyph) : Option (List Char × List Glyph) :=
  let (shown, rest) := spanChars (isTagChar isVerbatim) l
  (unescaped? shown).bind fun bytes =>
    (String.fromUTF8? ⟨bytes.toArray⟩).map fun t => (t.toList, rest)

/-- Takes the handle of a tag, up to a second exclamation mark, off some glyphs behind the first
one. -/
def tagHandle? (l : List Glyph) : Option (List Char × List Glyph) :=
  let (name, rest) := spanChars isWordChar l
  match rest with
  | [] => none
  | g :: rest => if g.char == '!' then some ('!' :: name ++ ['!'], rest) else none

/-- The character that some glyphs start with. -/
def front? (l : List Glyph) : Option Char := l.head?.map Glyph.char

/-- Takes a tag off some glyphs behind its exclamation mark. -/
def tag? (inFlow : Bool) (l : List Glyph) : Option (Token × List Glyph) := do
  let (tag, rest) : Token × List Glyph ←
    match front? l, tagHandle? l with
    | some '<', _ => do
      let (text, rest) ← tagText? true (l.drop 1)
      if text.isEmpty || front? rest != some '>' then none else some (.tag [] text, rest.drop 1)
    | _, some (handle, rest) => do
      let (suffix, rest) ← tagText? false rest
      if suffix.isEmpty then none else some (.tag handle suffix, rest)
    | _, none => do
      let (suffix, rest) ← tagText? false l
      some (if suffix.isEmpty then .tag [] ['!'] else .tag ['!'] suffix, rest)
  if endsWord rest || inFlow && front? rest == some ',' then some (tag, rest) else none

/-! ## §2 Directives -/

/-- Takes a number of at most nine digits off some glyphs. -/
def versionNumber? (l : List Glyph) : Option (Nat × List Glyph) :=
  let (digits, rest) := spanChars Char.isDigit l
  if 9 < digits.length then none else (Text.Numeral.digits? digits).map fun n => (n, rest)

/-- Takes a version off some glyphs. -/
def version? (l : List Glyph) : Option (Token × List Glyph) := do
  let (major, rest) ← versionNumber? l
  if front? rest != some '.' then none
  else
    let (minor, rest) ← versionNumber? (rest.drop 1)
    return (.version major minor, rest)

/-- Takes a handle and what it stands for off some glyphs. -/
def tagDirective? (l : List Glyph) : Option (Token × List Glyph) := do
  if front? l != some '!' then none
  else
    let (handle, rest) := (tagHandle? (l.drop 1)).getD (['!'], l.drop 1)
    let (text, rest') ← tagText? true (dropGaps rest)
    if text.isEmpty || (front? rest).any (fun c => !isGap c) || !endsWord rest' then none
    else some (.tagHandle handle text, rest')

/-- Takes a directive off some glyphs behind its percent sign. -/
def directive? (l : List Glyph) : Option (Token × List Glyph) := do
  let (name, rest) := spanChars isWordChar l
  let (token, rest) ←
    if !endsWord rest then none
    else if name == "YAML".toList then version? (dropGaps rest)
    else if name == "TAG".toList then tagDirective? (dropGaps rest)
    else none
  return (token, ← dropIdleLine? rest)

/-! ## §3 The State Between Two Tokens -/

/-- The start of something that becomes a key if a colon follows. -/
structure KeyStart where
  /-- The number of tokens before it. -/
  tokens : Nat
  line : Nat
  column : Nat
  /-- The number of bytes before it. -/
  offset : Nat
  /-- Whether nothing but a key can stand there. -/
  isRequired : Bool

/-- The tokens read so far, and what the next one depends on. -/
structure Lexer where
  tokens : Array Token := #[]
  /-- The columns of the collections that are open in the indentation, the innermost first. -/
  columns : List Nat := []
  /-- Whether a key may start. -/
  allowsKey : Bool := true
  /-- The last start of a key in each pair of brackets or braces that is open, the innermost first,
  and outside of all. -/
  keyStarts : List (Option KeyStart) := [none]

namespace Lexer

/-- Whether brackets or braces are open. -/
def inFlow (s : Lexer) : Bool := 1 < s.keyStarts.length

/-- The least column that is further right than the innermost collection. -/
def contentIndent (s : Lexer) : Nat := s.columns.head?.elim 0 (· + 1)

/-- Adds a token at the end. -/
def push (s : Lexer) (t : Token) : Lexer := { s with tokens := s.tokens.push t }

/-- Adds a token behind the first `n` ones. -/
def insert (s : Lexer) (n : Nat) (t : Token) : Lexer :=
  { s with tokens := s.tokens.take n ++ #[t] ++ s.tokens.drop n }

/-- Opens a collection at a column if it is further right than the innermost one; its token comes
behind the first `n` ones. -/
def openAt (s : Lexer) (column n : Nat) (t : Token) : Lexer :=
  if s.inFlow || column < s.contentIndent then s
  else { s with columns := column :: s.columns }.insert n t

/-- Closes the collections at the column `limit` and further right. -/
def closeFrom (s : Lexer) (limit : Nat) : Lexer :=
  if s.inFlow then s
  else
    let (closed, left) := s.columns.span fun c => limit ≤ c
    { s with
      tokens := s.tokens ++ Array.replicate closed.length Token.blockEnd
      columns := left }

/-- Forgets the innermost start of a key, unless it has to become one. -/
def dropKeyStart? (s : Lexer) : Option Lexer :=
  match s.keyStarts with
  | some k :: rest => if k.isRequired then none else some { s with keyStarts := none :: rest }
  | _ => some s

/-- Keeps the start of something in mind that may become a key. -/
def noteKeyStart? (s : Lexer) (g : Glyph) : Option Lexer :=
  if !s.allowsKey then some s
  else s.dropKeyStart?.map fun s =>
    let k : KeyStart := {
      tokens := s.tokens.size
      line := g.line
      column := g.column
      offset := g.offset
      isRequired := !s.inFlow && s.columns.head? == some g.column }
    { s with keyStarts := some k :: s.keyStarts.drop 1, allowsKey := false }

/-- The greatest number of bytes of a key. -/
def maxKeyLength : Nat := 1024

/-- Forgets the starts of keys that lie too far back from a place. -/
def dropStale? (s : Lexer) (g : Glyph) : Option Lexer :=
  let isStale (k : KeyStart) : Bool := k.line < g.line || k.offset + maxKeyLength < g.offset
  if s.keyStarts.any fun k => k.any fun k => isStale k && k.isRequired then none
  else some { s with keyStarts := s.keyStarts.map fun k => k.filter fun k => !isStale k }

/-- The glyphs behind gaps, comments and line ends, and whether a key may start there.  A mark of
the byte order may stand at the start of a line, where it takes up a column. -/
def dropIdle (inFlow : Bool) (isComment allowsKey : Bool) : List Glyph → Bool × List Glyph
  | [] => (allowsKey, [])
  | g :: rest =>
    if isLineEnd g.char then dropIdle inFlow false (allowsKey || !inFlow) rest
    else if isComment || g.char == ' ' || g.char == '\ufeff' && g.column == 0 ||
        g.char == '\t' && (inFlow || !allowsKey) then dropIdle inFlow isComment allowsKey rest
    else if g.char == '#' then dropIdle inFlow true allowsKey rest
    else (allowsKey, g :: rest)

/-! ## §4 Steps -/

/-- Takes a mark between documents. -/
def takeMark? (s : Lexer) (t : Token) : Option Lexer :=
  (s.closeFrom 0).dropKeyStart?.map fun s => { s with allowsKey := false }.push t

/-- Takes the start of a collection in brackets or braces. -/
def openFlow? (s : Lexer) (g : Glyph) (t : Token) : Option Lexer :=
  (s.noteKeyStart? g).map fun s =>
    { s with keyStarts := none :: s.keyStarts, allowsKey := true }.push t

/-- Takes the end of a collection in brackets or braces. -/
def closeFlow? (s : Lexer) (t : Token) : Option Lexer :=
  s.dropKeyStart?.map fun s =>
    { s with
      keyStarts := if s.inFlow then s.keyStarts.drop 1 else s.keyStarts
      allowsKey := false }.push t

/-- Takes a dash in front of an item. -/
def takeItem? (s : Lexer) (g : Glyph) : Option Lexer :=
  if !s.inFlow && !s.allowsKey then none
  else
    (s.openAt g.column s.tokens.size .blockSequenceStart).dropKeyStart?.map fun s =>
      { s with allowsKey := true }.push .blockEntry

/-- Takes a question mark in front of a key. -/
def takeKey? (s : Lexer) (g : Glyph) : Option Lexer :=
  if !s.inFlow && !s.allowsKey then none
  else
    (s.openAt g.column s.tokens.size .blockMappingStart).dropKeyStart?.map fun s =>
      { s with allowsKey := !s.inFlow }.push .key

/-- Takes a colon in front of a value: it turns what was kept in mind into a key. -/
def takeValue? (s : Lexer) (g : Glyph) : Option Lexer :=
  match s.keyStarts with
  | some k :: rest =>
    let s := { s with keyStarts := none :: rest, allowsKey := false }.insert k.tokens .key
    some ((s.openAt k.column k.tokens .blockMappingStart).push .value)
  | _ =>
    if s.inFlow then some ({ s with allowsKey := false }.push .value)
    else if !s.allowsKey then none
    else some ((s.openAt g.column s.tokens.size .blockMappingStart).push .value)

/-- Takes a scalar on one or more lines, which may become a key. -/
def takeScalar? (s : Lexer) (g : Glyph) (style : ScalarStyle)
    (r : Option (List Char × List Glyph)) : Option (Lexer × List Glyph) := do
  let (t, rest) ← r
  return ((← s.noteKeyStart? g).push (.scalar style t), rest)

/-- Takes a token whose reading does not depend on the state, and which may start a key. -/
def takeToken? (s : Lexer) (g : Glyph) (r : Option (Token × List Glyph)) :
    Option (Lexer × List Glyph) := do
  let (t, rest) ← r
  return ((← s.noteKeyStart? g).push t, rest)

/-- Takes a plain text. -/
def takePlain? (s : Lexer) (g : Glyph) (rest : List Glyph) : Option (Lexer × List Glyph) := do
  let s ← s.noteKeyStart? g
  let (t, hasLineEnd, rest) ← plain? s.inFlow s.contentIndent false {} (g :: rest)
  return ({ s with allowsKey := s.allowsKey || hasLineEnd }.push (.scalar .plain t), rest)

/-- Takes a block. -/
def takeBlock? (s : Lexer) (isFolded : Bool) (rest : List Glyph) :
    Option (Lexer × List Glyph) := do
  let s ← s.dropKeyStart?
  let (t, rest) ← block? isFolded s.contentIndent rest
  return ({ s with allowsKey := true }.push
    (.scalar (if isFolded then .folded else .literal) t), rest)

/-- Takes the token that starts with a glyph. -/
def take? (s : Lexer) (g : Glyph) (rest : List Glyph) : Option (Lexer × List Glyph) :=
  let withRest (r : Option Lexer) : Option (Lexer × List Glyph) := r.map (·, rest)
  -- directives and marks of documents stand at the start of a line only
  if g.column == 0 && g.char == '%' then do
    let (t, rest) ← directive? rest
    return (← s.takeMark? t, rest)
  else if startsMark '-' (g :: rest) then (s.takeMark? .documentStart).map (·, rest.drop 2)
  else if startsMark '.' (g :: rest) then (s.takeMark? .documentEnd).map (·, rest.drop 2)
  else if g.char == '-' && endsWord rest then withRest (s.takeItem? g)
  else if g.char == '?' && (s.inFlow || endsWord rest) then withRest (s.takeKey? g)
  else if g.char == ':' && (s.inFlow || endsWord rest) then withRest (s.takeValue? g)
  else
    match g.char with
    | '[' => withRest (s.openFlow? g .flowSequenceStart)
    | '\x7b' => withRest (s.openFlow? g .flowMappingStart)
    | ']' => withRest (s.closeFlow? .flowSequenceEnd)
    | '\x7d' => withRest (s.closeFlow? .flowMappingEnd)
    | ',' => withRest (s.dropKeyStart?.map fun s => { s with allowsKey := true }.push .flowEntry)
    | '*' => s.takeToken? g ((name? rest).map fun (t, r) => (.alias t, r))
    | '&' => s.takeToken? g ((name? rest).map fun (t, r) => (.anchor t, r))
    | '!' => s.takeToken? g (tag? s.inFlow rest)
    | '\x27' => s.takeScalar? g .singleQuoted (singleQuoted? {} rest)
    | '"' => s.takeScalar? g .doubleQuoted (doubleQuoted? (rest.length + 1) {} rest)
    | c =>
      if (c == '|' || c == '>') && !s.inFlow then s.takeBlock? (c == '>') rest
      else if startsPlain s.inFlow c rest then s.takePlain? g rest
      else none

/-- Takes all tokens off some glyphs, at most `fuel` of them. -/
def run? : Nat → Lexer → List Glyph → Option Lexer
  | 0, _, _ => none
  | fuel + 1, s, l =>
    let (allowsKey, l) := dropIdle s.inFlow false s.allowsKey l
    let s := { s with allowsKey := allowsKey }
    match l with
    | [] => (s.closeFrom 0).dropKeyStart?
    | g :: rest => do
      let s ← s.dropStale? g
      let (s, rest) ← (s.closeFrom (g.column + 1)).take? g rest
      run? fuel s rest

end Lexer

/-- The tokens of a text; none if something in it cannot be one. -/
def tokens? (t : List Char) : Option (List Token) :=
  if !t.all isAllowed then none
  else
    let l := glyphs 0 0 0 t
    (Lexer.run? (l.length + 1) {} l).map fun s => s.tokens.toList

end SpectrumPacking.Yaml
