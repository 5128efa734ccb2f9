import SpectrumPacking.Yaml.Value

/-!
# Printing YAML Documents

Documents in block style, two blanks for each level.  A text of one line is quoted if it would
otherwise be taken for something else, or could not be told from what stands around it; a text of
several lines is a block, if that shows all of it.
-/

namespace SpectrumPacking.Yaml

/-! ## §1 The Style of a Text -/

/-- Whether a text is one of the numbers that readers know: integers of at most 128 binary digits,
and finite floating-point numbers. -/
def isNumber (t : List Char) : Bool :=
  (natural? t).any (· < 2 ^ 128) ||
    (match t with
      | '-' :: rest => (magnitude? rest).any (· ≤ 2 ^ 127)
      | _ => false) || (float? t).isSome

/-- Whether a plain scalar with a text would mean something else than the text, or looks like a
number with zeros in front. -/
def isAmbiguous (t : List Char) : Bool :=
  t.isEmpty || isNull t || (truth? t).isSome || isNumber t ||
    match t with
    | '-' :: rest => isPadded rest
    | '+' :: rest => isPadded rest
    | t => isPadded t

/-- Whether a character is shown as it is. -/
def isShown (c : Char) : Bool :=
  c == '\n' || (' ' ≤ c && c ≤ '~') ||
    ('\u00a0' ≤ c && c != '\ufeff' && c != '\ufffe' && c != '\uffff')

/-- Whether a character that passes one test is followed by one that passes another. -/
def hasPair (p q : Char → Bool) (t : List Char) : Bool :=
  (t.zip (t.drop 1)).any fun (c, d) => p c && q d

/-- Whether a text has a colon in front of a gap or a mark of a comment behind one. -/
def hasMarkInside (t : List Char) : Bool :=
  t.getLast? == some ':' || hasPair (· == ':') (fun c => isGap c || isRawLineEnd c) t ||
    hasPair (fun c => isGap c || isRawLineEnd c) (· == '#') t

/-- Whether a text starts with a character that has a meaning of its own. -/
def hasMarkInFront (t : List Char) : Bool :=
  match t with
  | [] => true
  | ['-'] => true
  | ['?'] => true
  | '-' :: c :: _ => isGap c || isRawLineEnd c || "---".toList.isPrefixOf t
  | '?' :: c :: _ => isGap c || isRawLineEnd c
  | c :: _ =>
    "#,[]\x7b\x7d&*!|>'\"%@\x60".toList.contains c || "...".toList.isPrefixOf t

/-- Whether a text of one line can be told from what stands around it. -/
def isClear (t : List Char) : Bool :=
  !hasMarkInFront t && !hasMarkInside t && t.head? != some ' ' && t.getLast? != some ' ' &&
    !t.any isRawLineEnd

/-- Whether a text can be shown at all: blanks at the end of a line would be lost. -/
def isShowable (t : List Char) : Bool := t.all isShown && !hasPair (· == ' ') isRawLineEnd t

/-- The style in which a text is written. -/
def styleOf (t : List Char) : ScalarStyle :=
  if t.contains '\n' then
    if isShowable t && t.getLast? != some ' ' then .literal else .doubleQuoted
  else if !isShowable t || hasPair isRawLineEnd (· == ' ') t then .doubleQuoted
  else if isAmbiguous t || !isClear t then .singleQuoted
  else .plain

/-- The scalar with a text. -/
def ofText (t : List Char) : Yaml := .scalar none (styleOf t) t

/-! ## §2 Scalars -/

/-- The letter that stands for a character behind a backslash, if there is one. -/
def escapeLetter? (c : Char) : Option Char :=
  [('\x00', '0'), ('\x07', 'a'), ('\x08', 'b'), ('\t', 't'), ('\n', 'n'), ('\x0b', 'v'),
    ('\x0c', 'f'), ('\r', 'r'), ('\x1b', 'e'), ('"', '"'), ('\\', '\\'), ('\u0085', 'N'),
    ('\u2028', 'L'), ('\u2029', 'P')].lookup c

/-- A number in hexadecimal digits, with zeros in front. -/
def hexadecimal (width n : Nat) : List Char :=
  let digits := (Nat.toDigits 16 n).map Char.toUpper
  List.replicate (width - digits.length) '0' ++ digits

/-- A character in double quotes. -/
def escape (c : Char) : List Char :=
  match escapeLetter? c with
  | some d => ['\\', d]
  | none =>
    if isShown c then [c]
    else if c.toNat < 0x100 then '\\' :: 'x' :: hexadecimal 2 c.toNat
    else if c.toNat < 0x10000 then '\\' :: 'u' :: hexadecimal 4 c.toNat
    else '\\' :: 'U' :: hexadecimal 8 c.toNat

/-- A text with the lines behind its line ends indented, where `f` writes a character. -/
def indented (f : Char → List Char) (indent : Nat) (atStart : Bool) : List Char → List Char
  | [] => []
  | c :: rest =>
    if isLineEnd c then c :: indented f indent true rest
    else (if atStart then List.replicate indent ' ' else []) ++ f c ++ indented f indent false rest

/-- A text in single quotes. -/
def singleQuotedText (indent : Nat) (t : List Char) : List Char :=
  let close := if t.getLast?.any isLineEnd then List.replicate indent ' ' else []
  '\x27' :: indented (fun c => if c = '\x27' then [c, c] else [c]) indent false t ++
    close ++ ['\x27']

/-- The mark of a block with a text: an indentation if it would not show, and what becomes of the
line ends behind the block. -/
def blockMark (t : List Char) : List Char :=
  let hint := if t.head?.any fun c => c == ' ' || isLineEnd c then ['2'] else []
  let chomping :=
    match t.reverse with
    | [] => ['-']
    | [c] => if isLineEnd c then ['+'] else ['-']
    | c :: d :: _ => if !isLineEnd c then ['-'] else if isLineEnd d then ['+'] else []
  '|' :: hint ++ chomping

/-- A scalar as it is written; its lines behind the first one are indented. -/
def scalarText (indent : Nat) (style : ScalarStyle) (t : List Char) : List Char :=
  match style with
  | .plain => t
  | .singleQuoted => singleQuotedText indent t
  | .doubleQuoted => '"' :: t.flatMap escape ++ ['"']
  | _ => blockMark t ++ '\n' :: indented (fun c => [c]) indent true t

/-- A scalar on a line that it ends. -/
def scalarLine (indent : Nat) (style : ScalarStyle) (t : List Char) : List Char :=
  let shown := scalarText indent style t
  if shown.getLast?.any isLineEnd then shown else shown ++ ['\n']

/-! ## §3 Documents -/

/-- The text of a key. -/
def keyText (y : Yaml) : List Char :=
  match y with
  | .scalar _ style t => scalarText 0 style t
  | _ => []

mutual

/-- A node from the column `indent` on, behind a first line that is indented already. -/
def nodeText (indent : Nat) : Yaml → List Char
  | .scalar _ style t => scalarLine (indent + 2) style t
  | .sequence items => itemsText indent true items
  | .mapping members => membersText indent true members
  | .reference _ => []

/-- The items of a sequence. -/
def itemsText (indent : Nat) (isFirst : Bool) : List Yaml → List Char
  | [] => []
  | y :: rest =>
    (if isFirst then [] else List.replicate indent ' ') ++ '-' :: ' ' :: nodeText (indent + 2) y ++
      itemsText indent false rest

/-- The members of a mapping. -/
def membersText (indent : Nat) (isFirst : Bool) : List (Yaml × Yaml) → List Char
  | [] => []
  | (key, y) :: rest =>
    let pad := if isFirst then [] else List.replicate indent ' '
    pad ++ keyText key ++ ':' :: valueText indent y ++ membersText indent false rest

/-- A value behind the colon of its key, which stands at the column `indent`. -/
def valueText (indent : Nat) : Yaml → List Char
  | .scalar _ style t => ' ' :: scalarLine (indent + 2) style t
  | .sequence items => '\n' :: List.replicate indent ' ' ++ itemsText indent true items
  | .mapping members =>
    '\n' :: List.replicate (indent + 2) ' ' ++ membersText (indent + 2) true members
  | .reference _ => ['\n']

end

/-- The text of a document. -/
def toText (y : Yaml) : List Char := nodeText 0 y

/-! ## §4 Scalars of Other Types -/

/-- The scalar of a natural number. -/
def ofNat (n : Nat) : Yaml := .scalar none .plain (Text.Numeral.ofNat n)

/-- The scalar of a truth value. -/
def ofBool (b : Bool) : Yaml := .scalar none .plain (if b then "true" else "false").toList

/-- How documents write exponents. -/
def exponentStyle : Decimal.ExponentStyle := ⟨false⟩

/-- The scalar of a floating-point number. -/
def ofBinary64 (x : Binary64) : Yaml :=
  .scalar none .plain <|
    match x with
    | .nan => ".nan".toList
    | .infinity true => "-.inf".toList
    | .infinity false => ".inf".toList
    | .finite negative units => Decimal.finiteText exponentStyle negative units

example : (nodeText 0 (ofText "a: b".toList), nodeText 0 (ofText "12".toList),
    nodeText 0 (ofText "a\tb".toList), nodeText 0 (ofText "a:b#c".toList)) =
    ("'a: b'\n".toList, "'12'\n".toList, "\"a\\tb\"\n".toList, "a:b#c\n".toList) := by
  decide +kernel

example : nodeText 0 (.mapping [(ofText "a".toList, ofText "b\nc".toList)]) =
    "a: |-\n  b\n  c\n".toList := by decide +kernel

end SpectrumPacking.Yaml
