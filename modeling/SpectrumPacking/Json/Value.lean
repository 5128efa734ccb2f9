import SpectrumPacking.Decimal

/-!
# JSON Values

A JSON value keeps its numbers and strings as they are spelled, so that a reader can tell `1` from
`1.0` and an escaped key from a plain one.  What a spelling stands for is said here.  A value is
printed on one line without blanks, or spread over lines with two blanks for each level.
-/

namespace SpectrumPacking

/-- A JSON value with the spelling of its numbers and of the insides of its strings. -/
inductive Json where
  /-- The value `null`. -/
  | null
  /-- A truth value. -/
  | bool (b : Bool)
  | number (spelling : List Char)
  | string (spelling : List Char)
  /-- A list of values. -/
  | array (items : List Json)
  /-- A list of keys with their values. -/
  | object (members : List (List Char × Json))
  deriving Inhabited

namespace Json

/-! ## §1 Strings -/

/-- The value of a hexadecimal digit. -/
def hexDigit? (c : Char) : Option Nat :=
  if c.isDigit then some (c.toNat - '0'.toNat)
  else if 'a' ≤ c ∧ c ≤ 'f' then some (c.toNat - 'a'.toNat + 10)
  else if 'A' ≤ c ∧ c ≤ 'F' then some (c.toNat - 'A'.toNat + 10)
  else none

/-- The value of four hexadecimal digits. -/
def hexFour? (a b c d : Char) : Option Nat :=
  match hexDigit? a, hexDigit? b, hexDigit? c, hexDigit? d with
  | some w, some x, some y, some z => some (((w * 16 + x) * 16 + y) * 16 + z)
  | _, _, _, _ => none

/-- The character that a backslash and one letter stand for. -/
def simpleEscape? (c : Char) : Option Char :=
  if c = '"' ∨ c = '\\' ∨ c = '/' then some c
  else if c = 'b' then some '\x08'
  else if c = 'f' then some '\x0c'
  else if c = 'n' then some '\n'
  else if c = 'r' then some '\r'
  else if c = 't' then some '\t'
  else none

/-- The text that a spelling stands for.  Code points above `FFFF` are spelled by two escapes, and
half of such a pair stands for nothing. -/
def decodeString? : List Char → Option (List Char)
  | [] => some []
  | '\\' :: 'u' :: a :: b :: c :: d :: rest =>
    match hexFour? a b c d with
    | none => none
    | some n =>
      -- the first half of a pair, which needs its second half right behind it
      if 0xD800 ≤ n ∧ n < 0xDC00 then
        match rest with
        | '\\' :: 'u' :: e :: f :: g :: h :: rest' =>
          match hexFour? e f g h with
          | some m =>
            if 0xDC00 ≤ m ∧ m < 0xE000 then
              (decodeString? rest').map
                (Char.ofNat (0x10000 + (n - 0xD800) * 0x400 + (m - 0xDC00)) :: ·)
            else none
          | none => none
        | _ => none
      else if 0xDC00 ≤ n ∧ n < 0xE000 then none
      else (decodeString? rest).map (Char.ofNat n :: ·)
  | '\\' :: c :: rest =>
    match simpleEscape? c with
    | some d => (decodeString? rest).map (d :: ·)
    | none => none
  | c :: rest => (decodeString? rest).map (c :: ·)

/-- The spelling of one character: quotes, backslashes and control characters are escaped. -/
def encodeChar (c : Char) : List Char :=
  if c = '"' then ['\\', '"']
  else if c = '\\' then ['\\', '\\']
  else if c = '\x08' then ['\\', 'b']
  else if c = '\x0c' then ['\\', 'f']
  else if c = '\n' then ['\\', 'n']
  else if c = '\r' then ['\\', 'r']
  else if c = '\t' then ['\\', 't']
  else if c.toNat < 32 then
    "\\u00".toList ++ [Nat.digitChar (c.toNat / 16), Nat.digitChar (c.toNat % 16)]
  else [c]

/-- The string of a text. -/
def ofText (t : List Char) : Json := .string (t.flatMap encodeChar)

/-! ## §2 Numbers -/

/-- The parts of a number's spelling. -/
structure NumberParts where
  /-- Whether a minus sign stands in front. -/
  negative : Bool
  /-- The digits in front of the point. -/
  whole : List Char
  /-- The digits behind the point, if there is a point. -/
  fraction : Option (List Char)
  /-- The exponent, if there is one. -/
  exponent : Option Int

/-- Takes a number's spelling apart. -/
def NumberParts.of (spelling : List Char) : NumberParts :=
  let (negative, t) := match spelling with
    | '-' :: rest => (true, rest)
    | t => (false, t)
  let whole := t.takeWhile Char.isDigit
  let (fraction, t) := match t.dropWhile Char.isDigit with
    | '.' :: rest => (some (rest.takeWhile Char.isDigit), rest.dropWhile Char.isDigit)
    | t => (none, t)
  let exponent := match t with
    | _ :: rest => Text.Numeral.signed? rest
    | [] => none
  ⟨negative, whole, fraction, exponent⟩

/-- Appends digits to a significand until it would need more than 64 bits; the digits that are
left over come with it. -/
def takeDigits (significand : Nat) : List Char → Nat × List Char
  | [] => (significand, [])
  | c :: rest =>
    let next := significand * 10 + (c.toNat - '0'.toNat)
    if next < 2 ^ 64 then takeDigits next rest else (significand, c :: rest)

/-- Scales a number by a power of ten, in steps that are rounded one by one.  What grows beyond
all finite numbers is refused. -/
def scale? : Nat → Binary64 → Int → Option Binary64
  | 0, _, _ => some Binary64.zero
  | fuel + 1, x, e =>
    if x = Binary64.zero then some x
    else if 308 < e then none
    else if 0 ≤ e then
      match x.mul (Binary64.ofDecimal false 1 e) with
      | .finite n u => some (.finite n u)
      | _ => none
    else if -308 ≤ e then some (x.div (Binary64.ofDecimal false 1 (-e)))
    else scale? fuel (x.div (Binary64.ofDecimal false 1 308)) (e + 308)

/-- The significand of at most 64 bits that the digits of a number start with, and the power of
ten that belongs to it. -/
def NumberParts.significand (p : NumberParts) : Nat × Int :=
  let (s, left) := takeDigits 0 p.whole
  match p.fraction with
  | none => (s, left.length)
  | some digits =>
    let (s', left') := takeDigits s digits
    (s', (left.length : Int) - (digits.length - left'.length : Nat))

/-- The floating-point number that a spelling stands for. -/
def binary64? (spelling : List Char) : Option Binary64 :=
  let p := NumberParts.of spelling
  let (s, e) := p.significand
  (scale? 4 (Binary64.ofNat s) (e + p.exponent.getD 0)).map fun x =>
    if p.negative then x.neg else x

/-- The integer that a spelling without point and exponent stands for; `-0` is none. -/
def integer? (spelling : List Char) : Option Int :=
  let p := NumberParts.of spelling
  if p.fraction.isNone && p.exponent.isNone then
    match Text.Numeral.digits? p.whole with
    | none => none
    | some n => if p.negative then (if n = 0 then none else some (-(n : Int))) else some n
  else none

/-- How JSON texts write exponents. -/
def exponentStyle : Decimal.ExponentStyle := ⟨true⟩

/-- The JSON value of a floating-point number; what is not finite becomes `null`. -/
def ofBinary64 : Binary64 → Json
  | .finite negative units => .number (Decimal.finiteText exponentStyle negative units)
  | _ => .null

/-- The JSON value of an integer. -/
def ofInt (i : Int) : Json := .number (Text.Numeral.ofInt i)

end Json

/-! ## §3 Printing -/

namespace Json

mutual

/-- The text of a value on one line. -/
def compact : Json → List Char
  | .null => "null".toList
  | .bool b => (if b then "true" else "false").toList
  | .number s => s
  | .string s => '"' :: s ++ ['"']
  | .array items => '[' :: [','].intercalate (compactItems items) ++ [']']
  | .object members => '\x7b' :: [','].intercalate (compactMembers members) ++ ['\x7d']

/-- The texts of list items. -/
def compactItems : List Json → List (List Char)
  | [] => []
  | v :: rest => compact v :: compactItems rest

/-- The texts of object members. -/
def compactMembers : List (List Char × Json) → List (List Char)
  | [] => []
  | (k, v) :: rest => ('"' :: k ++ '"' :: ':' :: compact v) :: compactMembers rest

end

/-- A line end and the indentation of a level. -/
def newLine (level : Nat) : List Char := '\n' :: List.replicate (2 * level) ' '

/-- Puts every item on a line of its own between two brackets; without items the brackets stand
together. -/
def enclose (level : Nat) (opening closing : Char) : List (List Char) → List Char
  | [] => [opening, closing]
  | items =>
    opening :: newLine (level + 1) ++
      (',' :: newLine (level + 1)).intercalate items ++ newLine level ++ [closing]

mutual

/-- The text of a value over several lines. -/
def pretty (level : Nat) : Json → List Char
  | .null => "null".toList
  | .bool b => (if b then "true" else "false").toList
  | .number s => s
  | .string s => '"' :: s ++ ['"']
  | .array items => enclose level '[' ']' (prettyItems (level + 1) items)
  | .object members => enclose level '\x7b' '\x7d' (prettyMembers (level + 1) members)

/-- The texts of list items. -/
def prettyItems (level : Nat) : List Json → List (List Char)
  | [] => []
  | v :: rest => pretty level v :: prettyItems level rest

/-- The texts of object members. -/
def prettyMembers (level : Nat) : List (List Char × Json) → List (List Char)
  | [] => []
  | (k, v) :: rest => ('"' :: k ++ '"' :: ':' :: ' ' :: pretty level v) :: prettyMembers level rest

end

end Json

end SpectrumPacking
