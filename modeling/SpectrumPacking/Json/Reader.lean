import SpectrumPacking.Json.Value

/-!
# Reading JSON Texts

A reader for the JSON grammar: `Json.ofText? text` is the value of a text that holds one value
and blanks around it.
-/

namespace SpectrumPacking.Json

/-! ## §1 Tokens -/

/-- Whether JSON treats a character as blank. -/
def isBlank (c : Char) : Bool := c == ' ' || c == '\n' || c == '\t' || c == '\r'

/-- Drops the blanks in front. -/
def skip (t : List Char) : List Char := t.dropWhile isBlank

/-- Takes the inside of a string off a text, up to the closing quote, which is dropped. -/
def stringBody? : List Char → Option (List Char × List Char)
  | [] => none
  | '"' :: rest => some ([], rest)
  | '\\' :: 'u' :: a :: b :: c :: d :: rest =>
    match hexFour? a b c d with
    | none => none
    | some _ => (stringBody? rest).map fun (s, r) => ('\\' :: 'u' :: a :: b :: c :: d :: s, r)
  | '\\' :: c :: rest =>
    match simpleEscape? c with
    | none => none
    | some _ => (stringBody? rest).map fun (s, r) => ('\\' :: c :: s, r)
  | c :: rest =>
    if c.toNat < 32 ∨ c = '\\' then none else (stringBody? rest).map fun (s, r) => (c :: s, r)

/-- Takes at least one digit off a text. -/
def digits? (t : List Char) : Option (List Char × List Char) :=
  match t.takeWhile Char.isDigit with
  | [] => none
  | ds => some (ds, t.dropWhile Char.isDigit)

/-- Takes the digits in front of the point off a text; a zero may not be followed by digits. -/
def whole? (t : List Char) : Option (List Char × List Char) :=
  match digits? t with
  | some ('0' :: _ :: _, _) => none
  | r => r

/-- Takes a point and digits off a text, if there is a point. -/
def fraction? : List Char → Option (List Char × List Char)
  | '.' :: rest => (digits? rest).map fun (ds, r) => ('.' :: ds, r)
  | t => some ([], t)

/-- Takes an exponent off a text, if there is one. -/
def exponent? : List Char → Option (List Char × List Char)
  | c :: rest =>
    if c = 'e' ∨ c = 'E' then
      match rest with
      | '+' :: r => (digits? r).map fun (ds, r) => (c :: '+' :: ds, r)
      | '-' :: r => (digits? r).map fun (ds, r) => (c :: '-' :: ds, r)
      | r => (digits? r).map fun (ds, r) => (c :: ds, r)
    else some ([], c :: rest)
  | [] => some ([], [])

/-- Takes a number off a text. -/
def number? (t : List Char) : Option (List Char × List Char) :=
  let (sign, t) := match t with
    | '-' :: rest => (['-'], rest)
    | t => ([], t)
  match whole? t with
  | none => none
  | some (w, t) =>
    match fraction? t with
    | none => none
    | some (f, t) => (exponent? t).map fun (e, r) => (sign ++ w ++ f ++ e, r)

/-! ## §2 Values -/

mutual

/-- Takes a value off a text that starts with it; `fuel` bounds the nesting. -/
def value? : Nat → List Char → Option (Json × List Char)
  | 0, _ => none
  | fuel + 1, t =>
    match t with
    | 'n' :: 'u' :: 'l' :: 'l' :: rest => some (.null, rest)
    | 't' :: 'r' :: 'u' :: 'e' :: rest => some (.bool true, rest)
    | 'f' :: 'a' :: 'l' :: 's' :: 'e' :: rest => some (.bool false, rest)
    | '"' :: rest => (stringBody? rest).map fun (s, r) => (.string s, r)
    | '[' :: rest =>
      match skip rest with
      | ']' :: r => some (.array [], r)
      | r => (items? fuel r).map fun (l, r) => (.array l, r)
    | '\x7b' :: rest =>
      match skip rest with
      | '\x7d' :: r => some (.object [], r)
      | r => (members? fuel r).map fun (l, r) => (.object l, r)
    | t => (number? t).map fun (s, r) => (.number s, r)

/-- Takes the items of a list off a text, up to the closing bracket. -/
def items? : Nat → List Char → Option (List Json × List Char)
  | 0, _ => none
  | fuel + 1, t =>
    match value? fuel t with
    | none => none
    | some (v, t) =>
      match skip t with
      | ']' :: r => some ([v], r)
      | ',' :: r => (items? fuel (skip r)).map fun (l, r) => (v :: l, r)
      | _ => none

/-- Takes the members of an object off a text, up to the closing brace. -/
def members? : Nat → List Char → Option (List (List Char × Json) × List Char)
  | 0, _ => none
  | fuel + 1, t =>
    match t with
    | '"' :: t =>
      match stringBody? t with
      | none => none
      | some (k, t) =>
        match skip t with
        | ':' :: t =>
          match value? fuel (skip t) with
          | none => none
          | some (v, t) =>
            match skip t with
            | '\x7d' :: r => some ([(k, v)], r)
            | ',' :: r => (members? fuel (skip r)).map fun (l, r) => ((k, v) :: l, r)
            | _ => none
        | _ => none
    | _ => none

end

/-- The value of a text. -/
def ofText? (t : List Char) : Option Json :=
  match value? (t.length + 1) (skip t) with
  | some (v, rest) => if (skip rest).isEmpty then some v else none
  | none => none

/-! ## §3 Typed Readings -/

/-- The items of a list that all pass a reader. -/
def allItems? {α : Type} (f : Json → Option α) : Json → Option (List α)
  | .array items => items.mapM f
  | _ => none

/-- The members of an object whose keys and values all pass their readers. -/
def allMembers? {α β : Type} (f : List Char → Option α) (g : Json → Option β) :
    Json → Option (List (α × β))
  | .object members => members.mapM fun (k, v) =>
    match f k, g v with
    | some a, some b => some (a, b)
    | _, _ => none
  | _ => none

/-- The text of a string. -/
def text? : Json → Option (List Char)
  | .string s => decodeString? s
  | _ => none

/-- The floating-point number of a number. -/
def float? : Json → Option Binary64
  | .number s => binary64? s
  | _ => none

/-- An integer from a range. -/
def intWhere? (p : Int → Bool) : Json → Option Int
  | .number s => (integer? s).filter p
  | _ => none

/-- A key that spells an integer from a range as a number. -/
def keyWhere? (p : Int → Bool) (key : List Char) : Option Int :=
  match number? key with
  | some (s, []) => (integer? s).filter p
  | _ => none

/-- The fields of a record, given as an object with known names or as a list in the order of the
names.  A missing field is `none`; an object may have further members, but not a known one twice,
and a list may not be longer than the names. -/
def fields? (names : List String) : Json → Option (List (Option Json))
  | .array items =>
    if names.length < items.length then none
    else some ((List.range names.length).map fun i => items[i]?)
  | .object members =>
    match members.mapM fun (k, v) => (decodeString? k).map fun n => (n, v) with
    | none => none
    | some l =>
      names.mapM fun name =>
        match l.filter fun e => e.1 == name.toList with
        | [] => some none
        | [e] => some (some e.2)
        | _ => none
  | _ => none

end SpectrumPacking.Json
