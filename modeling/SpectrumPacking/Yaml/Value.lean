import SpectrumPacking.Decimal
import SpectrumPacking.Yaml.Token

/-!
# YAML Values

A document is a tree of mappings, sequences and scalars.  A scalar is text; what a plain scalar
means, a number or a truth value, is up to the one who reads it, and a quoted one means its text.
An indented block means a number or a truth value only if its tag says so.

A node with a name may be referred to from elsewhere, even from inside of itself, so a document is
a tree with references and a table of the nodes that they mean.
-/

namespace SpectrumPacking

/-- A node of a document. -/
inductive Yaml where
  /-- A text with its tag, if it has one. -/
  | scalar (tag : Option (List Char)) (style : Yaml.ScalarStyle) (text : List Char)
  | sequence (items : List Yaml)
  /-- A mapping, in order of appearance. -/
  | mapping (members : List (Yaml × Yaml))
  /-- The node at a place in the table of the document. -/
  | reference (place : Nat)
  deriving Inhabited

namespace Yaml

open Text

/-! ## §1 Meanings of Plain Scalars -/

/-- Whether a plain scalar stands for nothing. -/
def isNull (t : List Char) : Bool := ["null", "Null", "NULL", "~"].contains (String.ofList t)

/-- The truth value that a plain scalar stands for. -/
def truth? (t : List Char) : Option Bool :=
  let word := String.ofList t
  if ["true", "True", "TRUE"].contains word then some true
  else if ["false", "False", "FALSE"].contains word then some false
  else none

/-- The value of a digit in a base, `a` standing for ten. -/
def digitIn? (base : Nat) (c : Char) : Option Nat :=
  let value := if c.isDigit then c.toNat - '0'.toNat else c.toLower.toNat - 'a'.toNat + 10
  if c.isAlphanum && value < base then some value else none

/-- The value of a text of digits in a base. -/
def digitsIn? (base : Nat) (t : List Char) : Option Nat :=
  if t.isEmpty then none
  else (t.mapM (digitIn? base)).map fun l => l.foldl (fun n d => n * base + d) 0

/-- Whether a text has digits only, the first of several being zero. -/
def isPadded (t : List Char) : Bool :=
  match t with
  | '0' :: c :: rest => (c :: rest).all Char.isDigit
  | _ => false

/-- The value of an unsigned integer, in base ten or in one that its start announces. -/
def magnitude? (t : List Char) : Option Nat :=
  match t with
  | '0' :: 'x' :: rest => digitsIn? 16 rest
  | '0' :: 'o' :: rest => digitsIn? 8 rest
  | '0' :: 'b' :: rest => digitsIn? 2 rest
  | t => if isPadded t then none else digitsIn? 10 t

/-- The natural number that a plain scalar stands for. -/
def natural? : List Char → Option Nat
  | '+' :: rest => magnitude? rest
  | t => magnitude? t

/-- The floating-point number that a plain scalar stands for. -/
def float? (t : List Char) : Option Binary64 :=
  let word := String.ofList (match t with | '+' :: rest => rest | t => t)
  if [".inf", ".Inf", ".INF"].contains word then some (.infinity false)
  else if ["-.inf", "-.Inf", "-.INF"].contains (String.ofList t) then some (.infinity true)
  else if [".nan", ".NaN", ".NAN"].contains (String.ofList t) then some .nan
  else (Binary64.ofText? t).filter Binary64.isFinite

/-! ## §2 Typed Readings -/

/-- What the tags of numbers and truth values start with. -/
def tagBase : List Char := "tag:yaml.org,2002:".toList

/-- The text of a scalar. -/
def text? : Yaml → Option (List Char)
  | scalar _ _ t => some t
  | _ => none

/-- The text of a scalar, as a string. -/
def string? (y : Yaml) : Option String := y.text?.map String.ofList

/-- What a plain scalar means to a reader, or a block with a tag of the given name. -/
def typed? {α : Type} (name : String) (f : List Char → Option α) : Yaml → Option α
  | scalar _ .plain t => f t
  | scalar tag .literal t => if tag = some (tagBase ++ name.toList) then f t else none
  | _ => none

/-- A natural number of at most 64 binary digits. -/
def word? : Yaml → Option Nat := typed? "int" fun t => (natural? t).filter fun n => n < 2 ^ 64

/-- A floating-point number. -/
def binary64? : Yaml → Option Binary64 := typed? "float" float?

/-- A truth value. -/
def bool? : Yaml → Option Bool := typed? "bool" truth?

/-- The name of one of several choices: the text of a scalar, or its tag after an exclamation mark
if it has one, with nothing behind it. -/
def choice? : Yaml → Option String
  | scalar (some ('!' :: name)) style t =>
    if style = .plain ∧ (t.isEmpty ∨ isNull t) then some (String.ofList name) else none
  | scalar _ _ t => some (String.ofList t)
  | _ => none

example : word? (scalar none .plain "0x1F".toList) = some 31 ∧
    word? (scalar none .plain "+7".toList) = some 7 ∧
    word? (scalar none .plain "007".toList) = none ∧
    word? (scalar none .singleQuoted "7".toList) = none := by decide

/-! ## §3 Documents -/

/-- A document. -/
structure Document where
  /-- The whole tree. -/
  root : Yaml
  /-- The nodes with names, each with its place, in order of appearance. -/
  named : List (Nat × Yaml)

namespace Document

/-- What a node stands for: a reference means the last node of its place. -/
def target (d : Document) : Yaml → Yaml
  | reference place => (d.named.reverse.lookup place).getD (reference place)
  | y => y

/-- The fields of a record, given as a mapping with known keys.  It may have further keys, all of
them texts, but has to have each known one once. -/
def fields? (d : Document) (names : List String) : Yaml → Option (List Yaml)
  | mapping members =>
    (members.mapM fun (e : Yaml × Yaml) => (d.target e.1).text?.map (·, d.target e.2)).bind fun l =>
      names.mapM fun name =>
        match l.filter fun e => e.1 == name.toList with
        | [e] => some e.2
        | _ => none
  | _ => none

end Document

end Yaml

end SpectrumPacking
