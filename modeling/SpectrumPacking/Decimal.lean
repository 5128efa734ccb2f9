import SpectrumPacking.Text.Numeral

/-!
# Floating-Point Numbers and Their Decimal Texts

Binary floating-point numbers have 53 significant bits and an exponent range of 11 bits.  Every
finite one is a multiple of the smallest positive one, `2 ^ -1074`, and is kept as that multiple, so
its exact value is at hand.  Arithmetic computes the exact result and rounds it once, to the nearest
number and to the even one of two that are equally near.

A decimal text is rounded once when it is read.  A number is written with a fixed count of places,
where a tie goes to an even last digit, or with the fewest digits that still round to it, and of
these the nearest.  Those are looked for on the decimal grids from one digit to seventeen; on each
grid only the two neighbours of the number can be the nearest.
-/

namespace SpectrumPacking

/-! ## §1 Rounding Quotients -/

/-- The quotient of two natural numbers, rounded to the nearest one; of two that are equally near
the even one is taken. -/
def roundDiv (num den : Nat) : Nat :=
  let q := num / den
  let r := num % den
  if 2 * r < den then q else if den < 2 * r then q + 1 else q + q % 2

/-- The rounded quotient is at most half a unit off. -/
theorem roundDiv_near {num den : Nat} (h : 0 < den) :
    2 * num ≤ 2 * (roundDiv num den * den) + den ∧
      2 * (roundDiv num den * den) ≤ 2 * num + den := by
  have hdiv : num / den * den + num % den = num := Nat.div_add_mod' num den
  have hlt : num % den < den := Nat.mod_lt num h
  unfold roundDiv
  generalize num / den = q at hdiv ⊢
  generalize num % den = r at hdiv hlt ⊢
  have hsucc : (q + 1) * den = q * den + den := Nat.succ_mul q den
  simp only
  split
  · omega
  · split
    · rw [hsucc]
      omega
    · -- a tie, where either neighbour is half a unit off
      obtain hq | hq : q % 2 = 0 ∨ q % 2 = 1 := by omega
      · rw [hq, Nat.add_zero]
        omega
      · rw [hq, hsucc]
        omega

/-- A tie goes to the even neighbour. -/
theorem roundDiv_tie {num den : Nat} (h : 2 * (num % den) = den) : roundDiv num den % 2 = 0 := by
  unfold roundDiv
  simp only
  rw [if_neg (by omega), if_neg (by omega)]
  omega

/-! ## §2 The Type -/

/-- A binary floating-point number. -/
inductive Binary64 where
  /-- No number. -/
  | nan
  | infinity (negative : Bool)
  /-- The number `units * 2 ^ -1074`, or its opposite. -/
  | finite (negative : Bool) (units : Nat)
  deriving DecidableEq, Repr, Inhabited

namespace Binary64

/-- One, counted in units. -/
def unitsOfOne : Nat := 2 ^ 1074

/-- The number nearest to a quotient, with a sign.  What rounds to `2 ^ 1024` or more becomes an
infinity. -/
def ofRatio (negative : Bool) (num den : Nat) : Binary64 :=
  let scaled := num * unitsOfOne
  let shift := (scaled / den).log2 - 52
  let units := roundDiv scaled (den * 2 ^ shift) * 2 ^ shift
  if units < 2 ^ 2098 then .finite negative units else .infinity negative

/-- The number nearest to `digits * 10 ^ exponent`, with a sign. -/
def ofDecimal (negative : Bool) (digits : Nat) (exponent : Int) : Binary64 :=
  if 0 ≤ exponent then ofRatio negative (digits * 10 ^ exponent.toNat) 1
  else ofRatio negative digits (10 ^ (-exponent).toNat)

/-- The number nearest to a natural number. -/
def ofNat (n : Nat) : Binary64 := ofRatio false n 1

/-- The positive zero. -/
def zero : Binary64 := .finite false 0

/-- Whether a number is finite and greater than zero. -/
def isPositive : Binary64 → Bool
  | finite false units => 0 < units
  | _ => false

/-- The opposite number. -/
def neg : Binary64 → Binary64
  | nan => nan
  | infinity negative => infinity (!negative)
  | finite negative units => finite (!negative) units

/-! ## §3 Arithmetic Without Signs -/

/-- The sum of two numbers that are not negative. -/
def add : Binary64 → Binary64 → Binary64
  | finite _ u, finite _ v => ofRatio false (u + v) unitsOfOne
  | nan, _ => nan
  | _, nan => nan
  | _, _ => infinity false

/-- The product of two numbers that are finite and not negative. -/
def mul : Binary64 → Binary64 → Binary64
  | finite _ u, finite _ v => ofRatio false (u * v) (unitsOfOne * unitsOfOne)
  | nan, _ => nan
  | _, nan => nan
  | _, _ => infinity false

/-- The quotient of a number that is not negative by one that is greater than zero. -/
def div : Binary64 → Binary64 → Binary64
  | finite _ u, finite _ v => if v = 0 then nan else ofRatio false u v
  | infinity _, finite _ _ => infinity false
  | finite _ _, infinity _ => zero
  | _, _ => nan

end Binary64

/-! ## §4 Reading -/

namespace Binary64

/-- The floating-point number nearest to `digits * 10 ^ exponent`, where `count` is the number of
digits without zeros in front.  What lies far outside the range is not computed. -/
def ofDigits (negative : Bool) (digits count : Nat) (exponent : Int) : Binary64 :=
  let lead := exponent + (count : Int)
  if digits = 0 ∨ lead < -400 then .finite negative 0
  else if 400 < lead then .infinity negative
  else ofDecimal negative digits exponent

/-- Reads the exponent of a number, which may be missing. -/
def exponent? : List Char → Option Int
  | [] => some 0
  | c :: rest => if c = 'e' ∨ c = 'E' then Text.Numeral.signed? rest else none

/-- Reads a number without sign. -/
def magnitude? (negative : Bool) (t : List Char) : Option Binary64 :=
  let whole := t.takeWhile Char.isDigit
  let (fraction, rest) := match t.dropWhile Char.isDigit with
    | '.' :: rest => (rest.takeWhile Char.isDigit, rest.dropWhile Char.isDigit)
    | rest => ([], rest)
  let digits := whole ++ fraction
  match Text.Numeral.digits? digits, exponent? rest with
  | some n, some e =>
    let count := (digits.dropWhile (· == '0')).length
    some (ofDigits negative n count (e - (fraction.length : Int)))
  | _, _ => none

/-- Reads a number without sign, or the name of what is no finite number. -/
def unsigned? (negative : Bool) (t : List Char) : Option Binary64 :=
  let word := String.ofList (t.map Char.toLower)
  if word = "inf" ∨ word = "infinity" then some (.infinity negative)
  else if word = "nan" then some .nan
  else magnitude? negative t

/-- Reads a number. -/
def ofText? : List Char → Option Binary64
  | '-' :: rest => unsigned? true rest
  | '+' :: rest => unsigned? false rest
  | t => unsigned? false t

/-- Whether a number is finite. -/
def isFinite : Binary64 → Bool
  | finite .. => true
  | _ => false

example : ofText? "12.50".toList = some (ofRatio false 25 2) ∧
    ofText? "-.5E+1".toList = some (ofRatio true 5 1) ∧ ofText? ".".toList = none ∧
    ofText? "1e".toList = none ∧ ofText? "1e999999999".toList = some (.infinity false) := by
  decide +kernel

end Binary64

namespace Decimal

/-! ## §5 Decimal Places -/

/-- Writes a number of thousandths with three places. -/
def thousandthsText (n : Nat) : List Char :=
  let rest := Text.Numeral.ofNat (n % 1000)
  Text.Numeral.ofNat (n / 1000) ++ '.' :: (List.replicate (3 - rest.length) '0' ++ rest)

/-- The text of a number with three decimal places. -/
def threePlaces : Binary64 → List Char
  | .nan => "NaN".toList
  | .infinity negative => if negative then "-inf".toList else "inf".toList
  | .finite negative units =>
    (if negative then ['-'] else []) ++
      thousandthsText (roundDiv (units * 1000) Binary64.unitsOfOne)

/-! ## §6 The Fewest Digits -/

/-- The exponent of the leading decimal digit of a positive multiple of the unit. -/
def leadingExponent (units : Nat) : Int :=
  if Binary64.unitsOfOne ≤ units then
    ((Text.Numeral.ofNat (units / Binary64.unitsOfOne)).length : Int) - 1
  else
    match (List.range 330).find? fun j => Binary64.unitsOfOne ≤ units * 10 ^ j with
    | some j => -(j : Int)
    | none => -330

/-- The numbers that round to a multiple of the unit, in quarters of the unit: the ends, and
whether they belong to the range. -/
structure RoundingRange where
  /-- The lower end. -/
  low : Nat
  /-- The upper end. -/
  high : Nat
  /-- Whether the ends round to the number too. -/
  closed : Bool

/-- The range of a positive number; below a power of two the grid of numbers is finer. -/
def RoundingRange.of (units : Nat) : RoundingRange :=
  let shift := units.log2 - 52
  let step := 2 ^ shift
  let below := if units = 2 ^ (52 + shift) ∧ 0 < shift then step else 2 * step
  ⟨4 * units - below, 4 * units + 2 * step, units / step % 2 == 0⟩

/-- A decimal number `digits * 10 ^ exponent` as a quotient in quarters of the unit. -/
def quarters (digits : Nat) (exponent : Int) : Nat × Nat :=
  if 0 ≤ exponent then (digits * 10 ^ exponent.toNat * (4 * Binary64.unitsOfOne), 1)
  else (digits * (4 * Binary64.unitsOfOne), 10 ^ (-exponent).toNat)

/-- Whether a decimal number lies in a range. -/
def RoundingRange.holds (r : RoundingRange) (digits : Nat) (exponent : Int) : Bool :=
  let (num, den) := quarters digits exponent
  if r.closed then r.low * den ≤ num && num ≤ r.high * den
  else r.low * den < num && num < r.high * den

/-- Of the two neighbours of a number on the grid of an exponent, the nearest one that rounds to
the number; of two equally near the even one. -/
def onGrid? (units : Nat) (exponent : Int) : Option Nat :=
  let (num, den) := quarters 1 exponent
  let below := 4 * units * den / num
  let r := RoundingRange.of units
  match r.holds below exponent, r.holds (below + 1) exponent with
  | true, true => some (roundDiv (4 * units * den) num)
  | true, false => some below
  | false, true => some (below + 1)
  | false, false => none

/-- Drops zeros at the end of a digit string and counts them in the exponent. -/
def dropZeros : Nat → Nat → Int → Nat × Int
  | 0, digits, exponent => (digits, exponent)
  | fuel + 1, digits, exponent =>
    if digits ≠ 0 ∧ digits % 10 = 0 then dropZeros fuel (digits / 10) (exponent + 1)
    else (digits, exponent)

/-- The shortest digits of a positive multiple of the unit with the exponent of the last one. -/
def shortest (units : Nat) : Nat × Int :=
  let lead := leadingExponent units
  match (List.range 17).findSome? fun (n : Nat) =>
      (onGrid? units (lead - n)).map fun digits => (digits, lead - (n : Int)) with
  | some (digits, exponent) => dropZeros 20 digits exponent
  | none => (0, 0)

/-! ## §7 Shortest Texts -/

/-- How a format writes the exponent of a number. -/
structure ExponentStyle where
  /-- Whether an exponent that is not negative has a plus sign. -/
  plus : Bool

/-- Writes digits with a point behind the first `n` of them, `n` from 1 to their number. -/
def withPoint (digits : List Char) (n : Nat) : List Char :=
  digits.take n ++ '.' :: (if n < digits.length then digits.drop n else ['0'])

/-- The text of a positive multiple of the unit.  The point is written in place while the leading
digit has an exponent from -5 to 15; otherwise one digit stands in front of it. -/
def magnitudeText (style : ExponentStyle) (units : Nat) : List Char :=
  let (number, exponent) := shortest units
  let digits := Text.Numeral.ofNat number
  let lead := exponent + (digits.length : Int) - 1
  if 0 ≤ lead ∧ lead < 16 then
    withPoint (digits ++ List.replicate exponent.toNat '0') (lead.toNat + 1)
  else if -5 ≤ lead ∧ lead < 0 then
    "0.".toList ++ List.replicate ((-lead).toNat - 1) '0' ++ digits
  else
    (if digits.length = 1 then digits else withPoint digits 1) ++
      (if style.plus && 0 ≤ lead then "e+".toList else ['e']) ++ Text.Numeral.ofInt lead

/-- The text of a finite number. -/
def finiteText (style : ExponentStyle) (negative : Bool) (units : Nat) : List Char :=
  (if negative then ['-'] else []) ++
    if units = 0 then "0.0".toList else magnitudeText style units

end Decimal

end SpectrumPacking
