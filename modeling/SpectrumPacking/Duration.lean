import SpectrumPacking.Decimal

/-!
# Durations

Spans of time in whole nanoseconds.  A duration that is kept or shown has less than `2 ^ 64`
seconds; sums that leave this range are found out where they are formed.
-/

namespace SpectrumPacking

/-- A span of time. -/
structure Duration where
  /-- The number of nanoseconds. -/
  nanos : Nat
  deriving DecidableEq, Repr, Inhabited

namespace Duration

/-- The nanoseconds of a second. -/
def perSecond : Nat := 1000000000

/-- No time at all. -/
def zero : Duration := ⟨0⟩

/-- The greatest duration that can be kept. -/
def greatest : Duration := ⟨2 ^ 64 * perSecond - 1⟩

/-- A duration of whole seconds and further nanoseconds. -/
def ofParts (seconds nanos : Nat) : Duration := ⟨seconds * perSecond + nanos⟩

/-- A duration of whole milliseconds. -/
def ofMillis (n : Nat) : Duration := ⟨n * 1000000⟩

/-- The whole seconds of a duration. -/
def seconds (d : Duration) : Nat := d.nanos / perSecond

/-- The nanoseconds behind the whole seconds. -/
def subsecond (d : Duration) : Nat := d.nanos % perSecond

instance : Add Duration := ⟨fun a b => ⟨a.nanos + b.nanos⟩⟩
instance : Sub Duration := ⟨fun a b => ⟨a.nanos - b.nanos⟩⟩
instance : LE Duration := ⟨fun a b => a.nanos ≤ b.nanos⟩
instance : LT Duration := ⟨fun a b => a.nanos < b.nanos⟩
instance (a b : Duration) : Decidable (a ≤ b) := inferInstanceAs (Decidable (a.nanos ≤ b.nanos))
instance (a b : Duration) : Decidable (a < b) := inferInstanceAs (Decidable (a.nanos < b.nanos))

/-- The longer of two durations. -/
def max (a b : Duration) : Duration := if a ≤ b then b else a

/-- The shorter of two durations. -/
def min (a b : Duration) : Duration := if a ≤ b then a else b

/-- A duration in seconds.  The whole seconds and the fraction are rounded, and then their sum. -/
def toBinary64 (d : Duration) : Binary64 :=
  (Binary64.ofNat d.seconds).add
    ((Binary64.ofNat d.subsecond).div (Binary64.ofNat perSecond))

/-- The duration of a number of seconds, rounded to the nearest nanosecond with ties to the even
one.  Negative numbers, and `2 ^ 64` seconds or more, are no duration. -/
def ofBinary64? : Binary64 → Option Duration
  | .finite negative units =>
    if negative ∧ units ≠ 0 then none
    else
      let d : Duration := ⟨roundDiv (units * perSecond) Binary64.unitsOfOne⟩
      if d ≤ greatest then some d else none
  | _ => none

/-- Writes a count of `unit` parts with the decimal fraction of a rest below one part. -/
def fractionText (whole rest unit : Nat) : List Char :=
  let digits := (Text.Numeral.ofNat (unit + rest)).drop 1
  let shown := (digits.reverse.dropWhile (· == '0')).reverse
  Text.Numeral.ofNat whole ++ if shown.isEmpty then [] else '.' :: shown

/-- A duration in the largest unit that it fills, without zeros at the end. -/
def text (d : Duration) : String :=
  let n := d.nanos
  if perSecond ≤ n then
    String.ofList (fractionText (n / perSecond) (n % perSecond) perSecond) ++ "s"
  else if 1000000 ≤ n then
    String.ofList (fractionText (n / 1000000) (n % 1000000) 1000000) ++ "ms"
  else if 1000 ≤ n then String.ofList (fractionText (n / 1000) (n % 1000) 1000) ++ "µs"
  else toString n ++ "ns"

@[simp] theorem nanos_add {a b : Duration} : (a + b).nanos = a.nanos + b.nanos := rfl

theorem le_def {a b : Duration} : a ≤ b ↔ a.nanos ≤ b.nanos := Iff.rfl

theorem nanos_max {a b : Duration} : (a.max b).nanos = Nat.max a.nanos b.nanos := by
  unfold max
  split
  · rename_i h
    exact (Nat.max_eq_right h).symm
  · rename_i h
    exact (Nat.max_eq_left (Nat.le_of_not_le h)).symm

end Duration

end SpectrumPacking
