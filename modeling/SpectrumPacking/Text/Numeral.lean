/-!
# Decimal Numerals

Numbers as texts in base ten.  A written natural number has no sign and no leading zeros; a
numeral that is read may have both.  The main statements are `unsigned?_ofNat` and
`signed?_ofInt`: what is written reads back.

Powers and lexicographic comparisons are those of the core library everywhere, also in modules that
see further instances for them.
-/

attribute [instance (high), default_instance high] instPowNat

attribute [instance (high)] List.instLE

namespace SpectrumPacking.Text.Numeral

/-! ## §1 Digits -/

/-- The value of a text of ASCII digits; an empty text has none. -/
def digits? (t : List Char) : Option Nat :=
  if t.isEmpty then none
  else if t.all Char.isDigit then some (Nat.ofDigitChars 10 t 0)
  else none

/-- The decimal digits of a natural number. -/
def ofNat (n : Nat) : List Char := Nat.toDigits 10 n

theorem ofNat_ne_nil {n : Nat} : ofNat n ≠ [] := Nat.toDigits_ne_nil

theorem isDigit_of_mem_ofNat {n : Nat} {c : Char} (h : c ∈ ofNat n) : c.isDigit = true :=
  Nat.isDigit_of_mem_toDigits (by decide) (by decide) h

@[simp] theorem digits?_ofNat {n : Nat} : digits? (ofNat n) = some n := by
  have hall : (ofNat n).all Char.isDigit = true :=
    List.all_eq_true.2 fun c hc => isDigit_of_mem_ofNat hc
  have hval : Nat.ofDigitChars 10 (ofNat n) 0 = n :=
    Nat.ofDigitChars_toDigits (by decide) (by decide)
  rw [digits?, if_neg (by simpa using ofNat_ne_nil), if_pos hall, hval]

theorem toList_toString {n : Nat} : (toString n).toList = ofNat n := by
  change (String.ofList (Nat.toDigits 10 n)).toList = Nat.toDigits 10 n
  exact String.toList_ofList

/-! ## §2 Signs -/

/-- Reads a numeral that may start with a plus sign. -/
def unsigned? : List Char → Option Nat
  | '+' :: rest => digits? rest
  | t => digits? t

/-- Reads a numeral that may start with a plus or a minus sign. -/
def signed? : List Char → Option Int
  | '-' :: rest => (digits? rest).map fun n => -(n : Int)
  | t => (unsigned? t).map fun n => (n : Int)

/-- The numeral of an integer; only a negative one has a sign. -/
def ofInt : Int → List Char
  | .ofNat n => ofNat n
  | .negSucc n => '-' :: ofNat (n + 1)

theorem unsigned?_of_isDigit {c : Char} {t : List Char} (h : c.isDigit = true) :
    unsigned? (c :: t) = digits? (c :: t) := by
  have hc : c ≠ '+' := by
    intro hc
    subst hc
    exact absurd h (by decide)
  unfold unsigned?
  split
  · rename_i heq
    simp only [List.cons.injEq] at heq
    exact absurd heq.1 hc
  · rfl

theorem signed?_of_isDigit {c : Char} {t : List Char} (h : c.isDigit = true) :
    signed? (c :: t) = (digits? (c :: t)).map fun n => (n : Int) := by
  have hc : c ≠ '-' := by
    intro hc
    subst hc
    exact absurd h (by decide)
  unfold signed?
  split
  · rename_i heq
    simp only [List.cons.injEq] at heq
    exact absurd heq.1 hc
  · rw [unsigned?_of_isDigit h]

@[simp] theorem unsigned?_ofNat {n : Nat} : unsigned? (ofNat n) = some n := by
  obtain ⟨c, t, ht⟩ := List.exists_cons_of_ne_nil (ofNat_ne_nil (n := n))
  have hc : c.isDigit = true := isDigit_of_mem_ofNat (n := n) (by rw [ht]; simp)
  rw [ht, unsigned?_of_isDigit hc, ← ht, digits?_ofNat]

@[simp] theorem signed?_ofInt {i : Int} : signed? (ofInt i) = some i := by
  cases i with
  | ofNat n =>
    obtain ⟨c, t, ht⟩ := List.exists_cons_of_ne_nil (ofNat_ne_nil (n := n))
    have hc : c.isDigit = true := isDigit_of_mem_ofNat (n := n) (by rw [ht]; simp)
    rw [ofInt, ht, signed?_of_isDigit hc, ← ht, digits?_ofNat]
    rfl
  | negSucc n =>
    rw [ofInt, signed?, digits?_ofNat]
    rfl

theorem toList_toString_int {i : Int} : (toString i).toList = ofInt i := by
  cases i with
  | ofNat n => exact toList_toString (n := n)
  | negSucc n =>
    change ("-" ++ toString (n + 1)).toList = _
    rw [String.toList_append, toList_toString]
    rfl

/-! ## §3 Ranges -/

/-- Reads an unsigned numeral of at most `bits` binary digits. -/
def natWithin? (bits : Nat) (t : List Char) : Option Nat :=
  (unsigned? t).filter fun n => n < 2 ^ bits

/-- Whether an integer has a two's-complement representation of `bits` binary digits. -/
def fitsSigned (bits : Nat) (i : Int) : Bool :=
  -(2 ^ (bits - 1) : Int) ≤ i && i < 2 ^ (bits - 1)

/-- Reads a signed numeral of a number with a representation of `bits` binary digits. -/
def intWithin? (bits : Nat) (t : List Char) : Option Int :=
  (signed? t).filter (fitsSigned bits)

theorem natWithin?_ofNat {bits n : Nat} (h : n < 2 ^ bits) :
    natWithin? bits (ofNat n) = some n := by
  rw [natWithin?, unsigned?_ofNat, Option.filter_some, if_pos (by simpa using h)]

theorem intWithin?_ofInt {bits : Nat} {i : Int} (h : fitsSigned bits i = true) :
    intWithin? bits (ofInt i) = some i := by
  rw [intWithin?, signed?_ofInt, Option.filter_some, if_pos h]

example : natWithin? 32 "+007".toList = some 7 ∧ natWithin? 32 "-0".toList = none ∧
    natWithin? 32 "4294967296".toList = none ∧ natWithin? 32 "+".toList = none := by decide

example : intWithin? 32 "-2147483648".toList = some (-2147483648) ∧
    intWithin? 32 "2147483648".toList = none ∧ intWithin? 32 "-+1".toList = none := by decide

end SpectrumPacking.Text.Numeral
