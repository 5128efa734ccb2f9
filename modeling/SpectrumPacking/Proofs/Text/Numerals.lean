import SpectrumPacking.Proofs.Text.Words

/-!
# What Numerals Denote

A numeral is a run of digits, perhaps with a sign in front; leading zeros and a plus sign do not
count (`Numeral.Denotes`).  Reading a text as an integer succeeds exactly for the numerals of
integers in range, and yields the integer (`Numeral.intWithin?_eq_some_iff`).  The same holds of
natural numbers, whose numerals have no minus sign (`Numeral.natWithin?_eq_some_iff`).
-/

namespace SpectrumPacking.Text.Numeral

variable {t : List Char} {n bits : Nat} {x : Int}

/-! ## §1 Digits -/

/-- The text consists of digits, and there is one at least. -/
structure IsDigits (t : List Char) : Prop where
  ne_nil : t ≠ []
  isDigit : ∀ c ∈ t, c.isDigit = true

theorem digits?_eq_some_iff : digits? t = some n ↔ IsDigits t ∧ n = Nat.ofDigitChars 10 t 0 := by
  unfold digits?
  split
  · rename_i hempty
    rw [List.isEmpty_iff.1 hempty]
    exact iff_of_false nofun fun h => h.1.ne_nil rfl
  · rename_i hne
    split
    · rename_i hall
      have hdigits : IsDigits t := ⟨by simpa using hne, List.all_eq_true.1 hall⟩
      simp [hdigits, eq_comm]
    · rename_i hall
      exact iff_of_false nofun fun h => hall (List.all_eq_true.2 h.1.isDigit)

/-! ## §2 Signs -/

/-- A text is a numeral of an integer. -/
inductive Denotes : List Char → Int → Prop where
  | plain {ds : List Char} (h : IsDigits ds) : Denotes ds (Nat.ofDigitChars 10 ds 0)
  | plus {ds : List Char} (h : IsDigits ds) : Denotes ('+' :: ds) (Nat.ofDigitChars 10 ds 0)
  | minus {ds : List Char} (h : IsDigits ds) : Denotes ('-' :: ds) (-(Nat.ofDigitChars 10 ds 0))

theorem signed?_plus : signed? ('+' :: t) = (digits? t).map Int.ofNat := by
  show ((digits? t).bind fun n => some (Int.ofNat n)).map id = _
  cases digits? t <;> rfl

theorem signed?_minus : signed? ('-' :: t) = (digits? t).map fun n => -Int.ofNat n := by
  show ((digits? t).bind fun n => some (Int.ofNat n)).map Neg.neg = _
  cases digits? t <;> rfl

theorem signed?_of_ne {c : Char} (hplus : c ≠ '+') (hminus : c ≠ '-') :
    signed? (c :: t) = (digits? (c :: t)).map Int.ofNat := by
  have h : unsigned? (c :: t) = digits? (c :: t) := by
    unfold unsigned?
    split
    · rename_i heq
      exact absurd (List.cons.inj heq).1 hplus
    · rfl
  rw [← h]
  unfold signed?
  split
  · rename_i heq
    exact absurd (List.cons.inj heq).1 hminus
  · cases unsigned? (c :: t) <;> rfl

/-- A text is read as an integer exactly if it is a numeral of it. -/
theorem signed?_eq_some_iff : signed? t = some x ↔ Denotes t x := by
  constructor
  · intro h
    -- behind the sign, if there is one, come digits
    have hread : ∀ {f : Nat → Int} {ds : List Char}, (digits? ds).map f = some x →
        IsDigits ds ∧ x = f (Nat.ofDigitChars 10 ds 0) := by
      intro f ds hmap
      obtain ⟨n, hn, rfl⟩ := Option.map_eq_some_iff.1 hmap
      obtain ⟨hdigits, rfl⟩ := digits?_eq_some_iff.1 hn
      exact ⟨hdigits, rfl⟩
    cases t with
    | nil => cases h
    | cons c ds =>
      by_cases hplus : c = '+'
      · subst hplus
        obtain ⟨hdigits, rfl⟩ := hread (signed?_plus ▸ h)
        exact .plus hdigits
      by_cases hminus : c = '-'
      · subst hminus
        obtain ⟨hdigits, rfl⟩ := hread (signed?_minus ▸ h)
        exact .minus hdigits
      · obtain ⟨hdigits, rfl⟩ := hread (signed?_of_ne hplus hminus ▸ h)
        exact .plain hdigits
  · intro h
    cases h with
    | plain h =>
      obtain ⟨c, r, rfl⟩ := List.exists_cons_of_ne_nil h.ne_nil
      rw [signed?_of_isDigit (h.isDigit c (by simp)), digits?_eq_some_iff.2 ⟨h, rfl⟩]
      rfl
    | plus h =>
      rw [signed?_plus, digits?_eq_some_iff.2 ⟨h, rfl⟩]
      rfl
    | minus h =>
      rw [signed?_minus, digits?_eq_some_iff.2 ⟨h, rfl⟩]
      rfl

/-- A text is a numeral of a natural number. -/
inductive DenotesNat : List Char → Nat → Prop where
  | plain {ds : List Char} (h : IsDigits ds) : DenotesNat ds (Nat.ofDigitChars 10 ds 0)
  | plus {ds : List Char} (h : IsDigits ds) : DenotesNat ('+' :: ds) (Nat.ofDigitChars 10 ds 0)

/-- A text is read as a natural number exactly if it is a numeral of it. -/
theorem unsigned?_eq_some_iff : unsigned? t = some n ↔ DenotesNat t n := by
  refine ⟨fun h => ?_, fun h => ?_⟩
  · unfold unsigned? at h
    split at h
    · obtain ⟨hdigits, rfl⟩ := digits?_eq_some_iff.1 h
      exact .plus hdigits
    · obtain ⟨hdigits, rfl⟩ := digits?_eq_some_iff.1 h
      exact .plain hdigits
  · cases h with
    | plain h =>
      obtain ⟨c, r, rfl⟩ := List.exists_cons_of_ne_nil h.ne_nil
      rw [unsigned?_of_isDigit (h.isDigit c (by simp)), digits?_eq_some_iff.2 ⟨h, rfl⟩]
    | plus h => exact digits?_eq_some_iff.2 ⟨h, rfl⟩

/-- The characters of a numeral are digits and signs. -/
theorem Denotes.sign_or_digit (h : Denotes t x) {c : Char} (hc : c ∈ t) :
    c = '+' ∨ c = '-' ∨ c.isDigit = true := by
  cases h with
  | plain h => simp [h.isDigit c hc]
  | plus h =>
    obtain rfl | hc := List.mem_cons.1 hc
    · simp
    · simp [h.isDigit c hc]
  | minus h =>
    obtain rfl | hc := List.mem_cons.1 hc
    · simp
    · simp [h.isDigit c hc]

theorem Denotes.ne_nil (h : Denotes t x) : t ≠ [] := by
  cases h with
  | plain h => exact h.ne_nil
  | plus h => simp
  | minus h => simp

theorem Denotes.isWord (h : Denotes t x) : IsWord t := by
  refine ⟨h.ne_nil, fun c hc => ?_⟩
  obtain rfl | rfl | hdigit := h.sign_or_digit hc
  · decide
  · decide
  · exact not_isBlank_of_isDigit hdigit

theorem DenotesNat.denotes (h : DenotesNat t n) : Denotes t n := by
  cases h with
  | plain h => exact .plain h
  | plus h => exact .plus h

/-! ## §3 Ranges -/

/-- A text is a numeral of an integer that has a two's-complement representation of `bits` binary
digits. -/
structure DenotesWithin (bits : Nat) (t : List Char) (x : Int) : Prop where
  denotes : Denotes t x
  lower : -(2 ^ (bits - 1)) ≤ x
  upper : x < 2 ^ (bits - 1)

/-- Reading within a range refuses what is no numeral, and the numerals of all other integers. -/
theorem intWithin?_eq_some_iff : intWithin? bits t = some x ↔ DenotesWithin bits t x := by
  rw [intWithin?, Option.filter_eq_some_iff, signed?_eq_some_iff, fitsSigned, Bool.and_eq_true,
    decide_eq_true_iff, decide_eq_true_iff]
  constructor
  · rintro ⟨hx, hlower, hupper⟩
    exact ⟨hx, hlower, hupper⟩
  · intro h
    exact ⟨h.denotes, h.lower, h.upper⟩

theorem intWithin?_eq_none_iff : intWithin? bits t = none ↔ ∀ x, ¬ DenotesWithin bits t x := by
  simp only [Option.eq_none_iff_forall_ne_some, ne_eq, intWithin?_eq_some_iff]

theorem DenotesWithin.fitsSigned (h : DenotesWithin bits t x) : fitsSigned bits x = true :=
  (Option.filter_eq_some_iff.1 (intWithin?_eq_some_iff.2 h)).2

/-- A text is a numeral of a natural number of at most `bits` binary digits. -/
structure DenotesNatWithin (bits : Nat) (t : List Char) (n : Nat) : Prop where
  denotes : DenotesNat t n
  upper : n < 2 ^ bits

theorem natWithin?_eq_some_iff : natWithin? bits t = some n ↔ DenotesNatWithin bits t n := by
  rw [natWithin?, Option.filter_eq_some_iff, unsigned?_eq_some_iff, decide_eq_true_iff]
  exact ⟨fun h => ⟨h.1, h.2⟩, fun h => ⟨h.denotes, h.upper⟩⟩

theorem natWithin?_eq_none_iff : natWithin? bits t = none ↔ ∀ n, ¬ DenotesNatWithin bits t n := by
  simp only [Option.eq_none_iff_forall_ne_some, ne_eq, natWithin?_eq_some_iff]

/-- A written integer denotes itself. -/
theorem denotesWithin_ofInt (hx : fitsSigned bits x = true) : DenotesWithin bits (ofInt x) x :=
  intWithin?_eq_some_iff.1 (intWithin?_ofInt hx)

end SpectrumPacking.Text.Numeral
