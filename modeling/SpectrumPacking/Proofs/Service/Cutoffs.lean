import Mathlib.Data.Nat.Cast.Order.Field
import Mathlib.Tactic.FieldSimp
import Mathlib.Tactic.Linarith
import Mathlib.Tactic.Ring
import SpectrumPacking.Proofs.Service.Histories
import SpectrumPacking.Proofs.Solve.Limits

/-!
# Time Limits in Seconds

Settings limit a search to a number of seconds, and they are valid if this number is finite and
greater than zero.  A search is limited to a whole number of nanoseconds.  The two differ at both
ends of the range: half a nanosecond or less is rounded to none at all, and so many seconds that
they are no duration are taken for none.  With such a limit a question is refused, although the
settings are valid; with any other, it is not (`Settings.limits_of_validate`).
-/

namespace SpectrumPacking

/-! ## §1 Rounding to the Nearest Number -/

/-- A natural number to which a rational number is rounded: it is at most half a unit off, and if it
is just half a unit off, it is even. -/
structure IsRounded (q : ℚ) (n : ℕ) : Prop where
  near : |q - n| ≤ 1 / 2
  even_of_tie : |q - n| = 1 / 2 → Even n

namespace IsRounded

variable {q : ℚ} {m n : ℕ}

theorem sub_le (h : IsRounded q n) : q - n ≤ 1 / 2 := (abs_le.1 h.near).2

theorem le_sub (h : IsRounded q n) : -(1 / 2) ≤ q - n := (abs_le.1 h.near).1

/-- An even number gets the tie above it. -/
theorem le_iff_of_even (h : IsRounded q n) (hm : Even m) : n ≤ m ↔ q ≤ m + 1 / 2 := by
  constructor
  · intro hle
    have hle : (n : ℚ) ≤ m := Nat.cast_le.2 hle
    linarith [h.sub_le]
  · intro hq
    by_contra hlt
    have hsucc : ((m + 1 : ℕ) : ℚ) ≤ n := Nat.cast_le.2 (Nat.lt_of_not_le hlt)
    push_cast at hsucc
    -- above `m` only the tie is left, and a tie goes to the even neighbour
    have htie : q - n = -(1 / 2) := by linarith [h.le_sub]
    have hn : n = m + 1 := by
      have : (n : ℚ) = (m + 1 : ℕ) := by
        push_cast
        linarith
      exact Nat.cast_injective this
    have heven : Even n := h.even_of_tie (by rw [htie, abs_neg, abs_of_pos one_half_pos])
    rw [hn] at heven
    exact Nat.even_add_one.1 heven hm

/-- An odd number does not get the tie above it. -/
theorem le_iff_of_odd (h : IsRounded q n) (hm : Odd m) : n ≤ m ↔ q < m + 1 / 2 := by
  constructor
  · intro hle
    have hle' : (n : ℚ) ≤ m := Nat.cast_le.2 hle
    refine lt_of_le_of_ne (by linarith [h.sub_le]) fun hq => ?_
    have hn : n = m := by
      have : (n : ℚ) = m := by linarith [h.sub_le]
      exact Nat.cast_injective this
    -- a tie at `m` would make `m` even
    have heven : Even n := by
      apply h.even_of_tie
      rw [hq, hn, add_sub_cancel_left, abs_of_pos one_half_pos]
    rw [hn] at heven
    exact Nat.not_even_iff_odd.2 hm heven
  · intro hq
    have hlt : (n : ℚ) < (m + 1 : ℕ) := by
      push_cast
      linarith [h.le_sub]
    exact Nat.le_of_lt_succ (Nat.cast_lt.1 hlt)

end IsRounded

/-- A remainder is half of what is divided by if the quotient is just half a unit off. -/
theorem two_mul_mod_of_tie {num den k : ℕ} (hden : 0 < den) (h : 2 * num = (2 * k + 1) * den) :
    2 * (num % den) = den := by
  have hk : (2 * k + 1) * den = 2 * (k * den) + den := by ring
  have hnum : num = num - k * den + k * den := by omega
  have hmod : num % den = num - k * den := by
    rw [hnum, Nat.add_mul_mod_self_right, Nat.mod_eq_of_lt (by omega), Nat.add_sub_cancel]
  omega

section Quotients

variable {num den : ℕ}

theorem div_sub_natCast (hden : 0 < den) (n : ℕ) :
    (num : ℚ) / den - n = (num - n * den) / den := by
  have hden : (0 : ℚ) < den := Nat.cast_pos.2 hden
  field_simp

theorem near_roundDiv (hden : 0 < den) : |(num : ℚ) / den - roundDiv num den| ≤ 1 / 2 := by
  have hden' : (0 : ℚ) < den := Nat.cast_pos.2 hden
  obtain ⟨hlow, hhigh⟩ := @roundDiv_near num den hden
  have hlow : (2 * num : ℚ) ≤ 2 * (roundDiv num den * den) + den := by exact_mod_cast hlow
  have hhigh : 2 * (roundDiv num den * den) ≤ (2 * num : ℚ) + den := by exact_mod_cast hhigh
  rw [div_sub_natCast hden, abs_le, le_div_iff₀ hden', div_le_iff₀ hden']
  constructor <;> linarith

/-- A number that is just half a unit off belongs to a tie between itself and a neighbour. -/
theorem even_roundDiv (hden : 0 < den) (h : |(num : ℚ) / den - roundDiv num den| = 1 / 2) :
    Even (roundDiv num den) := by
  have hden' : (den : ℚ) ≠ 0 := Nat.cast_ne_zero.2 hden.ne'
  suffices htie : 2 * (num % den) = den from Nat.even_iff.2 (roundDiv_tie htie)
  generalize roundDiv num den = n at h
  -- the number is below the quotient, or above it
  obtain habove | hbelow := (abs_eq one_half_pos.le).1 h
  · rw [div_sub_natCast hden, div_eq_iff hden'] at habove
    refine two_mul_mod_of_tie (k := n) hden ?_
    have : (2 * num : ℚ) = (2 * n + 1) * den := by linarith
    exact_mod_cast this
  · rw [div_sub_natCast hden, div_eq_iff hden'] at hbelow
    have hsum : 2 * num + den = 2 * n * den := by
      have : (2 * num + den : ℚ) = 2 * n * den := by linarith
      exact_mod_cast this
    cases n with
    | zero => omega
    | succ k =>
      refine two_mul_mod_of_tie (k := k) hden ?_
      have : 2 * (k + 1) * den = (2 * k + 1) * den + den := by ring
      omega

theorem isRounded_roundDiv (hden : 0 < den) : IsRounded ((num : ℚ) / den) (roundDiv num den) :=
  ⟨near_roundDiv hden, even_roundDiv hden⟩

end Quotients

/-! ## §2 Durations of Numbers of Seconds -/

/-- The exact value of a number that is finite. -/
def Binary64.value? : Binary64 → Option ℚ
  | finite negative units => some ((if negative then -1 else 1) * (units / unitsOfOne))
  | _ => none

namespace Binary64

variable {units : ℕ}

theorem unitsOfOne_pos : 0 < unitsOfOne := by
  unfold unitsOfOne
  exact Nat.two_pow_pos 1074

theorem value?_finite_false : (finite false units).value? = some ((units : ℚ) / unitsOfOne) := by
  rw [value?, if_neg Bool.false_ne_true, one_mul]

theorem value?_finite_true : (finite true units).value? = some (-((units : ℚ) / unitsOfOne)) := by
  rw [value?, if_pos rfl, neg_one_mul]

/-- A number is positive if it has a value and this is greater than zero. -/
theorem isPositive_iff {x : Binary64} :
    x.isPositive = true ↔ ∃ v, x.value? = some v ∧ 0 < v := by
  have hone : (0 : ℚ) < unitsOfOne := Nat.cast_pos.2 unitsOfOne_pos
  cases x with
  | nan => exact ⟨nofun, nofun⟩
  | infinity negative => exact ⟨nofun, nofun⟩
  | finite negative units =>
    cases negative with
    | false =>
      rw [isPositive, decide_eq_true_iff]
      constructor
      · intro h
        exact ⟨_, value?_finite_false, div_pos (Nat.cast_pos.2 h) hone⟩
      · rintro ⟨v, hv, hpos⟩
        rw [value?_finite_false, Option.some.injEq] at hv
        rw [← hv, div_pos_iff_of_pos_right hone] at hpos
        exact Nat.cast_pos.1 hpos
    -- a number with a minus sign is not greater than zero, not even as zero
    | true =>
      constructor
      · nofun
      · rintro ⟨v, hv, hpos⟩
        rw [value?_finite_true, Option.some.injEq] at hv
        have hvalue : (0 : ℚ) ≤ units / unitsOfOne := div_nonneg (Nat.cast_nonneg units) hone.le
        linarith

end Binary64

namespace Duration

variable {seconds : ℚ} {d : Duration}

/-- The duration of a positive number of seconds has the nanoseconds that this is rounded to, if
such a duration can be kept. -/
theorem exists_ofBinary64? {x : Binary64} (hx : x.value? = some seconds) (hpos : 0 < seconds) :
    ∃ d : Duration, IsRounded (seconds * perSecond) d.nanos ∧
      ofBinary64? x = if d ≤ greatest then some d else none := by
  cases x with
  | nan => cases hx
  | infinity negative => cases hx
  | finite negative units =>
    cases negative with
    | true =>
      obtain ⟨v, hv⟩ := Binary64.isPositive_iff.2 ⟨_, hx, hpos⟩
    | false =>
      rw [Binary64.value?_finite_false, Option.some.injEq] at hx
      refine ⟨⟨roundDiv (units * perSecond) Binary64.unitsOfOne⟩, ?_, ?_⟩
      · dsimp only
        rw [← hx, div_mul_eq_mul_div, ← Nat.cast_mul]
        exact isRounded_roundDiv Binary64.unitsOfOne_pos
      · simp only [ofBinary64?, Bool.false_eq_true, false_and, if_false]

/-- A number of seconds is rounded to one nanosecond at least, and to less than `2 ^ 64` seconds. -/
structure InRange (seconds : ℚ) : Prop where
  some_time : 1 / 2 < seconds * perSecond
  bounded : seconds * perSecond < 2 ^ 64 * perSecond - 1 / 2

theorem eq_zero_iff_of_isRounded (h : IsRounded (seconds * perSecond) d.nanos) :
    d = zero ↔ seconds * perSecond ≤ 1 / 2 := by
  rw [eq_zero_iff, ← Nat.le_zero, h.le_iff_of_even Even.zero, Nat.cast_zero, zero_add]

theorem le_greatest_iff_of_isRounded (h : IsRounded (seconds * perSecond) d.nanos) :
    d ≤ greatest ↔ seconds * perSecond < 2 ^ 64 * perSecond - 1 / 2 := by
  have hodd : Odd greatest.nanos := by decide +kernel
  have hsucc : (greatest.nanos : ℚ) + 1 = 2 ^ 64 * perSecond := by
    have : greatest.nanos + 1 = 2 ^ 64 * perSecond := by decide +kernel
    exact_mod_cast this
  have hend : (greatest.nanos : ℚ) + 1 / 2 = 2 ^ 64 * perSecond - 1 / 2 := by linarith
  rw [le_def, h.le_iff_of_odd hodd, hend]

end Duration

namespace Settings

variable {s : Settings} {seconds : ℚ}

theorem exists_cutoff (hs : s.cutoffSeconds.value? = some seconds) (hpos : 0 < seconds) :
    ∃ d : Duration, IsRounded (seconds * Duration.perSecond) d.nanos ∧
      s.cutoff = if d ≤ .greatest then d else .zero := by
  obtain ⟨d, hd, heq⟩ := Duration.exists_ofBinary64? hs hpos
  refine ⟨d, hd, ?_⟩
  rw [cutoff, heq]
  split <;> rfl

/-- The time limit is some time exactly if its seconds are in the range. -/
theorem cutoff_ne_zero_iff (hs : s.cutoffSeconds.value? = some seconds) (hpos : 0 < seconds) :
    s.cutoff ≠ .zero ↔ Duration.InRange seconds := by
  obtain ⟨d, hd, heq⟩ := exists_cutoff hs hpos
  have hzero := Duration.eq_zero_iff_of_isRounded hd
  have hgreatest := Duration.le_greatest_iff_of_isRounded hd
  rw [heq]
  split
  · rename_i hle
    rw [ne_eq, hzero, not_le]
    exact ⟨fun hsome => ⟨hsome, hgreatest.1 hle⟩, Duration.InRange.some_time⟩
  · rename_i hgt
    exact ⟨fun hne => absurd rfl hne, fun h => absurd (hgreatest.2 h.bounded) hgt⟩

theorem isRounded_cutoff (hs : s.cutoffSeconds.value? = some seconds) (hpos : 0 < seconds)
    (h : Duration.InRange seconds) : IsRounded (seconds * Duration.perSecond) s.cutoff.nanos := by
  obtain ⟨d, hd, heq⟩ := exists_cutoff hs hpos
  rw [if_pos ((Duration.le_greatest_iff_of_isRounded hd).2 h.bounded)] at heq
  rw [heq]
  exact hd

theorem isPositive_of_validate (h : s.validate = .ok ()) : s.cutoffSeconds.isPositive = true := by
  by_contra hneg
  rw [validate, fault?, if_pos (by simpa using hneg)] at h
  cases h

end Settings

/-! ## §3 Refusals -/

namespace Request

variable {σ : Type} [Timed σ] {source : BundleSource (StateM σ) (Bundle σ)}
  {g : Manager (Bundle σ)} {r : Request}

/-- A request without time is refused before its bundle is asked for. -/
theorem answer_of_cutoff_eq_zero (hstations : r.stations.isEmpty = false)
    (hcutoff : r.cutoff = .zero) :
    r.answer source g = pure (.error (.invalidCutoff .zero), g) := by
  rw [answer, if_neg (by simp [hstations])]
  dsimp only
  rw [if_pos hcutoff, hcutoff]

/-- A request with some time is not refused for its limit, whatever else becomes of it. -/
theorem answer_of_cutoff_ne_zero (hcutoff : r.cutoff ≠ .zero) (limit : Duration) :
    Triple (fun _ => True) (r.answer source g) fun a _ => a.1 ≠ .error (.invalidCutoff limit) := by
  -- neither the bundle nor the solver can give this fault
  have hany {α : Type} (program : StateM σ α) : Triple (fun _ => True) program fun _ _ => True :=
    fun _ _ => trivial
  rw [answer]
  split
  · exact .pure fun _ _ => nofun
  · -- the limit is not zero, and so the bundle is asked for
    refine (hany _).bind fun got => ?_
    split
    split
    · exact .pure fun _ _ => nofun
    · split
      · exact .pure fun _ _ => nofun
      · exact (hany _).bind fun _ => .pure fun _ _ => nofun

end Request

namespace Settings

/-- What becomes of a time limit of some seconds, and of the questions that are asked with it, in a
world of type `σ`. -/
inductive Limits (σ : Type) [Timed σ] (s : Settings) (seconds : ℚ) : Prop where
  /-- The limit is the nearest one in nanoseconds, and no question is refused for it. -/
  | usable (hrange : Duration.InRange seconds) (htime : s.cutoff ≠ .zero)
      (hnearest : IsRounded (seconds * Duration.perSecond) s.cutoff.nanos)
      (haccepted : ∀ (source : BundleSource (StateM σ) (Bundle σ)) g q seed world limit,
        ((Request.ofQuestion q s.cutoff seed).answer source g world).1.1 ≠
          .error (.invalidCutoff limit)) : Limits σ s seconds
  /-- The limit is zero, and every question about stations is refused for it. -/
  | unusable (hrange : ¬ Duration.InRange seconds) (htime : s.cutoff = .zero)
      (hrefused : ∀ (source : BundleSource (StateM σ) (Bundle σ)) g (q : Question) seed world,
        q.stations.isEmpty = false →
        (Request.ofQuestion q s.cutoff seed).answer source g world =
          ((.error (.invalidCutoff .zero), g), world)) : Limits σ s seconds

/-- Valid settings have a positive number of seconds.  It makes a usable time limit if it is in the
range of durations; if it is not, the settings are valid and every question is refused. -/
theorem limits_of_validate {σ : Type} [Timed σ] {s : Settings} (h : s.validate = .ok ()) :
    ∃ seconds, s.cutoffSeconds.value? = some seconds ∧ 0 < seconds ∧ s.Limits σ seconds := by
  obtain ⟨seconds, hs, hpos⟩ := Binary64.isPositive_iff.1 (isPositive_of_validate h)
  refine ⟨seconds, hs, hpos, ?_⟩
  by_cases hrange : Duration.InRange seconds
  · have htime : s.cutoff ≠ .zero := (cutoff_ne_zero_iff hs hpos).2 hrange
    refine .usable hrange htime (isRounded_cutoff hs hpos hrange) ?_
    intro source g q seed world limit
    exact Request.answer_of_cutoff_ne_zero (r := .ofQuestion q s.cutoff seed) htime limit world
      trivial
  · have htime : s.cutoff = .zero := not_not.1 (mt (cutoff_ne_zero_iff hs hpos).1 hrange)
    refine .unusable hrange htime ?_
    intro source g q seed world hstations
    rw [Request.answer_of_cutoff_eq_zero (r := .ofQuestion q s.cutoff seed) hstations htime]
    rfl

theorem limits_of_validate_standard :
    ({} : Settings).validate = .ok () ∧ ({} : Settings).cutoff = .ofParts 60 0 ∧
      ∃ seconds, ({} : Settings).cutoffSeconds.value? = some seconds ∧ 0 < seconds ∧
        ({} : Settings).Limits (World CompleteEngine) seconds := by
  have h : ({} : Settings).validate = .ok () := by decide +kernel
  exact ⟨h, by decide +kernel, limits_of_validate h⟩

/-- The settings with a tenth of a nanosecond, and those with `10 ^ 20` seconds, are valid, and a
question about a station is refused under either of them. -/
theorem refused_of_validate :
    let load : String → StateM (World CompleteEngine) (Except DataError Dataset) :=
      fun _ => pure (.ok .single)
    let q : Question := ⟨"single", .uhf, none, SortedSet.ofList [1], SortedMap.empty⟩
    let outcome (s : Settings) : Except RequestError Verdict :=
      ((Request.ofQuestion q s.cutoff s.seed).answer (s.bundleSource load) .empty {}).1.1.map
        Outcome.verdict
    let brief : Settings := { cutoffSeconds := .ofDecimal false 1 (-10) }
    let vast : Settings := { cutoffSeconds := .ofDecimal false 1 20 }
    (brief.validate = .ok () ∧ brief.cutoff = .zero ∧
        outcome brief = .error (.invalidCutoff .zero)) ∧
      (vast.validate = .ok () ∧ vast.cutoff = .zero ∧
        outcome vast = .error (.invalidCutoff .zero)) := by
  decide +kernel

end Settings

end SpectrumPacking
