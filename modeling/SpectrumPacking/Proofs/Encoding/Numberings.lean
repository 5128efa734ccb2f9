import Mathlib.Data.Set.Function
import SpectrumPacking.Encoding.Encode

/-!
# When a Numbering Is Faithful

As long as there are fewer than `2 ^ 31` pairs of a station and a channel, the numbering matches the
pairs with the variables from 1 on: every pair has a variable (`exists_literal`), no two pairs share
one (`literal?_inj`), and none is left out (`exists_pair`).

Pairs are numbered row by row, so that the numbers follow the lexicographic order of the pairs
(`Numbering.number_lt_iff`).  What a variable means is found by division
(`Numbering.meaning?_eq_some_iff`), whatever the size of the numbering; only the variables
themselves are kept in 32 bits.

The main statement is `Numbering.isFaithful_iff_fits`: with fewer than `2 ^ 31` pairs, variables and
pairs correspond, and with more of them some pair has no variable of its own.
-/

namespace SpectrumPacking

/-! ## §1 Variables -/

/-- The position of a member of a set, which it holds only once. -/
theorem SortedSet.idxOf?_toList_iff {α : Type} [DecidableEq α] [LE α] [LT α]
    [Std.LawfulOrderLT α] {s : SortedSet α} {a : α} {i : Nat} :
    s.toList.idxOf? a = some i ↔ s.toList[i]? = some a := by
  rw [List.idxOf?_eq_some_iff, List.getElem?_eq_some_iff]
  constructor
  · rintro ⟨hi, ha, -⟩
    exact ⟨hi, ha⟩
  · rintro ⟨hi, ha⟩
    refine ⟨hi, ha, ?_⟩
    intro j hj hja
    have : s.toList[j]? = s.toList[i]? := by
      rw [List.getElem?_eq_getElem (by omega), List.getElem?_eq_getElem hi, hja, ha]
    have := (List.getElem?_inj (by omega) s.nodup_toList).1 this
    omega

/-- The members of a set stand in increasing order. -/
theorem SortedSet.lt_iff_of_getElem? {α : Type} [LE α] [LT α] [Std.IsLinearOrder α]
    [Std.LawfulOrderLT α] {s : SortedSet α} {a b : α} {i j : Nat} (ha : s.toList[i]? = some a)
    (hb : s.toList[j]? = some b) : i < j ↔ a < b := by
  obtain ⟨hi, rfl⟩ := List.getElem?_eq_some_iff.1 ha
  obtain ⟨hj, rfl⟩ := List.getElem?_eq_some_iff.1 hb
  have hincreasing := List.pairwise_iff_getElem.1 s.increasing
  constructor
  · exact hincreasing i j hi hj
  · intro hlt
    rcases Nat.lt_trichotomy i j with h | rfl | h
    · exact h
    · exact absurd hlt Std.lt_irrefl
    · exact absurd (Std.lt_trans hlt (hincreasing j i hj hi h)) Std.lt_irrefl

namespace Numbering

/-- Every variable fits into 32 bits. -/
def Fits (n : Numbering) : Prop := n.size < 2 ^ 31

instance {n : Numbering} : Decidable n.Fits := inferInstanceAs (Decidable (_ < _))

variable {n : Numbering} {s t : StationId} {c d : Channel}

theorem stationRank?_eq_some_iff {row : Nat} :
    n.stationRank? s = some row ↔ n.stations.toList[row]? = some s :=
  SortedSet.idxOf?_toList_iff

theorem channelRank?_eq_some_iff {column : Nat} :
    n.channelRank? c = some column ↔ n.channels.toList[column]? = some c :=
  SortedSet.idxOf?_toList_iff

/-- The number in a row and a column of a table lies within the table. -/
theorem number_le_size {row column : Nat} (hrow : row < n.stations.size)
    (hcolumn : column < n.numChannels) : row * n.numChannels + column + 1 ≤ n.size :=
  calc row * n.numChannels + column + 1
      ≤ row * n.numChannels + n.numChannels := by omega
    _ = (row + 1) * n.numChannels := by rw [Nat.add_mul, Nat.one_mul]
    _ ≤ n.stations.size * n.numChannels := Nat.mul_le_mul_right _ hrow

/-- Rows and columns are found again in the numbers of their table. -/
theorem number_inj {row row' column column' : Nat} (hcolumn : column < n.numChannels)
    (hcolumn' : column' < n.numChannels)
    (h : row * n.numChannels + column + 1 = row' * n.numChannels + column' + 1) :
    row = row' ∧ column = column' := by
  have hpos : 0 < n.numChannels := by omega
  have h : column + row * n.numChannels = column' + row' * n.numChannels := by omega
  have hrow := congrArg (· / n.numChannels) h
  have hcol := congrArg (· % n.numChannels) h
  simp only [Nat.add_mul_div_right _ _ hpos, Nat.add_mul_mod_self_right,
    Nat.div_eq_of_lt hcolumn, Nat.div_eq_of_lt hcolumn', Nat.mod_eq_of_lt hcolumn,
    Nat.mod_eq_of_lt hcolumn', Nat.zero_add] at hrow hcol
  exact ⟨hrow, hcol⟩

/-- No number of the table is changed by keeping it in 32 bits. -/
theorem variableAt_eq (hn : n.Fits) {row column : Nat} (hrow : row < n.stations.size)
    (hcolumn : column < n.numChannels) :
    n.variableAt row column = ((row * n.numChannels + column + 1 : Nat) : Literal) := by
  have hsize := number_le_size hrow hcolumn
  have hn : n.size < 2 ^ 31 := hn
  exact Int.bmod_eq_of_le (by omega) (by omega)

theorem literal?_eq_some_iff (hn : n.Fits) {x : Literal} :
    n.literal? s c = some x ↔
      ∃ row column : Nat, n.stations.toList[row]? = some s ∧ n.channels.toList[column]? = some c ∧
        x = ((row * n.numChannels + column + 1 : Nat) : Literal) := by
  -- while the pairs fit, nothing wraps around
  have hvariable : ∀ {row column : Nat}, n.stations.toList[row]? = some s →
      n.channels.toList[column]? = some c →
      n.variableAt row column = ((row * n.numChannels + column + 1 : Nat) : Literal) := by
    intro row column hrow hcolumn
    exact variableAt_eq hn (List.getElem?_eq_some_iff.1 hrow).1
      (List.getElem?_eq_some_iff.1 hcolumn).1
  rw [literal?]
  constructor
  · intro h
    split at h
    · rename_i row column hrow hcolumn
      rw [stationRank?_eq_some_iff] at hrow
      rw [channelRank?_eq_some_iff] at hcolumn
      exact ⟨row, column, hrow, hcolumn,
        (Option.some.inj h).symm.trans (hvariable hrow hcolumn)⟩
    · cases h
  · rintro ⟨row, column, hrow, hcolumn, rfl⟩
    rw [stationRank?_eq_some_iff.2 hrow, channelRank?_eq_some_iff.2 hcolumn,
      ← hvariable hrow hcolumn]

/-- Pairs are numbered from 1 to the number of pairs. -/
theorem literal?_range (hn : n.Fits) {x : Literal} (h : n.literal? s c = some x) :
    ∃ k : Nat, x = k ∧ 1 ≤ k ∧ k ≤ n.size := by
  obtain ⟨row, column, hrow, hcolumn, rfl⟩ := (literal?_eq_some_iff hn).1 h
  refine ⟨_, rfl, by omega, number_le_size ?_ ?_⟩
  · exact (List.getElem?_eq_some_iff.1 hrow).1
  · exact (List.getElem?_eq_some_iff.1 hcolumn).1

/-- Only stations and channels of the numbering have variables. -/
theorem mem_of_literal? {x : Literal} (h : n.literal? s c = some x) :
    s ∈ n.stations ∧ c ∈ n.channels := by
  rw [literal?] at h
  split at h
  · rename_i row column hrow hcolumn
    exact ⟨List.mem_of_getElem? (stationRank?_eq_some_iff.1 hrow),
      List.mem_of_getElem? (channelRank?_eq_some_iff.1 hcolumn)⟩
  · cases h

theorem exists_literal (hn : n.Fits) (hs : s ∈ n.stations) (hc : c ∈ n.channels) :
    ∃ k : Nat, n.literal? s c = some (k : Literal) := by
  obtain ⟨row, hrow⟩ := List.getElem?_of_mem hs
  obtain ⟨column, hcolumn⟩ := List.getElem?_of_mem hc
  exact ⟨_, (literal?_eq_some_iff hn).2 ⟨row, column, hrow, hcolumn, rfl⟩⟩

theorem literal?_inj (hn : n.Fits) {x : Literal} (h : n.literal? s c = some x)
    (h' : n.literal? t d = some x) : s = t ∧ c = d := by
  obtain ⟨row, column, hrow, hcolumn, rfl⟩ := (literal?_eq_some_iff hn).1 h
  obtain ⟨row', column', hrow', hcolumn', hnumber⟩ := (literal?_eq_some_iff hn).1 h'
  obtain ⟨rfl, rfl⟩ := number_inj (List.getElem?_eq_some_iff.1 hcolumn).1
    (List.getElem?_eq_some_iff.1 hcolumn').1 (by exact_mod_cast hnumber)
  rw [hrow] at hrow'
  rw [hcolumn] at hcolumn'
  cases hrow'
  cases hcolumn'
  exact ⟨rfl, rfl⟩

/-- The row and the column of a number are those of a pair. -/
theorem row_column_lt {k : Nat} (h : 1 ≤ k) (hk : k ≤ n.size) :
    0 < n.numChannels ∧ (k - 1) / n.numChannels < n.stations.size ∧
      (k - 1) % n.numChannels < n.channels.size := by
  have hpos : 0 < n.numChannels := by
    apply Nat.pos_of_ne_zero
    intro hzero
    have : n.size = n.stations.size * n.numChannels := rfl
    rw [hzero] at this
    omega
  refine ⟨hpos, ?_, Nat.mod_lt _ hpos⟩
  rw [Nat.div_lt_iff_lt_mul hpos]
  exact (by omega : k - 1 < n.size)

theorem exists_pair (hn : n.Fits) {k : Nat} (h : 1 ≤ k) (hk : k ≤ n.size) :
    ∃ s c, n.literal? s c = some (k : Literal) := by
  obtain ⟨-, hrow, hcolumn⟩ := row_column_lt h hk
  refine ⟨n.stations.toList[(k - 1) / n.numChannels], n.channels.toList[(k - 1) % n.numChannels],
    (literal?_eq_some_iff hn).2 ⟨_, _, List.getElem?_eq_getElem hrow,
      List.getElem?_eq_getElem hcolumn, ?_⟩⟩
  rw [Nat.div_add_mod' (k - 1) n.numChannels, Nat.sub_add_cancel h]

end Numbering

namespace Numbering

variable {n : Numbering} {s t : StationId} {c d : Channel} {x y : Literal}

/-! ## §2 Numbers and Their Order -/

/-- Numbers are compared by rows first. -/
theorem number_lt_iff {row row' column column' : Nat} (hcolumn : column < n.numChannels)
    (hcolumn' : column' < n.numChannels) :
    row * n.numChannels + column + 1 < row' * n.numChannels + column' + 1 ↔
      row < row' ∨ row = row' ∧ column < column' := by
  -- a whole row lies between numbers in different rows
  have hbelow : ∀ {i j : Nat}, i < j → i * n.numChannels + n.numChannels ≤ j * n.numChannels := by
    intro i j h
    rw [← Nat.succ_mul]
    exact Nat.mul_le_mul_right _ h
  rcases Nat.lt_trichotomy row row' with h | rfl | h
  · have := hbelow h
    omega
  · omega
  · have := hbelow h
    omega

/-- Variables follow the lexicographic order of pairs. -/
theorem lt_iff_of_literal? (hn : n.Fits) (hx : n.literal? s c = some x)
    (hy : n.literal? t d = some y) : x < y ↔ s < t ∨ s = t ∧ c < d := by
  obtain ⟨row, column, hrow, hcolumn, rfl⟩ := (literal?_eq_some_iff hn).1 hx
  obtain ⟨row', column', hrow', hcolumn', rfl⟩ := (literal?_eq_some_iff hn).1 hy
  have hsame : row = row' ↔ s = t := by
    rw [← List.getElem?_inj (List.getElem?_eq_some_iff.1 hrow).1 n.stations.nodup_toList, hrow,
      hrow', Option.some.injEq]
  rw [Int.ofNat_lt, number_lt_iff (List.getElem?_eq_some_iff.1 hcolumn).1
      (List.getElem?_eq_some_iff.1 hcolumn').1, SortedSet.lt_iff_of_getElem? hrow hrow', hsame,
    SortedSet.lt_iff_of_getElem? hcolumn hcolumn']

/-! ## §3 Meanings -/

/-- The numbers from 1 to the number of pairs. -/
def range (n : Numbering) : Set Literal := {x | 1 ≤ x ∧ x ≤ n.size}

theorem mem_range_iff : x ∈ n.range ↔ ∃ k : Nat, x = k ∧ 1 ≤ k ∧ k ≤ n.size := by
  constructor
  · rintro ⟨hpos, hle⟩
    obtain ⟨k, rfl⟩ := Int.eq_ofNat_of_zero_le (Int.le_trans Int.one_nonneg hpos)
    exact ⟨k, rfl, Int.ofNat_le.1 hpos, Int.ofNat_le.1 hle⟩
  · rintro ⟨k, rfl, hpos, hle⟩
    exact ⟨Int.ofNat_le.2 hpos, Int.ofNat_le.2 hle⟩

/-- The number of a pair lies in range. -/
theorem number_mem_range {row column : Nat} (hrow : n.stations.toList[row]? = some s)
    (hcolumn : n.channels.toList[column]? = some c) :
    ((row * n.numChannels + column + 1 : Nat) : Literal) ∈ n.range :=
  mem_range_iff.2 ⟨_, rfl, Nat.le_add_left 1 _,
    number_le_size (List.getElem?_eq_some_iff.1 hrow).1 (List.getElem?_eq_some_iff.1 hcolumn).1⟩

/-- Numbers out of range mean nothing. -/
theorem meaning?_of_not_mem_range (h : ¬ x ∈ n.range) : n.meaning? x = none := by
  rw [meaning?, if_neg]
  rintro ⟨hpos, hle⟩
  obtain ⟨k, rfl⟩ := Int.eq_ofNat_of_zero_le (Int.le_of_lt hpos)
  exact h (mem_range_iff.2 ⟨k, rfl, Int.ofNat_lt.1 hpos, hle⟩)

/-- In range the pair is found in the row and the column of a number. -/
theorem meaning?_natCast {k : Nat} (h : 1 ≤ k) (hk : k ≤ n.size) :
    n.meaning? (k : Literal) = some (s, c) ↔
      n.stations.toList[(k - 1) / n.numChannels]? = some s ∧
        n.channels.toList[(k - 1) % n.numChannels]? = some c := by
  rw [meaning?, if_pos ⟨Int.ofNat_lt.2 h, hk⟩, Int.toNat_natCast]
  split
  · rename_i s' c' hs hc
    rw [hs, hc]
    simp
  · rename_i hnone
    simp only [reduceCtorEq, false_iff]
    rintro ⟨hs, hc⟩
    exact hnone s c hs hc

/-- A variable means the pair in its row and column. -/
theorem meaning?_eq_some_iff :
    n.meaning? x = some (s, c) ↔
      ∃ row column : Nat, n.stations.toList[row]? = some s ∧ n.channels.toList[column]? = some c ∧
        x = ((row * n.numChannels + column + 1 : Nat) : Literal) := by
  constructor
  · intro h
    have hrange : x ∈ n.range := by
      by_contra hrange
      rw [meaning?_of_not_mem_range hrange] at h
      cases h
    obtain ⟨k, rfl, hpos, hle⟩ := mem_range_iff.1 hrange
    obtain ⟨hs, hc⟩ := (meaning?_natCast hpos hle).1 h
    refine ⟨_, _, hs, hc, ?_⟩
    rw [Nat.div_add_mod', Nat.sub_add_cancel hpos]
  · rintro ⟨row, column, hrow, hcolumn, rfl⟩
    -- dividing the number gives back row and column
    have hlt : column < n.numChannels := (List.getElem?_eq_some_iff.1 hcolumn).1
    have hpos : 0 < n.numChannels := by omega
    obtain ⟨k, hk, hone, hle⟩ := mem_range_iff.1 (number_mem_range hrow hcolumn)
    rw [hk, meaning?_natCast hone hle, ← Int.natCast_inj.1 hk, Nat.add_sub_cancel, Nat.add_comm,
      Nat.add_mul_div_right _ _ hpos, Nat.add_mul_mod_self_right, Nat.div_eq_of_lt hlt,
      Nat.mod_eq_of_lt hlt, Nat.zero_add]
    exact ⟨hrow, hcolumn⟩

/-- In range there is a pair in the row and the column of a number, and nothing is divided by zero
to find it. -/
theorem exists_meaning? {k : Nat} (h : 1 ≤ k) (hk : k ≤ n.size) : ∃ s c,
    n.stations.toList[(k - 1) / n.numChannels]? = some s ∧
      n.channels.toList[(k - 1) % n.numChannels]? = some c ∧
      n.numChannels ≠ 0 ∧ n.meaning? (k : Literal) = some (s, c) := by
  obtain ⟨hpos, hrow, hcolumn⟩ := row_column_lt h hk
  have hs := List.getElem?_eq_getElem hrow
  have hc := List.getElem?_eq_getElem hcolumn
  exact ⟨_, _, hs, hc, Nat.ne_of_gt hpos, (meaning?_natCast h hk).2 ⟨hs, hc⟩⟩

theorem meaning?_eq_none_iff : n.meaning? x = none ↔ ¬ x ∈ n.range := by
  constructor
  · intro h hrange
    obtain ⟨k, rfl, hpos, hle⟩ := mem_range_iff.1 hrange
    obtain ⟨s, c, -, -, -, hmeaning⟩ := exists_meaning? hpos hle
    rw [h] at hmeaning
    cases hmeaning
  · exact meaning?_of_not_mem_range

/-- While they fit, variables and meanings belong to one another. -/
theorem literal?_eq_some_iff_meaning? (hn : n.Fits) :
    n.literal? s c = some x ↔ n.meaning? x = some (s, c) := by
  rw [literal?_eq_some_iff hn, meaning?_eq_some_iff]

/-- Stations and channels of the numbering have variables, and no others. -/
theorem literal?_eq_none_iff : n.literal? s c = none ↔ ¬ (s ∈ n.stations ∧ c ∈ n.channels) := by
  constructor
  · rintro h ⟨hs, hc⟩
    obtain ⟨row, hrow⟩ := List.getElem?_of_mem hs
    obtain ⟨column, hcolumn⟩ := List.getElem?_of_mem hc
    rw [literal?, stationRank?_eq_some_iff.2 hrow, channelRank?_eq_some_iff.2 hcolumn] at h
    cases h
  · intro h
    cases hx : n.literal? s c with
    | none => rfl
    | some x => exact absurd (mem_of_literal? hx) h

/-! ## §4 Too Many Pairs -/

/-- However many pairs there are, each number is that of a pair, which has it as its variable once
it is kept in 32 bits. -/
theorem exists_literal?_bmod {k : Nat} (h : 1 ≤ k) (hk : k ≤ n.size) :
    ∃ s ∈ n.stations, ∃ c ∈ n.channels, n.literal? s c = some (Int.bmod k (2 ^ 32)) := by
  obtain ⟨-, hrow, hcolumn⟩ := row_column_lt h hk
  have hnumber : (k - 1) / n.numChannels * n.numChannels + (k - 1) % n.numChannels + 1 = k := by
    rw [Nat.div_add_mod', Nat.sub_add_cancel h]
  refine ⟨_, List.getElem_mem hrow, _, List.getElem_mem hcolumn, ?_⟩
  rw [literal?, stationRank?_eq_some_iff.2 (List.getElem?_eq_getElem hrow),
    channelRank?_eq_some_iff.2 (List.getElem?_eq_getElem hcolumn)]
  unfold variableAt
  simp only [hnumber]

/-- The pair with the number `2 ^ 31` gets a negative variable. -/
theorem exists_literal?_neg (hn : ¬ n.Fits) :
    ∃ s ∈ n.stations, ∃ c ∈ n.channels, n.literal? s c = some (-2147483648) := by
  have hwrap : Int.bmod (2 ^ 31 : Nat) (2 ^ 32) = -2147483648 := by decide
  rw [← hwrap]
  exact exists_literal?_bmod Nat.one_le_two_pow (Nat.not_lt.1 hn)

/-! ## §5 Faithful Numberings -/

/-- The pairs of a station and a channel of the numbering. -/
def pairs (n : Numbering) : Set (StationId × Channel) := {e | e.1 ∈ n.stations ∧ e.2 ∈ n.channels}

/-- Variables and pairs correspond. -/
structure IsFaithful (n : Numbering) : Prop where
  /-- Each pair has a variable of its own, and each number from 1 on is that of a pair. -/
  bijOn : Set.BijOn (fun e => n.literal? e.1 e.2) n.pairs (some '' n.range)
  /-- Pairs are numbered in their lexicographic order. -/
  lt_iff : ∀ s c t d x y, n.literal? s c = some x → n.literal? t d = some y →
    (x < y ↔ s < t ∨ s = t ∧ c < d)
  /-- A variable means the pair that has it. -/
  meaning?_iff : ∀ s c x, n.meaning? x = some (s, c) ↔ n.literal? s c = some x
  /-- All other numbers mean nothing. -/
  meaning?_none_iff : ∀ x, n.meaning? x = none ↔ ¬ x ∈ n.range
  /-- All other stations and channels have no variables. -/
  literal?_none_iff : ∀ s c, n.literal? s c = none ↔ ¬ (s, c) ∈ n.pairs

theorem bijOn_literal? (hn : n.Fits) :
    Set.BijOn (fun e => n.literal? e.1 e.2) n.pairs (some '' n.range) := by
  refine ⟨?_, ?_, ?_⟩
  · rintro ⟨s, c⟩ ⟨hs, hc⟩
    obtain ⟨k, hk⟩ := exists_literal hn hs hc
    exact ⟨k, mem_range_iff.2 (literal?_range hn hk), hk.symm⟩
  · rintro ⟨s, c⟩ ⟨hs, hc⟩ ⟨t, d⟩ - hsame
    obtain ⟨k, hk⟩ := exists_literal hn hs hc
    obtain ⟨hst, hcd⟩ := literal?_inj hn hk (hsame.symm.trans hk)
    exact Prod.ext hst hcd
  · rintro - ⟨x, hx, rfl⟩
    obtain ⟨k, rfl, hpos, hle⟩ := mem_range_iff.1 hx
    obtain ⟨s, c, hk⟩ := exists_pair hn hpos hle
    exact ⟨(s, c), mem_of_literal? hk, hk⟩

theorem Fits.isFaithful (hn : n.Fits) : n.IsFaithful where
  bijOn := bijOn_literal? hn
  lt_iff _ _ _ _ _ _ hx hy := lt_iff_of_literal? hn hx hy
  meaning?_iff _ _ _ := (literal?_eq_some_iff_meaning? hn).symm
  meaning?_none_iff _ := meaning?_eq_none_iff
  literal?_none_iff _ _ := literal?_eq_none_iff

/-- Variables and pairs correspond exactly if there are fewer than `2 ^ 31` pairs; otherwise some
pair has a variable out of range.  However many there are, a number out of range means nothing, and
one in range has a row and a column with a pair in them, which are found without dividing by
zero. -/
theorem isFaithful_iff_fits (n : Numbering) :
    (n.IsFaithful ↔ n.Fits) ∧
      (2 ^ 31 ≤ n.size ↔ ∃ e ∈ n.pairs, ∃ x, n.literal? e.1 e.2 = some x ∧ ¬ x ∈ n.range) ∧
      (∀ x, ¬ x ∈ n.range → n.meaning? x = none) ∧
      ∀ x ∈ n.range, ∃ s c, n.stations.toList[(x.toNat - 1) / n.numChannels]? = some s ∧
        n.channels.toList[(x.toNat - 1) % n.numChannels]? = some c ∧
        n.numChannels ≠ 0 ∧ n.meaning? x = some (s, c) := by
  -- with too many pairs one is numbered `2 ^ 31`, which wraps around
  have hout : ¬ n.Fits → ∃ e ∈ n.pairs, ∃ x, n.literal? e.1 e.2 = some x ∧ ¬ x ∈ n.range := by
    intro hn
    obtain ⟨s, hs, c, hc, hneg⟩ := exists_literal?_neg hn
    exact ⟨(s, c), ⟨hs, hc⟩, _, hneg, fun h => absurd h.1 (by decide)⟩
  -- a faithful numbering leaves no pair out of range
  have hin : n.IsFaithful →
      ¬ ∃ e ∈ n.pairs, ∃ x, n.literal? e.1 e.2 = some x ∧ ¬ x ∈ n.range := by
    rintro h ⟨e, he, x, hx, hrange⟩
    obtain ⟨y, hy, hxy⟩ := h.bijOn.mapsTo he
    cases hxy.trans hx
    exact hrange hy
  refine ⟨⟨fun h => ?_, Fits.isFaithful⟩, ⟨fun h => hout (Nat.not_lt.2 h), fun h => ?_⟩,
    fun _ => meaning?_of_not_mem_range, ?_⟩
  · by_contra hn
    exact hin h (hout hn)
  · apply Nat.not_lt.1
    intro hn
    exact hin (Fits.isFaithful hn) h
  · intro x hx
    obtain ⟨k, rfl, hpos, hle⟩ := mem_range_iff.1 hx
    exact exists_meaning? hpos hle

/-- Two stations and three channels. -/
def sixPairs : Numbering := ⟨SortedSet.ofList [30, 10], SortedSet.ofList [7, 5, 6]⟩

theorem isFaithful_iff_fits_sixPairs :
    (sixPairs.Fits ∧ sixPairs.IsFaithful) ∧ (4 ∈ sixPairs.range ∧ ∃ s c,
      sixPairs.stations.toList[1]? = some s ∧ sixPairs.channels.toList[0]? = some c ∧
        sixPairs.numChannels ≠ 0 ∧ sixPairs.meaning? 4 = some (s, c)) := by
  have hfits : sixPairs.Fits := by decide
  have hrange : (4 : Literal) ∈ sixPairs.range := mem_range_iff.2 ⟨4, rfl, by decide, by decide⟩
  obtain ⟨hfaithful, -, -, hmeaning⟩ := isFaithful_iff_fits sixPairs
  exact ⟨⟨hfits, hfaithful.2 hfits⟩, hrange, hmeaning 4 hrange⟩

end Numbering

end SpectrumPacking
