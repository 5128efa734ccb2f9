import SpectrumPacking.Proofs.Encoding.Numberings
import SpectrumPacking.Proofs.Packing.Packings

/-!
# Models of an Encoding

A valuation puts a station on a channel when it makes their variable true (`Numbering.On`).  The
main statement is `Problem.holds_encode_iff`: a valuation makes the formula of a problem true
exactly when it packs the problem.  Each clause family has a statement of its own; constraints need
clauses only for channels open to both stations, since a valuation that makes the other families
true puts each station inside its domain.

The formula speaks of declared variables only, as long as their numbers fit into 32 bits
(`Problem.isWellFormed_encode`).  This is what an engine may rely on.
-/

namespace SpectrumPacking

/-! ## §1 Valuations as Placements -/

theorem Literal.holds_natCast {v : Valuation} {k : Nat} (hk : 1 ≤ k) :
    Literal.holds v (k : Literal) = v k := by
  have hpos : 0 < k := hk
  simp [Literal.holds, hpos]

theorem Literal.holds_neg_natCast {v : Valuation} {k : Nat} :
    Literal.holds v (-(k : Literal)) = !v k := by
  simp [Literal.holds]

namespace Numbering

/-- A valuation makes the variable of a station and a channel true. -/
def On (n : Numbering) (v : Valuation) (s : StationId) (c : Channel) : Prop :=
  ∃ k : Nat, n.literal? s c = some (k : Literal) ∧ v k = true

variable {n : Numbering} {v : Valuation} {s t : StationId} {c d : Channel}

theorem On.mem (h : n.On v s c) : s ∈ n.stations ∧ c ∈ n.channels := by
  obtain ⟨k, hk, -⟩ := h
  exact mem_of_literal? hk

/-- Any relation between the stations and channels of a numbering is that of some valuation. -/
theorem exists_on (hn : n.Fits) {on : StationId → Channel → Prop}
    (hon : ∀ s c, on s c → s ∈ n.stations ∧ c ∈ n.channels) :
    ∃ v : Valuation, ∀ s c, n.On v s c ↔ on s c := by
  classical
  refine ⟨fun k => decide (∃ s c, n.literal? s c = some (k : Literal) ∧ on s c), fun s c => ?_⟩
  constructor
  · rintro ⟨k, hk, hv⟩
    obtain ⟨t, d, ht, hd⟩ := of_decide_eq_true hv
    obtain ⟨rfl, rfl⟩ := literal?_inj hn hk ht
    exact hd
  · intro hsc
    obtain ⟨k, hk⟩ := exists_literal hn (hon s c hsc).1 (hon s c hsc).2
    exact ⟨k, hk, decide_eq_true ⟨s, c, hk, hsc⟩⟩

theorem holds_notBoth {j k : Nat} :
    Clause.holds v (notBoth (j : Literal) (k : Literal)) = true ↔ ¬ (v j = true ∧ v k = true) := by
  simp only [Clause.holds, notBoth, List.any_cons, List.any_nil, Literal.holds_neg_natCast]
  cases v j <;> cases v k <;> decide

/-! ## §2 The Clause Families -/

/-- The pairs of a strictly increasing list are those of a smaller member and a larger one. -/
theorem mem_laterPairs_iff {l : List Nat} (hl : l.Pairwise (· < ·)) {i j : Nat} :
    (i, j) ∈ laterPairs l ↔ i ∈ l ∧ j ∈ l ∧ i < j := by
  induction l with
  | nil => simp [laterPairs]
  | cons a l ih =>
    rw [List.pairwise_cons] at hl
    rw [laterPairs, List.mem_append, ih hl.2]
    simp only [List.mem_map, Prod.mk.injEq, List.mem_cons]
    constructor
    · rintro (⟨b, hb, rfl, rfl⟩ | ⟨hi, hj, hij⟩)
      · exact ⟨Or.inl rfl, Or.inr hb, hl.1 b hb⟩
      · exact ⟨Or.inr hi, Or.inr hj, hij⟩
    -- the head is below all others, so it is the smaller member of its pairs
    · rintro ⟨rfl | hi, rfl | hj, hij⟩
      · omega
      · exact Or.inl ⟨j, hj, rfl, rfl⟩
      · have := hl.1 i hi
        omega
      · exact Or.inr ⟨hi, hj, hij⟩

theorem literal?_at {row column : Nat} (hrow : n.stations.toList[row]? = some s)
    (hcolumn : n.channels.toList[column]? = some c) :
    n.literal? s c = some (n.variableAt row column) := by
  rw [literal?, stationRank?_eq_some_iff.2 hrow, channelRank?_eq_some_iff.2 hcolumn]

theorem holds_atMostOne (hn : n.Fits) {row : Nat} (hrow : n.stations.toList[row]? = some s) :
    (∀ k ∈ n.atMostOne row, Clause.holds v k = true) ↔
      ∀ c d, n.On v s c → n.On v s d → c = d := by
  have hrange : (List.range n.numChannels).Pairwise (· < ·) := List.pairwise_lt_range
  constructor
  · rintro h c d ⟨j, hj, hvj⟩ ⟨k, hk, hvk⟩
    obtain ⟨column, hcolumn⟩ := List.getElem?_of_mem (mem_of_literal? hj).2
    obtain ⟨column', hcolumn'⟩ := List.getElem?_of_mem (mem_of_literal? hk).2
    have hlt := (List.getElem?_eq_some_iff.1 hcolumn).1
    have hlt' := (List.getElem?_eq_some_iff.1 hcolumn').1
    have hj' := Option.some.inj ((literal?_at hrow hcolumn).symm.trans hj)
    have hk' := Option.some.inj ((literal?_at hrow hcolumn').symm.trans hk)
    -- the two variables exclude each other, whichever column comes first
    have hexcluded : ∀ {i i' l l' : Nat}, i < n.numChannels → i' < n.numChannels → i < i' →
        n.variableAt row i = l → n.variableAt row i' = l' → ¬ (v l = true ∧ v l' = true) := by
      intro i i' l l' hi hi' hii hl hl'
      rw [← holds_notBoth, ← hl, ← hl']
      exact h _ (List.mem_map.2 ⟨(i, i'), (mem_laterPairs_iff hrange).2
        ⟨List.mem_range.2 hi, List.mem_range.2 hi', hii⟩, rfl⟩)
    rcases Nat.lt_trichotomy column column' with hcc | rfl | hcc
    · exact absurd ⟨hvj, hvk⟩ (hexcluded hlt hlt' hcc hj' hk')
    · rw [hcolumn] at hcolumn'
      exact Option.some.inj hcolumn'
    · exact absurd ⟨hvk, hvj⟩ (hexcluded hlt' hlt hcc hk' hj')
  · intro h k hk
    obtain ⟨⟨i, j⟩, hij, rfl⟩ := List.mem_map.1 hk
    obtain ⟨hi, hj, hlt⟩ := (mem_laterPairs_iff hrange).1 hij
    rw [List.mem_range] at hi hj
    show Clause.holds v (notBoth (n.variableAt row i) (n.variableAt row j)) = true
    have hstation := (List.getElem?_eq_some_iff.1 hrow).1
    rw [variableAt_eq hn hstation hi, variableAt_eq hn hstation hj, holds_notBoth]
    rintro ⟨hvi, hvj⟩
    have hcolumn := List.getElem?_eq_getElem hi
    have hcolumn' := List.getElem?_eq_getElem hj
    -- both variables true would put the station on the channels of two columns
    have hon : ∀ {column : Nat} {c : Channel}, column < n.numChannels →
        n.channels.toList[column]? = some c →
        v (row * n.numChannels + column + 1) = true → n.On v s c := by
      intro column c hcolumn hc hv
      refine ⟨_, ?_, hv⟩
      rw [literal?_at hrow hc, variableAt_eq hn hstation hcolumn]
    have hsame := h _ _ (hon hi hcolumn hvi) (hon hj hcolumn' hvj)
    rw [← hsame] at hcolumn'
    have := (List.getElem?_inj hi n.channels.nodup_toList).1 (hcolumn.trans hcolumn'.symm)
    omega

theorem holds_atLeastOne (hn : n.Fits) {domain : SortedSet Channel} :
    Clause.holds v (n.atLeastOne s domain) = true ↔ ∃ c ∈ domain, n.On v s c := by
  rw [Clause.holds_iff]
  simp only [atLeastOne, List.mem_filterMap]
  constructor
  · rintro ⟨x, ⟨c, hc, hx⟩, hv⟩
    obtain ⟨k, rfl, hk, -⟩ := literal?_range hn hx
    rw [Literal.holds_natCast hk] at hv
    exact ⟨c, hc, k, hx, hv⟩
  · rintro ⟨c, hc, k, hk, hv⟩
    obtain ⟨k', hkk', hpos, -⟩ := literal?_range hn hk
    have : k = k' := by exact_mod_cast hkk'
    exact ⟨k, ⟨c, hc, hk⟩, by rw [Literal.holds_natCast (by omega), hv]⟩

theorem exclusion_eq_some_iff {k : Clause} :
    n.exclusion s c t d = some k ↔
      ∃ y z, n.literal? s c = some y ∧ n.literal? t d = some z ∧ k = notBoth y z := by
  rw [exclusion]
  split
  · rename_i y z hy hz
    simp [hy, hz, eq_comm]
  · rename_i h
    simp only [reduceCtorEq, false_iff]
    rintro ⟨y, z, hy, hz, -⟩
    exact h y z hy hz

theorem holds_exclusion (hn : n.Fits) :
    (∀ k, n.exclusion s c t d = some k → Clause.holds v k = true) ↔
      ¬ (n.On v s c ∧ n.On v t d) := by
  constructor
  · intro h hon
    obtain ⟨⟨j, hj, hvj⟩, ⟨k, hk, hvk⟩⟩ := hon
    exact holds_notBoth.1 (h _ (exclusion_eq_some_iff.2 ⟨_, _, hj, hk, rfl⟩)) ⟨hvj, hvk⟩
  · intro h k hk
    obtain ⟨y, z, hy, hz, rfl⟩ := exclusion_eq_some_iff.1 hk
    obtain ⟨j, rfl, -, -⟩ := literal?_range hn hy
    obtain ⟨k, rfl, -, -⟩ := literal?_range hn hz
    exact holds_notBoth.2 fun hboth => h ⟨⟨j, hy, hboth.1⟩, ⟨k, hz, hboth.2⟩⟩

/-- A station is numbered in front of another one. -/
def IsBefore (n : Numbering) (t s : StationId) : Prop :=
  ∃ row row', n.stationRank? s = some row ∧ n.stationRank? t = some row' ∧ row' < row

theorem mem_coChannel {x : Interference} {p : Problem} {k : Clause} :
    k ∈ n.coChannel x p s ↔
      ∃ t ∈ x.coStations s, n.IsBefore t s ∧ ∃ D D', p.domain? s = some D ∧
        p.domain? t = some D' ∧ ∃ c, c ∈ D ∧ c ∈ D' ∧ n.exclusion s c t c = some k := by
  constructor
  · intro hk
    rw [coChannel] at hk
    split at hk
    · rename_i row D hrow hD
      obtain ⟨t, ht, hk⟩ := List.mem_flatMap.1 hk
      split at hk
      · rename_i row' D' hrow' hD'
        split at hk
        · rename_i hlt
          obtain ⟨c, hc, hk⟩ := List.mem_filterMap.1 hk
          obtain ⟨hc, hc'⟩ := SortedSet.mem_inter.1 hc
          exact ⟨t, ht, ⟨row, row', hrow, hrow', hlt⟩, D, D', hD, hD', c, hc, hc', hk⟩
        · cases hk
      · cases hk
    · cases hk
  · rintro ⟨t, ht, ⟨row, row', hrow, hrow', hlt⟩, D, D', hD, hD', c, hc, hc', hk⟩
    simp only [coChannel, hrow, hD]
    refine List.mem_flatMap.2 ⟨t, ht, ?_⟩
    simp only [hrow', hD', hlt, if_true]
    exact List.mem_filterMap.2 ⟨c, SortedSet.mem_inter.2 ⟨hc, hc'⟩, hk⟩

theorem mem_adjacentChannel {x : Interference} {p : Problem} {k : Clause} :
    k ∈ n.adjacentChannel x p s ↔
      ∃ t ∈ x.adjacentStations s, ∃ D D', p.domain? s = some D ∧ p.domain? t = some D' ∧
        ∃ c, c ∈ D ∧ c + 1 ∈ D' ∧ n.exclusion s c t (c + 1) = some k := by
  constructor
  · intro hk
    rw [adjacentChannel] at hk
    split at hk
    · cases hk
    · rename_i D hD
      obtain ⟨t, ht, hk⟩ := List.mem_flatMap.1 hk
      split at hk
      · cases hk
      · rename_i D' hD'
        obtain ⟨c, hc, hk⟩ := List.mem_filterMap.1 hk
        obtain ⟨hc, hc'⟩ := List.mem_filter.1 hc
        exact ⟨t, ht, D, D', hD, hD', c, hc, SortedSet.contains_iff.1 hc', hk⟩
  · rintro ⟨t, ht, D, D', hD, hD', c, hc, hc', hk⟩
    simp only [adjacentChannel, hD]
    refine List.mem_flatMap.2 ⟨t, ht, ?_⟩
    simp only [hD']
    exact List.mem_filterMap.2 ⟨c, List.mem_filter.2 ⟨hc, SortedSet.contains_iff.2 hc'⟩, hk⟩

end Numbering

/-! ## §3 The Formula -/

namespace Problem

variable {p : Problem} {x : Interference} {v : Valuation} {s : StationId}

theorem getElem?_stations {row : Nat} :
    (Numbering.ofProblem p).stations.toList[row]? = some s ↔
      ∃ D, p.domains.toList[row]? = some (s, D) := by
  show (p.domains.toList.map (·.1))[row]? = some s ↔ _
  rw [List.getElem?_map, Option.map_eq_some_iff]
  constructor
  · rintro ⟨⟨t, D⟩, hrow, rfl⟩
    exact ⟨D, hrow⟩
  · rintro ⟨D, hrow⟩
    exact ⟨(s, D), hrow, rfl⟩

/-- The formula of a problem without empty domains holds when the clauses of all stations do. -/
theorem holds_encode_iff_stationClauses (h : ¬ p.hasEmptyDomain = true) :
    (p.encode x).holds v = true ↔ ∀ (row : Nat) s D, p.domains.toList[row]? = some (s, D) →
      ∀ k ∈ p.stationClauses x row s D, Clause.holds v k = true := by
  rw [encode, if_neg h, Cnf.holds_iff]
  constructor
  · intro h row s D hrow k hk
    exact h k (List.mem_flatMap.2 ⟨((s, D), row), List.mem_zipIdx_iff_getElem?.2 hrow, hk⟩)
  · intro h k hk
    obtain ⟨⟨⟨s, D⟩, row⟩, hrow, hk⟩ := List.mem_flatMap.1 hk
    exact h row s D (List.mem_zipIdx_iff_getElem?.1 hrow) k hk

/-- What the clauses of one station say. -/
theorem holds_stationClauses (hp : (Numbering.ofProblem p).Fits) {row : Nat}
    {D : SortedSet Channel} (hrow : p.domains.toList[row]? = some (s, D)) :
    (∀ k ∈ p.stationClauses x row s D, Clause.holds v k = true) ↔
      (∀ c d, (Numbering.ofProblem p).On v s c → (Numbering.ofProblem p).On v s d → c = d) ∧
      (∃ c ∈ D, (Numbering.ofProblem p).On v s c) ∧
      (∀ k ∈ (Numbering.ofProblem p).coChannel x p s, Clause.holds v k = true) ∧
      ∀ k ∈ (Numbering.ofProblem p).adjacentChannel x p s, Clause.holds v k = true := by
  rw [← Numbering.holds_atMostOne hp (getElem?_stations.2 ⟨D, hrow⟩),
    ← Numbering.holds_atLeastOne hp]
  simp only [stationClauses, List.mem_append, List.mem_cons, or_imp, forall_and, forall_eq,
    and_assoc]

theorem mem_stations_of_on {c : Channel} (h : (Numbering.ofProblem p).On v s c) :
    ∃ (row : Nat) (D : SortedSet Channel),
      p.domains.toList[row]? = some (s, D) ∧ p.domain? s = some D := by
  obtain ⟨D, hD⟩ := mem_stationSet.1 h.mem.1
  obtain ⟨row, hrow⟩ := List.getElem?_of_mem (SortedMap.get?_eq_some_iff.1 hD)
  exact ⟨row, D, hrow, hD⟩

/-- A valuation that makes the clauses of all stations true packs the problem. -/
theorem packs_of_stationClauses (hp : (Numbering.ofProblem p).Fits)
    (h : ∀ (row : Nat) s D, p.domains.toList[row]? = some (s, D) →
      ∀ k ∈ p.stationClauses x row s D, Clause.holds v k = true) :
    p.Packs x ((Numbering.ofProblem p).On v) := by
  have hclauses := fun {row s D} hrow => (holds_stationClauses hp hrow).1 (h row s D hrow)
  have hunique : ∀ s c d, (Numbering.ofProblem p).On v s c →
      (Numbering.ofProblem p).On v s d → c = d := by
    intro s c d hc hd
    obtain ⟨row, D, hrow, -⟩ := mem_stations_of_on hc
    exact (hclauses hrow).1 c d hc hd
  have hdomain : ∀ s c, (Numbering.ofProblem p).On v s c →
      ∃ D, p.domain? s = some D ∧ c ∈ D := by
    intro s c hc
    obtain ⟨row, D, hrow, hD⟩ := mem_stations_of_on hc
    obtain ⟨d, hd, hon⟩ := (hclauses hrow).2.1
    rw [hunique s c d hc hon]
    exact ⟨D, hD, hd⟩
  -- of two stations on one channel the later one has the clause that excludes this
  have hbefore : ∀ s t c, (Numbering.ofProblem p).On v s c → (Numbering.ofProblem p).On v t c →
      (Numbering.ofProblem p).IsBefore t s → ¬ t ∈ x.coStations s := by
    intro s t c hs ht hlt hco
    obtain ⟨row, D, hrow, hD⟩ := mem_stations_of_on hs
    obtain ⟨E, hE, hcE⟩ := hdomain s c hs
    obtain ⟨D', hD', hcD'⟩ := hdomain t c ht
    refine (Numbering.holds_exclusion hp).1 ?_ ⟨hs, ht⟩
    intro k hk
    exact (hclauses hrow).2.2.1 k (Numbering.mem_coChannel.2
      ⟨t, hco, hlt, E, D', hE, hD', c, hcE, hcD', hk⟩)
  refine ⟨?_, hunique, hdomain, ?_, ?_⟩
  -- a station has its clause of at least one channel
  · intro s D hD
    obtain ⟨row, hrow⟩ := List.getElem?_of_mem (SortedMap.get?_eq_some_iff.1 hD)
    obtain ⟨c, -, hc⟩ := (hclauses hrow).2.1
    exact ⟨c, hc⟩
  · intro s t c hs ht hco
    obtain ⟨row, hrow⟩ := List.getElem?_of_mem hs.mem.1
    obtain ⟨row', hrow'⟩ := List.getElem?_of_mem ht.mem.1
    have hrank := Numbering.stationRank?_eq_some_iff.2 hrow
    have hrank' := Numbering.stationRank?_eq_some_iff.2 hrow'
    -- the relation is symmetric, so it does not matter which station is numbered first
    rcases Nat.lt_trichotomy row' row with hlt | rfl | hlt
    · exact hbefore s t c hs ht ⟨row, row', hrank, hrank', hlt⟩ hco
    · rw [hrow] at hrow'
      cases hrow'
      exact x.co_irrefl hco
    · exact hbefore t s c ht hs ⟨row', row, hrank', hrank, hlt⟩ (x.co_symm hco)
  · intro s t c hs ht hadjacent
    -- the clause belongs to the station below, wherever the one above is numbered
    obtain ⟨row, D, hrow, hD⟩ := mem_stations_of_on hs
    obtain ⟨E, hE, hcE⟩ := hdomain s c hs
    obtain ⟨D', hD', hcD'⟩ := hdomain t (c + 1) ht
    refine (Numbering.holds_exclusion hp).1 ?_ ⟨hs, ht⟩
    intro k hk
    exact (hclauses hrow).2.2.2 k (Numbering.mem_adjacentChannel.2
      ⟨t, hadjacent, E, D', hE, hD', c, hcE, hcD', hk⟩)

/-- A valuation that packs a problem makes the clauses of all stations true. -/
theorem stationClauses_of_packs (hp : (Numbering.ofProblem p).Fits)
    (h : p.Packs x ((Numbering.ofProblem p).On v)) {row : Nat} {D : SortedSet Channel}
    (hrow : p.domains.toList[row]? = some (s, D)) :
    ∀ k ∈ p.stationClauses x row s D, Clause.holds v k = true := by
  have hD : p.domain? s = some D := SortedMap.get?_eq_some_iff.2 (List.mem_of_getElem? hrow)
  refine (holds_stationClauses hp hrow).2 ⟨h.unique s, ?_, ?_, ?_⟩
  · obtain ⟨c, hc⟩ := h.placed s D hD
    obtain ⟨E, hE, hcE⟩ := h.open_to s c hc
    rw [hD] at hE
    cases hE
    exact ⟨c, hcE, hc⟩
  -- a clause on a shared or an adjacent channel excludes what does not happen
  · intro k hk
    obtain ⟨t, ht, -, E, D', -, -, c, -, -, hk⟩ := Numbering.mem_coChannel.1 hk
    refine (Numbering.holds_exclusion hp).2 ?_ k hk
    rintro ⟨hs, hs'⟩
    exact h.co_free s t c hs hs' ht
  · intro k hk
    obtain ⟨t, ht, E, D', -, -, c, -, -, hk⟩ := Numbering.mem_adjacentChannel.1 hk
    refine (Numbering.holds_exclusion hp).2 ?_ k hk
    rintro ⟨hs, hs'⟩
    exact h.adjacent_free s t c hs hs' ht

/-- The models of the formula of a problem are the valuations that pack the problem. -/
theorem holds_encode_iff (hp : (Numbering.ofProblem p).Fits) :
    (p.encode x).holds v = true ↔ p.Packs x ((Numbering.ofProblem p).On v) := by
  -- an empty domain leaves neither models nor packings
  by_cases hempty : p.hasEmptyDomain = true
  · constructor
    · intro h
      rw [encode, if_pos hempty] at h
      exact absurd ⟨v, h⟩ Cnf.not_satisfiable_contradiction
    · intro h
      exact absurd h.packable (not_packable_of_hasEmptyDomain hempty)
  · rw [holds_encode_iff_stationClauses hempty]
    exact ⟨packs_of_stationClauses hp, fun h _ _ _ hrow => stationClauses_of_packs hp h hrow⟩

/-- Stations that pack a problem stand on its channels. -/
theorem Packs.mem {on : StationId → Channel → Prop} (h : p.Packs x on) {s : StationId} {c : Channel}
    (hc : on s c) :
    s ∈ (Numbering.ofProblem p).stations ∧ c ∈ (Numbering.ofProblem p).channels := by
  obtain ⟨D, hD, hcD⟩ := h.open_to s c hc
  exact ⟨mem_stationSet.2 ⟨D, hD⟩, Domains.mem_channels.2 ⟨s, D, hD, hcD⟩⟩

theorem satisfiable_encode_iff (hp : (Numbering.ofProblem p).Fits) :
    (p.encode x).Satisfiable ↔ p.Packable x := by
  constructor
  · rintro ⟨v, hv⟩
    exact ((holds_encode_iff hp).1 hv).packable
  · intro h
    obtain ⟨on, hon⟩ := packable_iff.1 h
    obtain ⟨v, hv⟩ := Numbering.exists_on hp fun s c => hon.mem
    exact ⟨v, (holds_encode_iff hp).2 ((Packs.congr hv).2 hon)⟩

end Problem

/-! ## §4 Variables of the Families -/

namespace Numbering

variable {n : Numbering} {s t : StationId} {c d : Channel} {k : Clause}

/-- A literal names a variable of a numbering. -/
def Names (n : Numbering) (x : Literal) : Prop := x ≠ 0 ∧ x.natAbs ≤ n.size

theorem Names.neg {x : Literal} (h : n.Names x) : n.Names (-x) :=
  ⟨Int.neg_ne_zero.2 h.1, Int.natAbs_neg x ▸ h.2⟩

theorem names_natCast {j : Nat} (hj : 1 ≤ j) (hj' : j ≤ n.size) : n.Names (j : Literal) := by
  refine ⟨?_, hj'⟩
  intro h
  have hzero : j = 0 := by exact_mod_cast h
  omega

theorem names_of_literal? (hn : n.Fits) {x : Literal} (h : n.literal? s c = some x) :
    n.Names x := by
  obtain ⟨j, rfl, hj, hj'⟩ := literal?_range hn h
  exact names_natCast hj hj'

theorem names_of_mem_notBoth {a b : Literal} (ha : n.Names a) (hb : n.Names b) :
    ∀ x ∈ notBoth a b, n.Names x := by
  intro x hx
  rcases List.mem_cons.1 hx with rfl | hx
  · exact ha.neg
  · rw [List.mem_singleton.1 hx]
    exact hb.neg

theorem names_of_mem_atMostOne (hn : n.Fits) {row : Nat} (hrow : row < n.stations.size)
    (h : k ∈ n.atMostOne row) : ∀ x ∈ k, n.Names x := by
  obtain ⟨⟨i, j⟩, hij, rfl⟩ := List.mem_map.1 h
  obtain ⟨hi, hj, -⟩ := (mem_laterPairs_iff List.pairwise_lt_range).1 hij
  have hnames : ∀ {column : Nat}, column ∈ List.range n.numChannels →
      n.Names (n.variableAt row column) := by
    intro column hcolumn
    rw [variableAt_eq hn hrow (List.mem_range.1 hcolumn)]
    exact names_natCast (by omega) (number_le_size hrow (List.mem_range.1 hcolumn))
  exact names_of_mem_notBoth (hnames hi) (hnames hj)

theorem names_of_mem_atLeastOne (hn : n.Fits) {domain : SortedSet Channel} :
    ∀ x ∈ n.atLeastOne s domain, n.Names x := by
  intro x hx
  obtain ⟨c, -, hc⟩ := List.mem_filterMap.1 hx
  exact names_of_literal? hn hc

theorem names_of_mem_exclusion (hn : n.Fits) (h : n.exclusion s c t d = some k) :
    ∀ x ∈ k, n.Names x := by
  obtain ⟨y, z, hy, hz, rfl⟩ := exclusion_eq_some_iff.1 h
  exact names_of_mem_notBoth (names_of_literal? hn hy) (names_of_literal? hn hz)

end Numbering

/-! ## §5 Well-Formedness -/

namespace Problem

variable {p : Problem} {x : Interference}

theorem names_of_mem_stationClauses (hp : (Numbering.ofProblem p).Fits) {row : Nat}
    {s : StationId} {D : SortedSet Channel} (hrow : p.domains.toList[row]? = some (s, D))
    {k : Clause} (h : k ∈ p.stationClauses x row s D) :
    ∀ y ∈ k, (Numbering.ofProblem p).Names y := by
  unfold stationClauses at h
  simp only [List.mem_append, List.mem_cons] at h
  rcases h with (hk | rfl | hk) | hk
  · have hrank := getElem?_stations.2 ⟨D, hrow⟩
    exact Numbering.names_of_mem_atMostOne hp (List.getElem?_eq_some_iff.1 hrank).1 hk
  · exact Numbering.names_of_mem_atLeastOne hp
  · obtain ⟨t, -, -, E, D', -, -, c, -, -, hk⟩ := Numbering.mem_coChannel.1 hk
    exact Numbering.names_of_mem_exclusion hp hk
  · obtain ⟨t, -, E, D', -, -, c, -, -, hk⟩ := Numbering.mem_adjacentChannel.1 hk
    exact Numbering.names_of_mem_exclusion hp hk

/-- The formula of a problem speaks of declared variables only. -/
theorem isWellFormed_encode (hp : (Numbering.ofProblem p).Fits) : (p.encode x).IsWellFormed := by
  unfold encode
  split
  · unfold Cnf.IsWellFormed
    decide
  · intro k hk y hy
    obtain ⟨⟨⟨s, D⟩, row⟩, hrow, hk⟩ := List.mem_flatMap.1 hk
    exact names_of_mem_stationClauses hp (List.mem_zipIdx_iff_getElem?.1 hrow) hk y hy

end Problem

end SpectrumPacking
