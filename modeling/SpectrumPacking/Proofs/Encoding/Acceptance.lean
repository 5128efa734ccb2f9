import SpectrumPacking.Proofs.Encoding.Decoding

/-!
# Selections

Decoding counts, bounds and compares the literals that it is given; it never looks whether every
variable occurs.  It accepts all the same only the lists in which each variable has one sign and
each station one positive variable, and the order of a list does not matter to it
(`Problem.decode_selection`).
-/

namespace SpectrumPacking

/-! ## §1 Complete Lists -/

/-- A number other than zero occurs among the absolute values of a list as often as it occurs in the
list with either sign. -/
theorem count_natAbs {l : List Int} {k : Nat} (hk : 1 ≤ k) :
    (l.map Int.natAbs).count k = l.count (k : Int) + l.count (-(k : Int)) := by
  induction l with
  | nil => rfl
  | cons y l ih =>
    rw [List.map_cons, List.count_cons, List.count_cons, List.count_cons, ih]
    simp only [beq_iff_eq]
    -- of the two signs of a variable at most one is that of a given literal
    rcases Int.natAbs_eq y with hy | hy
    · have hneg : ¬ y = -(k : Int) := by omega
      have hpos : y.natAbs = k ↔ y = (k : Int) := by omega
      simp only [hneg, hpos, if_false]
      omega
    · have hpos : ¬ y = (k : Int) := by omega
      have hneg : y.natAbs = k ↔ y = -(k : Int) := by omega
      simp only [hneg, hpos, if_false]
      omega

namespace Numbering

variable {n : Numbering} {l : List Literal} {s : StationId} {c : Channel}

/-- The list has each variable of the numbering once, with one of the two signs. -/
theorem isSigning_iff_count :
    n.IsSigning l ↔
      (∀ k : Nat, 1 ≤ k → k ≤ n.size → l.count (k : Literal) + l.count (-(k : Literal)) = 1) ∧
        ∀ y ∈ l, 1 ≤ y.natAbs ∧ y.natAbs ≤ n.size := by
  have hrange : ∀ k, k ∈ List.range' 1 n.size ↔ 1 ≤ k ∧ k ≤ n.size := by
    intro k
    rw [List.mem_range'_1]
    omega
  constructor
  · intro h
    refine ⟨fun k hk hsize => ?_, fun y hy => ?_⟩
    · rw [← count_natAbs hk, h.count_eq,
        List.count_eq_one_of_mem List.nodup_range' ((hrange k).2 ⟨hk, hsize⟩)]
    · exact (hrange _).1 (h.subset (List.mem_map_of_mem hy))
  -- a variable is counted once with either sign, and a number out of range never
  · rintro ⟨honce, honly⟩
    apply List.perm_iff_count.2
    intro k
    by_cases hk : k ∈ List.range' 1 n.size
    · obtain ⟨hpos, hsize⟩ := (hrange k).1 hk
      rw [count_natAbs hpos, honce k hpos hsize, List.count_eq_one_of_mem List.nodup_range' hk]
    · have hnone : ¬ k ∈ l.map Int.natAbs := by
        intro hmem
        obtain ⟨y, hy, rfl⟩ := List.mem_map.1 hmem
        exact hk ((hrange _).2 (honly y hy))
      rw [List.count_eq_zero.2 hnone, List.count_eq_zero.2 hk]

/-- The variable of a station and a channel stands in a list with a positive sign. -/
def Selects (n : Numbering) (l : List Literal) (s : StationId) (c : Channel) : Prop :=
  ∃ y ∈ l, n.literal? s c = some y

/-- A complete list makes the variables true that stand in it with a positive sign. -/
theorem IsSigning.on_iff (hn : n.Fits) (hl : n.IsSigning l) :
    n.On (Valuation.ofLiterals l) s c ↔ n.Selects l s c := by
  have hnodup : (l.map Int.natAbs).Nodup := hl.nodup_iff.2 List.nodup_range'
  constructor
  · rintro ⟨k, hk, htrue⟩
    obtain ⟨y, hy, rfl, hpos⟩ := (Valuation.ofLiterals_eq_true_iff hnodup).1 htrue
    refine ⟨y, hy, ?_⟩
    rw [hk, Int.natAbs_of_nonneg (Int.le_of_lt hpos)]
  · rintro ⟨y, hy, hsc⟩
    obtain ⟨k, rfl, hk, -⟩ := literal?_range hn hsc
    exact ⟨k, hsc, (Valuation.ofLiterals_eq_true_iff hnodup).2
      ⟨(k : Int), hy, rfl, Int.natCast_pos.2 hk⟩⟩

end Numbering

/-! ## §2 Selections -/

namespace Problem

variable {p : Problem} {l : List Literal} {a : Assignment}

/-- The literals select one channel for each station: they are complete, every station has exactly
one positive variable, and its channel is open to the station. -/
structure IsSelection (p : Problem) (l : List Literal) : Prop where
  /-- Every variable occurs once, with one of the two signs. -/
  once : ∀ k : Nat, 1 ≤ k → k ≤ (Numbering.ofProblem p).size →
    l.count (k : Literal) + l.count (-(k : Literal)) = 1
  /-- Nothing else occurs. -/
  only : ∀ y ∈ l, 1 ≤ y.natAbs ∧ y.natAbs ≤ (Numbering.ofProblem p).size
  /-- One variable of each station is positive. -/
  one : ∀ s D, p.domain? s = some D →
    ∃ c ∈ D, ∀ d, (Numbering.ofProblem p).Selects l s d ↔ d = c

/-- The buckets of an assignment are the non-empty sets of the stations that literals select for a
channel. -/
def Collects (p : Problem) (l : List Literal) (a : Assignment) : Prop :=
  ∀ c bucket, a.get? c = some bucket ↔
    bucket ≠ SortedSet.empty ∧ ∀ s, s ∈ bucket ↔ (Numbering.ofProblem p).Selects l s c

theorem IsSelection.isSigning (h : p.IsSelection l) : (Numbering.ofProblem p).IsSigning l :=
  Numbering.isSigning_iff_count.2 ⟨h.once, h.only⟩

/-- Only one assignment has the buckets that literals select. -/
theorem Collects.unique {b : Assignment} (ha : p.Collects l a) (hb : p.Collects l b) : a = b := by
  apply SortedMap.ext
  intro c
  apply Option.ext
  intro bucket
  rw [ha c bucket, hb c bucket]

theorem collects_of_on (ha : a.IsNormal)
    (h : ∀ s c, a.On s c ↔ (Numbering.ofProblem p).Selects l s c) : p.Collects l a := by
  intro c bucket
  constructor
  · intro hc
    refine ⟨ha.1 c bucket hc, fun s => ?_⟩
    rw [← h, Assignment.On, hc]
    simp
  · rintro ⟨hne, hbucket⟩
    obtain ⟨s, hs⟩ := SortedSet.exists_mem_of_ne_empty hne
    obtain ⟨stored, hstored, -⟩ := (h s c).2 ((hbucket s).1 hs)
    -- the stored bucket holds the stations that are selected, as the given one does
    have hsame : stored = bucket := by
      apply SortedSet.ext
      intro t
      rw [hbucket, ← h, Assignment.On, hstored]
      simp
    rw [hstored, hsame]

/-- What decoding returns is selected by the literals. -/
theorem isSelection_of_decode (hp : (Numbering.ofProblem p).Fits) (h : p.decode l = .ok a) :
    p.IsSelection l ∧ p.Collects l a := by
  obtain ⟨hl, hseating, hon⟩ := (decode_eq_ok_iff hp).1 h
  have hselects : ∀ s c, a.On s c ↔ (Numbering.ofProblem p).Selects l s c :=
    fun s c => (hon s c).trans (hl.on_iff hp)
  obtain ⟨honce, honly⟩ := Numbering.isSigning_iff_count.1 hl
  refine ⟨⟨honce, honly, ?_⟩, collects_of_on hseating.normal hselects⟩
  intro s D hD
  obtain ⟨c, hc⟩ := hseating.placed s D hD
  obtain ⟨E, hE, hcE⟩ := hseating.open_to s c hc
  rw [hD] at hE
  cases hE
  refine ⟨c, hcE, fun d => ?_⟩
  rw [← hselects]
  exact ⟨fun hd => hseating.normal.unique hd hc, fun hd => hd ▸ hc⟩

/-- Every selection can be decoded. -/
theorem IsSelection.exists_decode (hp : (Numbering.ofProblem p).Fits) (h : p.IsSelection l) :
    ∃ a, p.decode l = .ok a := by
  have hdomain : ∀ s c, (Numbering.ofProblem p).Selects l s c → ∃ D, p.domain? s = some D :=
    fun s c ⟨_, _, hsc⟩ => mem_stationSet.1 (Numbering.mem_of_literal? hsc).1
  -- the stations stand where the literals say, which is a packing if nothing interferes
  have hpacks : p.Packs Interference.none ((Numbering.ofProblem p).Selects l) := by
    refine ⟨?_, ?_, ?_, fun _ _ _ _ _ => SortedSet.not_mem_empty,
      fun _ _ _ _ _ => SortedSet.not_mem_empty⟩
    · intro s D hD
      obtain ⟨c, -, hc⟩ := h.one s D hD
      exact ⟨c, (hc c).2 rfl⟩
    · intro s c d hc hd
      obtain ⟨D, hD⟩ := hdomain s c hc
      obtain ⟨e, -, he⟩ := h.one s D hD
      rw [(he c).1 hc, (he d).1 hd]
    · intro s c hc
      obtain ⟨D, hD⟩ := hdomain s c hc
      obtain ⟨e, heD, he⟩ := h.one s D hD
      exact ⟨D, hD, (he c).1 hc ▸ heD⟩
  obtain ⟨a, ha, hon⟩ := hpacks.exists_assignment
  refine ⟨a, (decode_eq_ok_iff hp).2 ⟨h.isSigning, ha.toIsSeating, fun s c => ?_⟩⟩
  rw [hon, h.isSigning.on_iff hp]

theorem IsSelection.perm {l' : List Literal} (h : p.IsSelection l) (hl : l.Perm l') :
    p.IsSelection l' := by
  have hselects : ∀ s d, (Numbering.ofProblem p).Selects l' s d ↔
      (Numbering.ofProblem p).Selects l s d := by
    intro s d
    simp only [Numbering.Selects, hl.mem_iff]
  refine ⟨?_, ?_, ?_⟩
  · intro k hk hsize
    rw [← hl.count_eq, ← hl.count_eq, h.once k hk hsize]
  · intro y hy
    exact h.only y (hl.mem_iff.2 hy)
  · simp only [hselects]
    exact h.one

/-- Decoding accepts the selections and refuses all other lists.  It returns the assignment that a
selection collects, in whichever order the selection is given. -/
theorem decode_selection (p : Problem) (hp : (Numbering.ofProblem p).Fits) (l : List Literal) :
    ((∃ a, p.decode l = .ok a) ↔ p.IsSelection l) ∧
      (∀ a, p.decode l = .ok a ↔ p.IsSelection l ∧ p.Collects l a) ∧
      (¬ p.IsSelection l → ∃ e, p.decode l = .error e) ∧
      ∀ l', l.Perm l' → p.IsSelection l → p.decode l' = p.decode l := by
  have hcollects : ∀ a, p.decode l = .ok a ↔ p.IsSelection l ∧ p.Collects l a := by
    intro a
    constructor
    · exact isSelection_of_decode hp
    · rintro ⟨h, ha⟩
      obtain ⟨b, hb⟩ := h.exists_decode hp
      rw [hb, (isSelection_of_decode hp hb).2.unique ha]
  refine ⟨⟨fun ⟨a, ha⟩ => ((hcollects a).1 ha).1, fun h => h.exists_decode hp⟩, hcollects, ?_, ?_⟩
  · intro h
    cases hdecode : p.decode l with
    | ok a => exact absurd ((hcollects a).1 hdecode).1 h
    | error e => exact ⟨e, rfl⟩
  · intro l' hl h
    obtain ⟨a, ha⟩ := h.exists_decode hp
    obtain ⟨b, hb⟩ := (h.perm hl).exists_decode hp
    -- what is selected does not depend on the order, and the assignment depends on that alone
    have hb' : p.Collects l b := by
      have hbuckets := (isSelection_of_decode hp hb).2
      simp only [Collects, Numbering.Selects, ← hl.mem_iff] at hbuckets
      exact hbuckets
    rw [ha, hb, ((hcollects a).1 ha).2.unique hb']

theorem decode_selection_pair :
    (Numbering.ofProblem pair).Fits ∧ pair.decode [4, -2, 1, -3] = pair.decode [1, -2, -3, 4] ∧
      ¬ pair.IsSelection [1, 1, -3, 4] ∧ ∃ e, pair.decode [1, 1, -3, 4] = .error e := by
  have hp : (Numbering.ofProblem pair).Fits := by decide
  have hduplicate : ¬ pair.IsSelection [1, 1, -3, 4] := by
    intro h
    exact absurd (h.once 1 (by decide) (by decide)) (by decide)
  have hselection : pair.IsSelection [1, -2, -3, 4] :=
    (decode_selection pair hp _).1.1 ⟨SortedMap.ofList [(14, SortedSet.ofList [1]),
      (15, SortedSet.ofList [2])], by decide⟩
  exact ⟨hp, (decode_selection pair hp _).2.2.2 _ (by decide) hselection, hduplicate,
    (decode_selection pair hp _).2.2.1 hduplicate⟩

end Problem

end SpectrumPacking
