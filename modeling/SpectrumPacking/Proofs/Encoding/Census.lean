import Mathlib.Algebra.BigOperators.Group.Finset.Piecewise
import Mathlib.Algebra.BigOperators.Group.Finset.Sigma
import Mathlib.Algebra.Group.Action.Defs
import Mathlib.Algebra.Group.Nat.Even
import Mathlib.Algebra.Order.BigOperators.Group.Finset
import SpectrumPacking.Proofs.Encoding.Texts

/-!
# The Census of an Encoding

Every clause of an encoding but those of at least one channel excludes two variables together.  Such
a clause tells the stations and the channels that it is about
(`Numbering.toFinset_eq_iff_of_exclusion`), so the clauses that keep two stations off one channel
are found in one family only.

The main statement is `Problem.census_encode`: two stations that may not share a channel have one
clause for each channel open to both, no others have any, and the number of clauses is that of the
pairs of channels at each station, of the stations, and of the channels on which a constraint can be
violated.
-/

namespace SpectrumPacking

universe u v

/-! ## §1 Finite Sets of Stations and Channels -/

namespace SortedSet

variable {α : Type u} [DecidableEq α] [LE α] [LT α] [Std.LawfulOrderLT α] {s t : SortedSet α}
  {a : α}

/-- The members of a set. -/
def toFinset (s : SortedSet α) : Finset α := s.toList.toFinset

omit [LE α] [Std.LawfulOrderLT α] in
@[simp] theorem mem_toFinset : a ∈ s.toFinset ↔ a ∈ s := List.mem_toFinset

theorem card_toFinset : s.toFinset.card = s.size := List.toFinset_card_of_nodup s.nodup_toList

theorem sum_toFinset (f : α → Nat) : ∑ a ∈ s.toFinset, f a = (s.toList.map f).sum :=
  List.sum_toFinset f s.nodup_toList

/-- Counting in the listing of a set comes to the size of a subset. -/
theorem countP_toList (q : α → Bool) : s.toList.countP q = {a ∈ s.toFinset | q a = true}.card := by
  rw [List.countP_eq_length_filter, ← List.toFinset_card_of_nodup (s.nodup_toList.filter q),
    List.toFinset_filter]
  rfl

/-- What the members of a set contribute is counted for those that contribute something. -/
theorem countP_flatMap_toList {β : Type v} {g : α → List β} {P : α → Prop} [DecidablePred P]
    (hP : ∀ a ∈ s, g a ≠ [] → a ∈ t ∧ P a) (q : β → Bool) :
    (s.toList.flatMap g).countP q = ∑ a ∈ t.toFinset with P a ∧ a ∈ s, (g a).countP q := by
  have hsubset : {a ∈ t.toFinset | P a ∧ a ∈ s} ⊆ s.toFinset := by
    intro a ha
    exact mem_toFinset.2 (Finset.mem_filter.1 ha).2.2
  rw [List.countP_flatMap, ← sum_toFinset]
  symm
  apply Finset.sum_subset hsubset
  intro a ha hnone
  rw [mem_toFinset] at ha
  have hempty : g a = [] := by
    by_contra hne
    obtain ⟨hat, hPa⟩ := hP a ha hne
    exact hnone (Finset.mem_filter.2 ⟨mem_toFinset.2 hat, hPa, ha⟩)
  simp [hempty]

end SortedSet

namespace Problem

/-- The channels open to a station; a station that is not to be packed has none. -/
def openTo (p : Problem) (s : StationId) : Finset Channel :=
  ((p.domain? s).getD SortedSet.empty).toFinset

/-- The pairs of stations that may not share a channel, the larger station in front. -/
def coPairs (p : Problem) (x : Interference) : Finset (StationId × StationId) :=
  {e ∈ p.stationSet.toFinset ×ˢ p.stationSet.toFinset | e.2 < e.1 ∧ e.2 ∈ x.coStations e.1}

/-- The pairs of a station and one that it keeps off the channel above its own. -/
def adjacentPairs (p : Problem) (x : Interference) : Finset (StationId × StationId) :=
  {e ∈ p.stationSet.toFinset ×ˢ p.stationSet.toFinset | e.2 ∈ x.adjacentStations e.1}

variable {p : Problem} {s : StationId} {c : Channel} {D : SortedSet Channel}

theorem openTo_eq (hD : p.domain? s = some D) : p.openTo s = D.toFinset := by
  rw [openTo, hD, Option.getD_some]

theorem mem_channels_of_openTo (hc : c ∈ p.openTo s) : c ∈ p.channels := by
  cases hD : p.domain? s with
  | none => simp [openTo, hD] at hc
  | some D =>
    rw [openTo_eq hD, SortedSet.mem_toFinset] at hc
    exact Domains.mem_channels.2 ⟨s, D, hD, hc⟩

end Problem

/-! ## §2 Clauses That Exclude Two Variables -/

namespace Numbering

variable {n : Numbering} {s t a b : StationId} {c d e f : Channel} {y z : Literal} {k : Clause}

theorem exists_exclusion (hn : n.Fits) (hs : s ∈ n.stations) (ht : t ∈ n.stations)
    (hc : c ∈ n.channels) (hd : d ∈ n.channels) : ∃ k, n.exclusion s c t d = some k := by
  obtain ⟨y, hy⟩ := exists_literal hn hs hc
  obtain ⟨z, hz⟩ := exists_literal hn ht hd
  exact ⟨_, exclusion_eq_some_iff.2 ⟨y, z, hy, hz, rfl⟩⟩

theorem toFinset_notBoth : (notBoth y z).toFinset = {-y, -z} := by
  simp [notBoth]

/-- The literals of a clause that excludes two variables tell the stations and channels it is
about. -/
theorem toFinset_eq_iff_of_exclusion (hn : n.Fits) (hk : n.exclusion s c t d = some k)
    (hy : n.literal? a e = some y) (hz : n.literal? b f = some z) :
    k.toFinset = {-y, -z} ↔
      ((s = a ∧ c = e) ∧ t = b ∧ d = f) ∨ ((s = b ∧ c = f) ∧ t = a ∧ d = e) := by
  have hsame : ∀ {s t : StationId} {c d : Channel} {y z : Literal}, n.literal? s c = some y →
      n.literal? t d = some z → (-y = -z ↔ s = t ∧ c = d) := by
    intro s t c d y z hy hz
    rw [neg_inj]
    constructor
    · rintro rfl
      exact literal?_inj hn hy hz
    · rintro ⟨rfl, rfl⟩
      exact Option.some.inj (hy.symm.trans hz)
  obtain ⟨y', z', hy', hz', rfl⟩ := exclusion_eq_some_iff.1 hk
  rw [toFinset_notBoth, ← Finset.coe_inj, Finset.coe_pair, Finset.coe_pair, Set.pair_eq_pair_iff,
    hsame hy' hy, hsame hz' hz, hsame hy' hz, hsame hz' hy]

/-- The clauses of at most one channel exclude two channels of one station. -/
theorem exclusion_of_mem_atMostOne {row : Nat} (hrow : n.stations.toList[row]? = some s)
    (hk : k ∈ n.atMostOne row) : ∃ c d, n.exclusion s c s d = some k := by
  obtain ⟨⟨i, j⟩, hij, rfl⟩ := List.mem_map.1 hk
  obtain ⟨hi, hj, -⟩ := (mem_laterPairs_iff List.pairwise_lt_range).1 hij
  have hcolumn : ∀ {i}, i ∈ List.range n.numChannels →
      ∃ c, n.literal? s c = some (n.variableAt row i) := fun hi =>
    ⟨_, literal?_at hrow (List.getElem?_eq_getElem (List.mem_range.1 hi))⟩
  obtain ⟨c, hc⟩ := hcolumn hi
  obtain ⟨d, hd⟩ := hcolumn hj
  exact ⟨c, d, exclusion_eq_some_iff.2 ⟨_, _, hc, hd, rfl⟩⟩

/-- A clause of at least one channel excludes nothing. -/
theorem toFinset_atLeastOne_ne (hn : n.Fits) {D : SortedSet Channel}
    (hy : n.literal? a e = some y) : (n.atLeastOne s D).toFinset ≠ {-y, -z} := by
  intro h
  have hmem : -y ∈ n.atLeastOne s D := by
    rw [← List.mem_toFinset, h]
    exact Finset.mem_insert_self _ _
  obtain ⟨c, -, hc⟩ := List.mem_filterMap.1 hmem
  obtain ⟨i, hi, hpos, -⟩ := literal?_range hn hc
  obtain ⟨j, rfl, hpos', -⟩ := literal?_range hn hy
  have hnegated : -(j : Int) = i := hi
  omega

theorem length_atMostOne {row : Nat} :
    (n.atMostOne row).length = n.numChannels * (n.numChannels - 1) / 2 := by
  have hpairs := length_laterPairs (l := List.range n.numChannels)
  rw [List.length_range] at hpairs
  rw [atMostOne, List.length_map, Nat.mul_sub_one]
  omega

end Numbering

/-! ## §3 Counting Clauses -/

namespace Problem

variable {p : Problem} {x : Interference} {s t a b : StationId} {c : Channel} {y z : Literal}

theorem rank_lt_iff {row row' : Nat}
    (hs : (Numbering.ofProblem p).stationRank? s = some row)
    (ht : (Numbering.ofProblem p).stationRank? t = some row') : row' < row ↔ t < s := by
  rw [Numbering.stationRank?_eq_some_iff] at hs ht
  exact SortedSet.lt_iff_of_getElem? ht hs

/-- Of the clauses that exclude two stations on the channels of a set, those that match are counted
by their channels. -/
theorem countP_exclusions {n : Numbering} {D : SortedSet Channel} (up : Channel → Channel)
    (q : Clause → Bool) :
    (D.toList.filterMap fun c => n.exclusion s c t (up c)).countP q =
      {c ∈ D.toFinset | (n.exclusion s c t (up c)).any q = true}.card := by
  rw [List.countP_filterMap, ← SortedSet.countP_toList]
  congr 1
  funext c
  cases n.exclusion s c t (up c) <;> rfl

/-- Clauses on shared channels are counted for each station in front and each channel open to
both. -/
theorem countP_coChannel (hs : s ∈ p.stationSet) (q : Clause → Bool) :
    ((Numbering.ofProblem p).coChannel x p s).countP q =
      ∑ t ∈ p.stationSet.toFinset with t < s ∧ t ∈ x.coStations s,
        {c ∈ p.openTo s ∩ p.openTo t |
          ((Numbering.ofProblem p).exclusion s c t c).any q = true}.card := by
  obtain ⟨D, hD⟩ := mem_stationSet.1 hs
  obtain ⟨row, hrow⟩ := List.getElem?_of_mem hs
  have hrank := Numbering.stationRank?_eq_some_iff (n := Numbering.ofProblem p).2 hrow
  simp only [Numbering.coChannel, hrank, hD]
  -- stations that are not numbered, or come behind, contribute nothing
  rw [SortedSet.countP_flatMap_toList (t := p.stationSet) (P := (· < s))]
  · apply Finset.sum_congr rfl
    intro t ht
    obtain ⟨ht, hlt, -⟩ := Finset.mem_filter.1 ht
    rw [SortedSet.mem_toFinset] at ht
    obtain ⟨D', hD'⟩ := mem_stationSet.1 ht
    obtain ⟨row', hrow'⟩ := List.getElem?_of_mem ht
    have hrank' := Numbering.stationRank?_eq_some_iff (n := Numbering.ofProblem p).2 hrow'
    -- a channel has to be open to both
    have hboth : (D.inter D').toFinset = p.openTo s ∩ p.openTo t := by
      ext c
      simp [openTo_eq hD, openTo_eq hD']
    simp only [hrank', hD', (rank_lt_iff hrank hrank').2 hlt, if_true]
    rw [countP_exclusions, hboth]
  · intro t _ hne
    split at hne
    · rename_i row' D' hrank' hD'
      split at hne
      · rename_i hlt
        exact ⟨mem_stationSet.2 ⟨D', hD'⟩, (rank_lt_iff hrank hrank').1 hlt⟩
      · exact absurd rfl hne
    · exact absurd rfl hne

/-- Clauses on adjacent channels are counted for each station kept off and each channel below one
that is open to it. -/
theorem countP_adjacentChannel (hs : s ∈ p.stationSet) (q : Clause → Bool) :
    ((Numbering.ofProblem p).adjacentChannel x p s).countP q =
      ∑ t ∈ p.stationSet.toFinset with t ∈ x.adjacentStations s,
        {c ∈ p.openTo s | c + 1 ∈ p.openTo t ∧
          ((Numbering.ofProblem p).exclusion s c t (c + 1)).any q = true}.card := by
  obtain ⟨D, hD⟩ := mem_stationSet.1 hs
  simp only [Numbering.adjacentChannel, hD]
  -- a station that is not numbered contributes nothing
  rw [SortedSet.countP_flatMap_toList (t := p.stationSet) (P := fun _ => True)]
  · simp only [true_and]
    apply Finset.sum_congr rfl
    intro t ht
    obtain ⟨D', hD'⟩ := mem_stationSet.1 (SortedSet.mem_toFinset.1 (Finset.mem_filter.1 ht).1)
    -- the upper channel has to be open to the station kept off
    have hbelow : (D.filter fun c => D'.contains (c + 1)).toFinset =
        {c ∈ p.openTo s | c + 1 ∈ p.openTo t} := by
      ext c
      simp [openTo_eq hD, openTo_eq hD']
    have hcount := countP_exclusions (n := Numbering.ofProblem p) (s := s) (t := t)
      (D := D.filter fun c => D'.contains (c + 1)) (· + 1) q
    rw [hbelow, Finset.filter_filter] at hcount
    simp only [hD']
    exact hcount
  · intro t _ hne
    split at hne
    · exact absurd rfl hne
    · rename_i D' hD'
      exact ⟨mem_stationSet.2 ⟨D', hD'⟩, trivial⟩

/-- The clauses of a formula are counted station by station. -/
theorem countP_encode (hempty : ¬ p.hasEmptyDomain = true) {q : Clause → Bool}
    {f : StationId → Nat}
    (hf : ∀ (row : Nat) s D, p.domains.toList[row]? = some (s, D) →
      (p.stationClauses x row s D).countP q = f s) :
    (p.encode x).clauses.countP q = ∑ s ∈ p.stationSet.toFinset, f s := by
  have hclauses : ∀ e ∈ p.domains.toList.zipIdx,
      (p.stationClauses x e.2 e.1.1 e.1.2).countP q = f e.1.1 :=
    fun e he => hf e.2 e.1.1 e.1.2 (List.mem_zipIdx_iff_getElem?.1 he)
  rw [encode, if_neg hempty, List.countP_flatMap, SortedSet.sum_toFinset]
  calc _ = (p.domains.toList.zipIdx.map ((fun e => f e.1) ∘ (·.1))).sum :=
        congrArg List.sum (List.map_congr_left hclauses)
    _ = (p.domains.toList.map fun e => f e.1).sum := by rw [← List.map_map, List.zipIdx_map_fst]
    _ = ((p.domains.toList.map (·.1)).map f).sum := by rw [List.map_map]; rfl

/-! ## §4 The Census -/

/-- The clauses of one station that exclude two others on one channel are among those on shared
channels. -/
theorem countP_stationClauses_pair (hp : (Numbering.ofProblem p).Fits) (hab : a ≠ b)
    (hy : (Numbering.ofProblem p).literal? a c = some y)
    (hz : (Numbering.ofProblem p).literal? b c = some z) {row : Nat} {D : SortedSet Channel}
    (hrow : p.domains.toList[row]? = some (s, D)) :
    (p.stationClauses x row s D).countP (fun k => k.toFinset = {-y, -z}) =
      ((Numbering.ofProblem p).coChannel x p s).countP (fun k => k.toFinset = {-y, -z}) := by
  -- the other families exclude one station twice, or two channels, or nothing
  have hmost : ((Numbering.ofProblem p).atMostOne row).countP
      (fun k => k.toFinset = {-y, -z}) = 0 := by
    rw [List.countP_eq_zero]
    intro k hk hkey
    obtain ⟨d, e, hk⟩ := Numbering.exclusion_of_mem_atMostOne (getElem?_stations.2 ⟨D, hrow⟩) hk
    obtain ⟨⟨hsa, -⟩, hsb, -⟩ | ⟨⟨hsb, -⟩, hsa, -⟩ :=
      (Numbering.toFinset_eq_iff_of_exclusion hp hk hy hz).1 (of_decide_eq_true hkey)
    · exact hab (hsa.symm.trans hsb)
    · exact hab (hsa.symm.trans hsb)
  have hadjacent : ((Numbering.ofProblem p).adjacentChannel x p s).countP
      (fun k => k.toFinset = {-y, -z}) = 0 := by
    rw [List.countP_eq_zero]
    intro k hk hkey
    obtain ⟨t, -, E, D', -, -, d, -, -, hk⟩ := Numbering.mem_adjacentChannel.1 hk
    obtain ⟨⟨-, rfl⟩, -, hd⟩ | ⟨⟨-, rfl⟩, -, hd⟩ :=
      (Numbering.toFinset_eq_iff_of_exclusion hp hk hy hz).1 (of_decide_eq_true hkey)
    · exact (Int.lt_succ d).ne' hd
    · exact (Int.lt_succ d).ne' hd
  have hleast := Numbering.toFinset_atLeastOne_ne (s := s) (z := z) hp (D := D) hy
  simp only [stationClauses, List.countP_append, List.countP_cons, hmost, hadjacent, hleast]
  simp

/-- Two stations and a channel have one clause on shared channels if they may not share it, and none
otherwise. -/
theorem countP_encode_pair (hp : (Numbering.ofProblem p).Fits)
    (hempty : ¬ p.hasEmptyDomain = true) (ha : a ∈ p.stationSet) (hb : b ∈ p.stationSet)
    (hba : b < a) (hy : (Numbering.ofProblem p).literal? a c = some y)
    (hz : (Numbering.ofProblem p).literal? b c = some z) :
    (p.encode x).clauses.countP (fun k => k.toFinset = {-y, -z}) =
      if b ∈ x.coStations a ∧ c ∈ p.openTo a ∧ c ∈ p.openTo b then 1 else 0 := by
  have hmatch : ∀ s ∈ p.stationSet, ∀ t ∈ p.stationSet, t < s → ∀ d ∈ p.openTo s ∩ p.openTo t,
      (((Numbering.ofProblem p).exclusion s d t d).any (fun k => k.toFinset = {-y, -z}) = true ↔
        s = a ∧ t = b ∧ d = c) := by
    intro s hs t ht hlt d hd
    have hd := mem_channels_of_openTo (Finset.mem_inter.1 hd).1
    obtain ⟨k, hk⟩ := Numbering.exists_exclusion hp hs ht hd hd
    rw [hk, Option.any_some, decide_eq_true_iff,
      Numbering.toFinset_eq_iff_of_exclusion hp hk hy hz]
    constructor
    · intro h
      obtain ⟨⟨hsa, hdc⟩, htb, -⟩ | ⟨⟨hsb, -⟩, hta, -⟩ := h
      · exact ⟨hsa, htb, hdc⟩
      -- the smaller station stands behind the other one
      · rw [hsb, hta] at hlt
        exact absurd hba (Nat.lt_asymm hlt)
    · intro h
      obtain ⟨hsa, htb, hdc⟩ := h
      exact .inl ⟨⟨hsa, hdc⟩, htb, hdc⟩
  have hstation : ∀ s ∈ p.stationSet.toFinset,
      ((Numbering.ofProblem p).coChannel x p s).countP (fun k => k.toFinset = {-y, -z}) =
        ∑ t ∈ p.stationSet.toFinset with t < s ∧ t ∈ x.coStations s,
          ∑ d ∈ p.openTo s ∩ p.openTo t, if s = a ∧ t = b ∧ d = c then 1 else 0 := by
    intro s hs
    rw [SortedSet.mem_toFinset] at hs
    rw [countP_coChannel hs]
    apply Finset.sum_congr rfl
    intro t ht
    obtain ⟨ht, hlt, -⟩ := Finset.mem_filter.1 ht
    rw [Finset.filter_congr (hmatch s hs t (SortedSet.mem_toFinset.1 ht) hlt), Finset.card_filter]
  rw [countP_encode hempty fun row s D hrow =>
    countP_stationClauses_pair hp (Nat.ne_of_gt hba) hy hz hrow, Finset.sum_congr rfl hstation]
  simp only [ite_and, Finset.sum_ite_irrel, Finset.sum_const_zero, Finset.sum_ite_eq']
  simp [ha, hb, hba, ← ite_and]

theorem length_coChannel (hp : (Numbering.ofProblem p).Fits) (hs : s ∈ p.stationSet) :
    ((Numbering.ofProblem p).coChannel x p s).length =
      ∑ t ∈ p.stationSet.toFinset with t < s ∧ t ∈ x.coStations s,
        (p.openTo s ∩ p.openTo t).card := by
  rw [← List.countP_true, countP_coChannel hs]
  apply Finset.sum_congr rfl
  intro t ht
  rw [Finset.filter_true_of_mem]
  intro c hc
  have hc := mem_channels_of_openTo (Finset.mem_inter.1 hc).1
  obtain ⟨k, hk⟩ := Numbering.exists_exclusion hp hs
    (SortedSet.mem_toFinset.1 (Finset.mem_filter.1 ht).1) hc hc
  rw [hk, Option.any_some]

theorem length_adjacentChannel (hp : (Numbering.ofProblem p).Fits) (hs : s ∈ p.stationSet) :
    ((Numbering.ofProblem p).adjacentChannel x p s).length =
      ∑ t ∈ p.stationSet.toFinset with t ∈ x.adjacentStations s,
        {c ∈ p.openTo s | c + 1 ∈ p.openTo t}.card := by
  rw [← List.countP_true, countP_adjacentChannel hs]
  apply Finset.sum_congr rfl
  intro t ht
  congr 1
  apply Finset.filter_congr
  intro c hc
  simp only [and_iff_left_iff_imp]
  intro habove
  obtain ⟨k, hk⟩ := Numbering.exists_exclusion hp hs
    (SortedSet.mem_toFinset.1 (Finset.mem_filter.1 ht).1) (mem_channels_of_openTo hc)
    (mem_channels_of_openTo habove)
  rw [hk, Option.any_some]

/-- The number of clauses of an encoding. -/
theorem numClauses_encode (hp : (Numbering.ofProblem p).Fits) (hempty : ¬ p.hasEmptyDomain = true) :
    (p.encode x).numClauses = p.size * p.channels.size * (p.channels.size - 1) / 2 + p.size +
      ∑ e ∈ p.coPairs x, (p.openTo e.1 ∩ p.openTo e.2).card +
      ∑ e ∈ p.adjacentPairs x, {c ∈ p.openTo e.1 | c + 1 ∈ p.openTo e.2}.card := by
  -- each station adds up its four families
  have hstation : ∀ (row : Nat) s D, p.domains.toList[row]? = some (s, D) →
      (p.stationClauses x row s D).countP (fun _ => true) =
        p.channels.size * (p.channels.size - 1) / 2 + 1 +
          (∑ t ∈ p.stationSet.toFinset with t < s ∧ t ∈ x.coStations s,
            (p.openTo s ∩ p.openTo t).card) +
          ∑ t ∈ p.stationSet.toFinset with t ∈ x.adjacentStations s,
            {c ∈ p.openTo s | c + 1 ∈ p.openTo t}.card := by
    intro row s D hrow
    have hs : s ∈ p.stationSet := mem_stationSet.2
      ⟨D, SortedMap.get?_eq_some_iff.2 (List.mem_of_getElem? hrow)⟩
    rw [List.countP_true, stationClauses, List.length_append, List.length_append,
      List.length_cons, length_coChannel hp hs, length_adjacentChannel hp hs,
      Numbering.length_atMostOne]
    show _ + (_ + 1) + _ = _
    have hchannels : (Numbering.ofProblem p).numChannels = p.channels.size := rfl
    rw [hchannels]
    omega
  have hsize : p.stationSet.toFinset.card = p.size := by
    rw [SortedSet.card_toFinset]
    exact List.length_map _
  -- of `n` and `n - 1` one is even, so the half may be taken before or after
  have hhalf : p.size * (p.channels.size * (p.channels.size - 1) / 2) =
      p.size * p.channels.size * (p.channels.size - 1) / 2 := by
    rw [← Nat.mul_div_assoc _ (Nat.even_mul_pred_self _).two_dvd, Nat.mul_assoc]
  rw [Cnf.numClauses, ← List.countP_true, countP_encode hempty hstation]
  simp only [Finset.sum_add_distrib, Finset.sum_const, hsize, smul_eq_mul, hhalf, mul_one, coPairs,
    adjacentPairs, Finset.sum_filter, Finset.sum_product]

/-- The census of an encoding.  Two stations and a channel have one clause that excludes them if the
stations may not share a channel and this one is open to both, and none otherwise.  The clauses are
those of at most one channel, those of at least one, one for each channel open to two stations that
may not share it, and one for each channel on which a station keeps another off the one above. -/
theorem census_encode (p : Problem) (x : Interference) (hp : (Numbering.ofProblem p).Fits)
    (hempty : ¬ p.hasEmptyDomain = true) :
    (∀ a ∈ p.stationSet, ∀ b ∈ p.stationSet, a ≠ b → ∀ c ∈ p.channels,
      ∃ y z, (Numbering.ofProblem p).literal? a c = some y ∧
        (Numbering.ofProblem p).literal? b c = some z ∧
        (p.encode x).clauses.countP (fun k => k.toFinset = {-y, -z}) =
          if b ∈ x.coStations a ∧ c ∈ p.openTo a ∧ c ∈ p.openTo b then 1 else 0) ∧
    (p.encode x).numClauses = p.size * p.channels.size * (p.channels.size - 1) / 2 + p.size +
      ∑ e ∈ p.coPairs x, (p.openTo e.1 ∩ p.openTo e.2).card +
      ∑ e ∈ p.adjacentPairs x, {c ∈ p.openTo e.1 | c + 1 ∈ p.openTo e.2}.card := by
  refine ⟨?_, numClauses_encode hp hempty⟩
  intro a ha b hb hab c hc
  obtain ⟨y, hy⟩ := Numbering.exists_literal hp ha hc
  obtain ⟨z, hz⟩ := Numbering.exists_literal hp hb hc
  refine ⟨y, z, hy, hz, ?_⟩
  rcases Nat.lt_or_gt_of_ne hab with hlt | hlt
  -- the clause belongs to the larger station, so the two change places
  · have hswap := countP_encode_pair (x := x) hp hempty hb ha hlt hz hy
    have hsymm : a ∈ x.coStations b ↔ b ∈ x.coStations a := ⟨x.co_symm, x.co_symm⟩
    simpa only [Finset.pair_comm, hsymm, and_comm (a := c ∈ p.openTo a)] using hswap
  · exact countP_encode_pair hp hempty ha hb hlt hy hz

/-- Three stations, each of which has a channel in common with the next one. -/
def chain : Problem :=
  ofDomains (SortedMap.ofList [(1, SortedSet.ofList [14]), (2, SortedSet.ofList [14, 15]),
    (3, SortedSet.ofList [15, 16])]) SortedMap.empty

/-- The first two stations of the chain may not share a channel, and the middle one keeps the last
one and itself off the channel above. -/
def chainInterference : Interference :=
  ((Interference.none.addCo 1 2).addAdjacent 2 2).addAdjacent 2 3

theorem census_encode_chain :
    ((Numbering.ofProblem chain).Fits ∧ ¬ chain.hasEmptyDomain = true) ∧
      (∃ y z, (Numbering.ofProblem chain).literal? 1 14 = some y ∧
        (Numbering.ofProblem chain).literal? 2 14 = some z ∧
        (chain.encode chainInterference).clauses.countP (fun k => k.toFinset = {-y, -z}) = 1) ∧
      (chain.encode chainInterference).numClauses = 3 * 3 * (3 - 1) / 2 + 3 + 1 + 3 := by
  have hp : (Numbering.ofProblem chain).Fits := by decide
  have hempty : ¬ chain.hasEmptyDomain = true := by decide
  obtain ⟨hclauses, hnumber⟩ := census_encode chain chainInterference hp hempty
  have hfirst := hclauses 1 (by decide) 2 (by decide) (by decide) 14 (by decide)
  rw [if_pos (by decide)] at hfirst
  exact ⟨⟨hp, hempty⟩, hfirst, hnumber⟩

end Problem

end SpectrumPacking
