import Mathlib.Data.List.Perm.Subperm
import Mathlib.Tactic.Linarith
import Mathlib.Tactic.Ring
import SpectrumPacking.Proofs.Encoding.Models
import SpectrumPacking.Proofs.Formula.Texts

/-!
# Encodings as Texts

The formula of a problem has so few clauses that even their number fits into a machine word
(`Problem.fitsWords_encode`), and the comments that name a problem are single lines.  So the text of
an encoding reads back as the encoding, like that of every well-formed formula
(`Problem.ofDimacs_toDimacs`).
-/

namespace SpectrumPacking

universe u v

/-! ## §1 Counting Clauses -/

theorem length_flatMap_le {α : Type u} {β : Type v} {g : α → List β} {l : List α} {k : Nat}
    (h : ∀ a ∈ l, (g a).length ≤ k) : (l.flatMap g).length ≤ l.length * k := by
  induction l with
  | nil => simp
  | cons a l ih =>
    rw [List.flatMap_cons, List.length_append, List.length_cons, Nat.add_mul, Nat.one_mul]
    have hfirst := h a (by simp)
    have hrest := ih fun b hb => h b (List.mem_cons_of_mem a hb)
    omega

/-- Only members that contribute something count. -/
theorem length_flatMap_le_of_mem {α : Type u} {β : Type v} [DecidableEq α] {g : α → List β}
    {l m : List α} {k : Nat} (hl : l.Nodup) (hm : ∀ a ∈ l, g a ≠ [] → a ∈ m)
    (hk : ∀ a ∈ l, (g a).length ≤ k) : (l.flatMap g).length ≤ m.length * k := by
  induction l generalizing m with
  | nil => simp
  | cons a l ih =>
    rw [List.nodup_cons] at hl
    have hrest := fun b hb => hk b (List.mem_cons_of_mem a hb)
    by_cases ha : g a = []
    · rw [List.flatMap_cons, ha, List.nil_append]
      exact ih hl.2 (fun b hb => hm b (List.mem_cons_of_mem a hb)) hrest
    · have hmem := hm a (by simp) ha
      -- one member of `m` is spent on the head
      have herase : (l.flatMap g).length ≤ (m.erase a).length * k := by
        apply ih hl.2 _ hrest
        intro b hb hne
        have hba : b ≠ a := fun h => hl.1 (h ▸ hb)
        exact (List.mem_erase_of_ne hba).2 (hm b (List.mem_cons_of_mem a hb) hne)
      have hfirst := hk a (by simp)
      have hpos := List.length_pos_of_mem hmem
      rw [List.flatMap_cons, List.length_append]
      calc (g a).length + (l.flatMap g).length
          ≤ k + (m.length - 1) * k := by
            rw [List.length_erase_of_mem hmem] at herase
            omega
        _ = (m.length - 1 + 1) * k := by rw [Nat.add_mul, Nat.one_mul, Nat.add_comm]
        _ = m.length * k := by rw [Nat.sub_add_cancel hpos]

namespace Numbering

variable {n : Numbering} {s t : StationId} {c : Channel} {x : Interference} {p : Problem}

theorem length_laterPairs {α : Type} {l : List α} :
    2 * (laterPairs l).length + l.length = l.length * l.length := by
  induction l with
  | nil => rfl
  | cons a l ih =>
    simp only [laterPairs, List.length_append, List.length_map, List.length_cons]
    nlinarith

theorem length_atMostOne_le {row : Nat} :
    (n.atMostOne row).length ≤ n.numChannels * n.numChannels := by
  have hpairs := length_laterPairs (l := List.range n.numChannels)
  rw [List.length_range] at hpairs
  rw [atMostOne, List.length_map]
  omega

end Numbering

namespace Problem

variable {p : Problem} {x : Interference} {s : StationId} {D : SortedSet Channel}

/-- A domain has at most as many channels as the problem. -/
theorem size_domain_le (hD : p.domain? s = some D) : D.size ≤ p.channels.size :=
  (List.subperm_of_subset D.nodup_toList fun _ hc =>
    Domains.mem_channels.2 ⟨s, D, hD, hc⟩).length_le

theorem length_coChannel_le :
    ((Numbering.ofProblem p).coChannel x p s).length ≤ (Numbering.ofProblem p).size := by
  unfold Numbering.coChannel
  split
  · rename_i row D hrow hD
    apply length_flatMap_le_of_mem (SortedSet.nodup_toList _)
    · -- only numbered stations share a channel with `s`
      intro t _ hne
      split at hne
      · rename_i row' D' hrow' _
        exact List.mem_of_getElem? (Numbering.stationRank?_eq_some_iff.1 hrow')
      · exact absurd rfl hne
    · intro t _
      split
      · rename_i row' D' _ _
        split
        · have hinter : (D.inter D').toList.length ≤ D.size := List.length_filter_le ..
          exact (List.length_filterMap_le ..).trans (hinter.trans (size_domain_le hD))
        · simp
      · simp
  · simp

theorem length_adjacentChannel_le :
    ((Numbering.ofProblem p).adjacentChannel x p s).length ≤ (Numbering.ofProblem p).size := by
  unfold Numbering.adjacentChannel
  split
  · simp
  · rename_i D hD
    apply length_flatMap_le_of_mem (SortedSet.nodup_toList _)
    · intro t _ hne
      split at hne
      · exact absurd rfl hne
      · rename_i D' hD'
        exact mem_stationSet.2 ⟨D', hD'⟩
    · intro t _
      split
      · simp
      · exact (List.length_filterMap_le ..).trans
          ((List.length_filter_le ..).trans (size_domain_le hD))

theorem length_stationClauses_le {row : Nat} :
    (p.stationClauses x row s D).length
      ≤ p.channels.size * p.channels.size + 1 + 2 * (Numbering.ofProblem p).size := by
  have hmost : ((Numbering.ofProblem p).atMostOne row).length
      ≤ (Numbering.ofProblem p).numChannels * (Numbering.ofProblem p).numChannels :=
    Numbering.length_atMostOne_le
  have hco := length_coChannel_le (p := p) (x := x) (s := s)
  have hadjacent := length_adjacentChannel_le (p := p) (x := x) (s := s)
  have hchannels : (Numbering.ofProblem p).numChannels = p.channels.size := rfl
  rw [hchannels] at hmost
  simp only [stationClauses, List.length_append, List.length_cons]
  omega

/-- Tables of less than `2 ^ 31` cells bound the number of clauses by less than `2 ^ 64`. -/
theorem clauseBound_lt {a b : Nat} (h : a * b < 2 ^ 31) (hb : 0 < b) :
    a * (b * b + 1 + 2 * (a * b)) < 2 ^ 64 := by
  rcases Nat.eq_zero_or_pos a with rfl | ha
  · simp
  · have hrows : a ≤ a * b := Nat.le_mul_of_pos_right a hb
    have hcolumns : b ≤ a * b := Nat.le_mul_of_pos_left b ha
    have hmost : a * b * b ≤ a * b * (a * b) := Nat.mul_le_mul_left _ hcolumns
    have hpairs : a * (a * b) ≤ a * b * (a * b) := Nat.mul_le_mul_right _ hrows
    have hsquare : a * b * (a * b) ≤ (2 ^ 31 - 1) * (2 ^ 31 - 1) :=
      Nat.mul_le_mul (by omega) (by omega)
    calc a * (b * b + 1 + 2 * (a * b))
        = a * b * b + a + 2 * (a * (a * b)) := by ring
      _ ≤ 3 * (a * b * (a * b)) + a * b := by omega
      _ < 2 ^ 64 := by omega

/-- Without empty domains, a problem with stations has channels. -/
theorem channels_pos (hsome : 0 < p.size) (hempty : ¬ p.hasEmptyDomain = true) :
    0 < p.channels.size := by
  obtain ⟨⟨s, D⟩, hD⟩ := List.exists_mem_of_length_pos hsome
  have hD := SortedMap.get?_eq_some_iff.2 hD
  refine Nat.lt_of_lt_of_le ?_ (size_domain_le hD)
  rw [Nat.pos_iff_ne_zero]
  intro hzero
  have hnone : D = SortedSet.empty :=
    SortedSet.isEmpty_iff.1 (by simpa [SortedSet.isEmpty, SortedSet.size] using hzero)
  exact hempty (hasEmptyDomain_iff.2 ⟨s, hnone ▸ hD⟩)

/-- The number of clauses fits into a machine word when the variables fit into theirs. -/
theorem numClauses_encode_lt (hp : (Numbering.ofProblem p).Fits) :
    (p.encode x).numClauses < 2 ^ 64 := by
  unfold encode
  split
  · decide
  · rename_i hempty
    have hsize : (Numbering.ofProblem p).size = p.size * p.channels.size := by
      show p.domains.keys.length * _ = _
      rw [SortedMap.keys, List.length_map]
      rfl
    have hp : p.size * p.channels.size < 2 ^ 31 := hsize ▸ hp
    refine Nat.lt_of_le_of_lt (length_flatMap_le
      (k := p.channels.size * p.channels.size + 1 + 2 * (Numbering.ofProblem p).size) ?_) ?_
    · rintro ⟨⟨s, D⟩, row⟩ -
      exact length_stationClauses_le
    · rw [List.length_zipIdx, hsize]
      show p.size * _ < _
      -- without stations the formula has no clauses; otherwise the bound holds for the product
      rcases Nat.eq_zero_or_pos p.size with hnone | hsome
      · simp [hnone]
      · exact clauseBound_lt hp (channels_pos hsome hempty)

/-! ## §2 Texts of Encodings -/

/-- The numbers of an encoding fit into machine words. -/
theorem fitsWords_encode (hp : (Numbering.ofProblem p).Fits) : (p.encode x).FitsWords := by
  have hvariables : (p.encode x).numVariables < 2 ^ 31 := by
    unfold encode
    split
    · decide
    · exact hp
  refine ⟨by omega, numClauses_encode_lt hp, ?_⟩
  intro c hc y hy
  obtain ⟨-, hle⟩ := isWellFormed_encode hp c hc y hy
  simp only [Text.Numeral.fitsSigned, Bool.and_eq_true, decide_eq_true_eq]
  omega

/-- The comments that name a problem are single lines. -/
theorem not_newline_mem_comments : ∀ t ∈ p.comments, ¬ '\n' ∈ t := by
  have hstations : ¬ '\n' ∈ [' '].intercalate (p.stations.map Text.Numeral.ofNat) := by
    apply Cnf.not_newline_mem_joined
    intro w hw
    obtain ⟨s, -, rfl⟩ := List.mem_map.1 hw
    exact Text.Numeral.not_mem_ofNat (by decide)
  have hchannels : ¬ '\n' ∈ [' '].intercalate (p.channels.toList.map Text.Numeral.ofInt) := by
    apply Cnf.not_newline_mem_joined
    intro w hw
    obtain ⟨c, -, rfl⟩ := List.mem_map.1 hw
    exact Text.Numeral.not_mem_ofInt (by decide) (by decide)
  intro t ht
  simp only [comments, List.mem_cons, List.not_mem_nil, or_false] at ht
  rcases ht with rfl | rfl | rfl
  · decide
  · simpa using hstations
  · simpa using hchannels

/-- The text of a formula reads back as the formula if this is well-formed, and is refused if not.
The encoding of a problem is well-formed, so its text with the comments that name the problem reads
back. -/
theorem ofDimacs_toDimacs :
    (∀ (f : Cnf) (comments : List (List Char)), f.FitsWords → (∀ t ∈ comments, ¬ '\n' ∈ t) →
      (f.IsWellFormed → Cnf.ofDimacs (f.toDimacs comments) = .ok f) ∧
        (¬ f.IsWellFormed → ∃ e, Cnf.ofDimacs (f.toDimacs comments) = .error e)) ∧
      ∀ (p : Problem) (x : Interference), (Numbering.ofProblem p).Fits →
        Cnf.ofDimacs ((p.encode x).toDimacs p.comments) = .ok (p.encode x) := by
  constructor
  · intro f comments hf hcomments
    refine ⟨fun hwf => Cnf.ofDimacs_toDimacs_of_isWellFormed hf hwf hcomments, ?_⟩
    intro hwf
    cases hread : Cnf.ofDimacs (f.toDimacs comments) with
    | error e => exact ⟨e, rfl⟩
    | ok g => exact absurd (Cnf.isWellFormed_of_ofDimacs_toDimacs hf hcomments hread) hwf
  · intro p x hp
    exact Cnf.ofDimacs_toDimacs_of_isWellFormed (fitsWords_encode hp) (isWellFormed_encode hp)
      not_newline_mem_comments

/-- A formula with an empty clause and a negated last variable, one with a zero in a clause, one
with a literal that is not declared, and the encoding of two stations that may not share a
channel. -/
theorem ofDimacs_toDimacs_four :
    Cnf.ofDimacs (Cnf.toDimacs ⟨3, [[1, -3], [], [-3]]⟩ ["p cnf 0 0".toList])
        = .ok ⟨3, [[1, -3], [], [-3]]⟩ ∧
      (∃ e, Cnf.ofDimacs (Cnf.toDimacs ⟨1, [[1, 0, 1]]⟩ []) = .error e) ∧
      (∃ e, Cnf.ofDimacs (Cnf.toDimacs ⟨1, [[-2147483648]]⟩ []) = .error e) ∧
      let p := ofDomains
        (SortedMap.ofList [(1, SortedSet.ofList [14]), (2, SortedSet.ofList [14, 15])])
        SortedMap.empty
      Cnf.ofDimacs ((p.encode (Interference.none.addCo 1 2)).toDimacs p.comments)
        = .ok (p.encode (Interference.none.addCo 1 2)) := by
  have hformulas := ofDimacs_toDimacs.1
  refine ⟨(hformulas ⟨3, [[1, -3], [], [-3]]⟩ ["p cnf 0 0".toList] ⟨by decide, by decide, by decide⟩
      (by decide)).1 (by unfold Cnf.IsWellFormed; decide),
    (hformulas ⟨1, [[1, 0, 1]]⟩ [] ⟨by decide, by decide, by decide⟩ (by decide)).2 ?_,
    (hformulas ⟨1, [[-2147483648]]⟩ [] ⟨by decide, by decide, by decide⟩ (by decide)).2 ?_,
    ofDimacs_toDimacs.2 _ _ (by decide)⟩
  · intro h
    exact (h [1, 0, 1] (by decide) 0 (by decide)).1 rfl
  · intro h
    exact absurd (h [-2147483648] (by decide) (-2147483648) (by decide)).2 (by decide)

end Problem

end SpectrumPacking
