import Mathlib.Data.List.Perm.Subperm
import SpectrumPacking.Encoding.Decode
import SpectrumPacking.Proofs.Encoding.Models
import SpectrumPacking.Proofs.Formula.Signings

/-!
# What Decoding Accepts

Decoding accepts the lists that give every variable one sign and every station one channel of its
domain (`Problem.decode_eq_ok_iff`).  Whatever the literals are, what it returns has every station
on one channel of its domain (`Problem.isPacking_of_decode`).

A model of a formula can be written down as the list of its literals from variable 1 on.  Decoding
takes the lists of the models of an encoding to the packings of the problem, one to one
(`Problem.decode_bijOn_modelLists`).
-/

namespace SpectrumPacking

open Problem (trueChannels channelOf place)

/-! ## §1 Signs -/

/-- The list names every variable of the numbering once, with a sign, and nothing else. -/
def Numbering.IsSigning (n : Numbering) (l : List Literal) : Prop :=
  (l.map Int.natAbs).Perm (List.range' 1 n.size)

theorem exists_signs_iff {bound : Nat} {seen : SortedMap Nat Bool} {l : List Literal} :
    (∃ values, signs bound seen l = .ok values) ↔
      (∀ x ∈ l, x ≠ 0 ∧ x.natAbs ≤ bound) ∧ (l.map Int.natAbs).Nodup ∧
        ∀ x ∈ l, ¬ seen.contains x.natAbs = true := by
  induction l generalizing seen with
  | nil => simp [signs]
  | cons x rest ih =>
    rw [signs]
    -- a literal out of range ends the reading, and so does a variable that was seen before
    split
    · rename_i h
      simp only [reduceCtorEq, exists_false, List.forall_mem_cons, false_iff]
      rintro ⟨⟨⟨hne, hle⟩, -⟩, -⟩
      rcases h with h | h
      · exact hne h
      · exact absurd hle (Nat.not_le.2 h)
    · rename_i hrange
      have hrange : x ≠ 0 ∧ x.natAbs ≤ bound := by
        rwa [not_or, Nat.not_lt] at hrange
      split
      · rename_i h
        simp only [reduceCtorEq, exists_false, List.forall_mem_cons, false_iff]
        rintro ⟨-, -, hseen, -⟩
        exact hseen h
      · rename_i hseen
        rw [ih]
        simp only [List.forall_mem_cons, List.map_cons, List.nodup_cons, List.mem_map,
          SortedMap.contains, SortedMap.get?_insert]
        constructor
        · rintro ⟨hbound, hnodup, hnew⟩
          refine ⟨⟨hrange, hbound⟩, ⟨?_, hnodup⟩, hseen, ?_⟩
          · rintro ⟨y, hy, hyx⟩
            have := hnew y hy
            simp [hyx] at this
          · intro y hy hyseen
            have := hnew y hy
            split at this
            · simp at this
            · exact this hyseen
        · rintro ⟨⟨-, hbound⟩, ⟨hfirst, hnodup⟩, -, hold⟩
          refine ⟨hbound, hnodup, ?_⟩
          intro y hy
          split
          · rename_i hyx
            exact absurd ⟨y, hy, hyx.symm⟩ hfirst
          · exact hold y hy

theorem get?_signs {bound : Nat} {seen values : SortedMap Nat Bool} {l : List Literal}
    (h : signs bound seen l = .ok values) {k : Nat} {b : Bool} :
    values.get? k = some b ↔ seen.get? k = some b ∨ ∃ x ∈ l, x.natAbs = k ∧ decide (0 < x) = b := by
  induction l generalizing seen with
  | nil =>
    cases h
    simp
  | cons x rest ih =>
    rw [signs] at h
    split at h
    · cases h
    · split at h
      · cases h
      · rename_i hseen
        -- a variable that has its sign gets no other
        rw [ih h, SortedMap.get?_insert]
        simp only [List.exists_mem_cons_iff]
        split
        · rename_i hxk
          have hnone : seen.get? k = none := by
            rw [← hxk]
            simpa [SortedMap.contains] using hseen
          simp [hxk, hnone]
        · rename_i hxk
          simp [hxk]

theorem length_eq_and_exists_signs_iff {n : Numbering} {l : List Literal} :
    (l.length = n.size ∧ ∃ values, signs n.size SortedMap.empty l = .ok values) ↔
      n.IsSigning l := by
  rw [exists_signs_iff, Numbering.IsSigning]
  constructor
  · rintro ⟨hlength, hrange, hnodup, -⟩
    -- as many different numbers from 1 to the size as there are, so all of them
    have hsubset : l.map Int.natAbs ⊆ List.range' 1 n.size := by
      intro k hk
      obtain ⟨x, hx, rfl⟩ := List.mem_map.1 hk
      obtain ⟨hne, hle⟩ := hrange x hx
      rw [List.mem_range'_1]
      exact ⟨Int.natAbs_pos.2 hne, by omega⟩
    apply (List.subperm_of_subset hnodup hsubset).perm_of_length_le
    simp [hlength]
  · intro h
    refine ⟨by simpa using h.length_eq, ?_, h.nodup_iff.2 List.nodup_range', ?_⟩
    · intro x hx
      obtain ⟨hpos, hlt⟩ := List.mem_range'_1.1 (h.subset (List.mem_map_of_mem hx))
      exact ⟨Int.natAbs_pos.1 hpos, by omega⟩
    · intro x _ hx
      cases hx

/-! ## §2 Channels -/

theorem channelOf_eq_ok_iff {s : StationId} {domain : SortedSet Channel} {l : List Channel}
    {c : Channel} : channelOf s domain l = .ok c ↔ l = [c] ∧ c ∈ domain := by
  unfold channelOf
  split
  · simp
  · rename_i d
    split
    · rename_i h
      rw [SortedSet.contains_iff] at h
      simp only [Except.ok.injEq, List.cons.injEq, and_true]
      constructor
      · rintro rfl
        exact ⟨rfl, h⟩
      · exact fun h => h.1
    · rename_i h
      rw [SortedSet.contains_iff] at h
      simp only [reduceCtorEq, List.cons.injEq, and_true, false_iff]
      rintro ⟨rfl, hc⟩
      exact h hc
  · simp

section Place

variable {n : Numbering} {values : SortedMap Nat Bool}

theorem exists_place {a : Assignment} {l : List (StationId × SortedSet Channel)}
    (h : ∀ s D, (s, D) ∈ l → ∃ c, channelOf s D (trueChannels n values s) = .ok c) :
    ∃ a', place n values a l = .ok a' := by
  induction l generalizing a with
  | nil => exact ⟨a, rfl⟩
  | cons e rest ih =>
    obtain ⟨s, D⟩ := e
    obtain ⟨c, hc⟩ := h s D (by simp)
    simp only [place, hc]
    exact ih fun t E hE => h t E (List.mem_cons_of_mem _ hE)

/-- What placing returns, and that it does so only if every station has its channel. -/
theorem on_place {a a' : Assignment} {l : List (StationId × SortedSet Channel)}
    (h : place n values a l = .ok a') :
    (∀ s D, (s, D) ∈ l → ∃ c, channelOf s D (trueChannels n values s) = .ok c) ∧
      ∀ s c, a'.On s c ↔
        a.On s c ∨ ∃ D, (s, D) ∈ l ∧ channelOf s D (trueChannels n values s) = .ok c := by
  induction l generalizing a with
  | nil =>
    cases h
    simp
  | cons e rest ih =>
    obtain ⟨s, D⟩ := e
    rw [place] at h
    split at h
    · cases h
    · rename_i c hc
      obtain ⟨hall, hon⟩ := ih h
      constructor
      · intro t E hE
        rcases List.mem_cons.1 hE with heq | hE
        · cases heq
          exact ⟨c, hc⟩
        · exact hall t E hE
      · intro t d
        rw [hon, Assignment.on_put]
        simp only [List.mem_cons, Prod.mk.injEq]
        -- what is placed was there before, is placed now, or is placed later
        constructor
        · rintro ((⟨rfl, rfl⟩ | hd) | ⟨E, hE, hd⟩)
          · exact Or.inr ⟨D, Or.inl ⟨rfl, rfl⟩, hc⟩
          · exact Or.inl hd
          · exact Or.inr ⟨E, Or.inr hE, hd⟩
        · rintro (hd | ⟨E, ⟨rfl, rfl⟩ | hE, hd⟩)
          · exact Or.inl (Or.inr hd)
          · rw [hc] at hd
            exact Or.inl (Or.inl ⟨rfl, (Except.ok.inj hd).symm⟩)
          · exact Or.inr ⟨E, hE, hd⟩

theorem isNormal_place {a a' : Assignment} {l : List (StationId × SortedSet Channel)}
    (ha : a.IsNormal) (hl : l.Pairwise fun e e' => e.1 < e'.1)
    (hnew : ∀ e ∈ l, ∀ d, ¬ a.On e.1 d) (h : place n values a l = .ok a') : a'.IsNormal := by
  induction l generalizing a with
  | nil =>
    cases h
    exact ha
  | cons e rest ih =>
    obtain ⟨s, D⟩ := e
    rw [List.pairwise_cons] at hl
    rw [place] at h
    split at h
    · cases h
    · rename_i c _
      -- the station is new to the assignment, and stays the only one with its number
      have hput : (a.put s c).IsNormal :=
        ha.put fun d hd => absurd hd (hnew (s, D) (by simp) d)
      refine ih hput hl.2 ?_ h
      intro e' he' d hd
      rcases Assignment.on_put.1 hd with ⟨hs, -⟩ | hd
      · have hlt := hl.1 e' he'
        rw [hs] at hlt
        exact absurd hlt Std.lt_irrefl
      · exact hnew e' (List.mem_cons_of_mem _ he') d hd

end Place

/-! ## §3 Decoding -/

namespace Problem

variable {p : Problem} {x : Interference} {l : List Literal} {a : Assignment}

theorem mem_trueChannels {n : Numbering} {values : SortedMap Nat Bool} (hn : n.Fits)
    (hl : n.IsSigning l) (hvalues : signs n.size SortedMap.empty l = .ok values) {s : StationId}
    {c : Channel} : c ∈ trueChannels n values s ↔ n.On (Valuation.ofLiterals l) s c := by
  have hnodup : (l.map Int.natAbs).Nodup := hl.nodup_iff.2 List.nodup_range'
  -- the signs of a signing are the valuation that it describes
  have htrue : ∀ k : Nat, values.get? k = some true ↔ Valuation.ofLiterals l k = true := by
    intro k
    rw [get?_signs hvalues, Valuation.ofLiterals_eq_true_iff hnodup]
    simp
  rw [trueChannels, List.mem_filter]
  constructor
  · rintro ⟨-, hc⟩
    split at hc
    · rename_i y hy
      obtain ⟨k, rfl, hk, -⟩ := Numbering.literal?_range hn hy
      rw [Bool.and_eq_true, beq_iff_eq] at hc
      exact ⟨k, hy, (htrue k).1 hc.2⟩
    · cases hc
  · rintro ⟨k, hk, hv⟩
    obtain ⟨k', hkk, hpos, -⟩ := Numbering.literal?_range hn hk
    have hpos : 0 < k := by
      rw [Int.natCast_inj.1 hkk]
      exact hpos
    refine ⟨(Numbering.mem_of_literal? hk).2, ?_⟩
    simp [hk, hpos, htrue, hv]

/-- A station has one true channel. -/
theorem trueChannels_eq_singleton_iff {n : Numbering} {values : SortedMap Nat Bool}
    {s : StationId} {c : Channel} :
    trueChannels n values s = [c] ↔ ∀ d, d ∈ trueChannels n values s ↔ d = c := by
  have hnodup : (trueChannels n values s).Nodup := n.channels.nodup_toList.filter _
  rw [← List.perm_singleton, List.perm_ext_iff_of_nodup hnodup (List.nodup_singleton c)]
  simp only [List.mem_singleton]

/-- Whatever the literals are, decoding puts every station on one channel of its domain. -/
theorem isSeating_of_decode (h : p.decode l = .ok a) : p.IsSeating a := by
  rw [decode] at h
  split at h
  · split at h
    · cases h
    · obtain ⟨hall, hon⟩ := on_place h
      refine ⟨?_, ?_, ?_⟩
      · exact isNormal_place Assignment.isNormal_empty p.domains.increasing
          (fun _ _ _ => Assignment.not_on_empty) h
      · intro s D hD
        obtain ⟨c, hc⟩ := hall s D (SortedMap.get?_eq_some_iff.1 hD)
        exact ⟨c, (hon s c).2 (Or.inr ⟨D, SortedMap.get?_eq_some_iff.1 hD, hc⟩)⟩
      · intro s c hc
        rcases (hon s c).1 hc with hempty | ⟨D, hD, hc⟩
        · exact absurd hempty Assignment.not_on_empty
        · exact ⟨D, SortedMap.get?_eq_some_iff.2 hD, (channelOf_eq_ok_iff.1 hc).2⟩
  · cases h

theorem isPacking_of_decode (h : p.decode l = .ok a) (ha : x.isSatisfiedBy a = true) :
    p.IsPacking x a :=
  ⟨isSeating_of_decode h, ha⟩

/-- Decoding returns the assignment in which the stations stand where the literals say, if that
seats them. -/
theorem decode_eq_ok_iff (hp : (Numbering.ofProblem p).Fits) :
    p.decode l = .ok a ↔ (Numbering.ofProblem p).IsSigning l ∧ p.IsSeating a ∧
      ∀ s c, a.On s c ↔ (Numbering.ofProblem p).On (Valuation.ofLiterals l) s c := by
  -- placing says who stands where in terms of the true channels
  have hplace : ∀ {values a}, (Numbering.ofProblem p).IsSigning l →
      signs (Numbering.ofProblem p).size SortedMap.empty l = .ok values →
      place (Numbering.ofProblem p) values SortedMap.empty p.domains.toList = .ok a →
      ∀ s c, a.On s c ↔ (Numbering.ofProblem p).On (Valuation.ofLiterals l) s c := by
    intro values a hl hvalues h s c
    obtain ⟨hall, hon⟩ := on_place h
    rw [hon, ← mem_trueChannels hp hl hvalues]
    constructor
    · rintro (hempty | ⟨D, -, hc⟩)
      · exact absurd hempty Assignment.not_on_empty
      · rw [(channelOf_eq_ok_iff.1 hc).1]
        exact List.mem_singleton_self c
    · intro hc
      obtain ⟨D, hD⟩ := mem_stationSet.1 ((mem_trueChannels hp hl hvalues).1 hc).mem.1
      obtain ⟨d, hd⟩ := hall s D (SortedMap.get?_eq_some_iff.1 hD)
      have hcd := hc
      rw [(channelOf_eq_ok_iff.1 hd).1, List.mem_singleton] at hcd
      rw [hcd]
      exact Or.inr ⟨D, SortedMap.get?_eq_some_iff.1 hD, hd⟩
  constructor
  · intro h
    have hseating := isSeating_of_decode h
    rw [decode] at h
    split at h
    · rename_i hlength
      split at h
      · cases h
      · rename_i values hvalues
        have hl := length_eq_and_exists_signs_iff.1 ⟨hlength, values, hvalues⟩
        exact ⟨hl, hseating, hplace hl hvalues h⟩
    · cases h
  · rintro ⟨hl, ha, hon⟩
    -- the one true channel of a station is the one that it stands on
    obtain ⟨hlength, values, hvalues⟩ := length_eq_and_exists_signs_iff.2 hl
    have hchannel : ∀ s D, (s, D) ∈ p.domains.toList →
        ∃ c, channelOf s D (trueChannels (Numbering.ofProblem p) values s) = .ok c := by
      intro s D hD
      rw [← SortedMap.get?_eq_some_iff] at hD
      obtain ⟨c, hc⟩ := ha.placed s D hD
      obtain ⟨E, hE, hcE⟩ := ha.open_to s c hc
      have hED : D = E := Option.some.inj (hD.symm.trans hE)
      refine ⟨c, channelOf_eq_ok_iff.2 ⟨trueChannels_eq_singleton_iff.2 ?_, hED ▸ hcE⟩⟩
      intro d
      rw [mem_trueChannels hp hl hvalues, ← hon]
      exact ⟨fun hd => ha.normal.unique hd hc, fun hd => hd ▸ hc⟩
    obtain ⟨a', ha'⟩ := exists_place (a := SortedMap.empty) hchannel
    have hdecode : p.decode l = .ok a' := by
      simp only [decode, hlength, if_true, hvalues, ha']
    rw [hdecode]
    -- normal assignments with the same stations on the same channels are equal
    congr 1
    apply (isSeating_of_decode hdecode).normal.ext ha.normal
    intro s c
    rw [hplace hl hvalues ha', hon]

end Problem

/-! ## §4 Complete Lists -/

namespace Numbering

/-- The variables of the numbering in increasing order, each with a sign. -/
def IsAscending (n : Numbering) (l : List Literal) : Prop :=
  l.map Int.natAbs = List.range' 1 n.size

variable {n : Numbering} {v : Valuation} {l : List Literal}

theorem IsAscending.isSigning (h : n.IsAscending l) : n.IsSigning l := by
  rw [IsSigning, h]

/-- Complete lists are equal when they put the same stations on the same channels. -/
theorem IsAscending.ext (hn : n.Fits) {l' : List Literal} (h : n.IsAscending l)
    (h' : n.IsAscending l')
    (hon : ∀ s c, n.On (Valuation.ofLiterals l) s c ↔ n.On (Valuation.ofLiterals l') s c) :
    l = l' := by
  rw [Valuation.eq_literals h, Valuation.eq_literals h']
  apply List.map_congr_left
  intro k hk
  obtain ⟨hpos, hle⟩ := List.mem_range'_1.1 hk
  obtain ⟨s, c, hsc⟩ := exists_pair hn hpos (by omega)
  have hsame : ∀ v : Valuation, n.On v s c ↔ v k = true := by
    intro v
    simp only [On, hsc, Option.some.injEq, Int.natCast_inj, exists_eq_left']
  have hv := hon s c
  rw [hsame, hsame] at hv
  rw [Bool.eq_iff_iff.2 hv]

/-- The list of a valuation puts the same stations on the same channels. -/
theorem on_literals (hn : n.Fits) {s : StationId} {c : Channel} :
    n.On (Valuation.ofLiterals (v.literals n.size)) s c ↔ n.On v s c := by
  apply exists_congr
  intro k
  rw [and_congr_right_iff]
  intro hk
  obtain ⟨j, hj, hpos, hle⟩ := literal?_range hn hk
  have hkj : k = j := Int.natCast_inj.1 hj
  rw [Valuation.ofLiterals_literals (by omega) (by omega)]

end Numbering

/-! ## §5 The Correspondence -/

namespace Problem

variable {p : Problem} {x : Interference}

/-- The complete lists of the models of an encoding. -/
def modelLists (p : Problem) (x : Interference) : Set (List Literal) :=
  {l | (Numbering.ofProblem p).IsAscending l ∧
    (p.encode x).holds (Valuation.ofLiterals l) = true}

/-- The assignments that are packings. -/
def packings (p : Problem) (x : Interference) : Set Assignment := {a | p.IsPacking x a}

/-- Literals that give every variable a sign make the formula true exactly if they can be decoded
and what they decode to passes the check. -/
theorem holds_iff_decode (hp : (Numbering.ofProblem p).Fits) {l : List Literal}
    (hl : (Numbering.ofProblem p).IsSigning l) :
    (p.encode x).holds (Valuation.ofLiterals l) = true ↔
      ∃ a, p.decode l = .ok a ∧ x.isSatisfiedBy a = true := by
  rw [holds_encode_iff hp]
  constructor
  · intro h
    obtain ⟨a, ha⟩ := h.exists_assignment
    obtain ⟨hpacking, hon⟩ := ha
    exact ⟨a, (decode_eq_ok_iff hp).2 ⟨hl, hpacking.toIsSeating, hon⟩, hpacking.accepted⟩
  · rintro ⟨a, hdecode, haccepted⟩
    obtain ⟨-, hseating, hon⟩ := (decode_eq_ok_iff hp).1 hdecode
    exact (Packs.congr hon).1 (isPacking_iff.1 ⟨hseating, haccepted⟩).2

theorem mapsTo_decode (hp : (Numbering.ofProblem p).Fits) :
    Set.MapsTo p.decode (p.modelLists x) (Except.ok '' p.packings x) := by
  rintro l ⟨hl, hholds⟩
  obtain ⟨a, hdecode, haccepted⟩ := (holds_iff_decode hp hl.isSigning).1 hholds
  exact ⟨a, isPacking_of_decode hdecode haccepted, hdecode.symm⟩

theorem injOn_decode (hp : (Numbering.ofProblem p).Fits) :
    Set.InjOn p.decode (p.modelLists x) := by
  intro l hl l' hl' hsame
  obtain ⟨a, -, ha⟩ := mapsTo_decode hp hl
  obtain ⟨-, -, hon⟩ := (decode_eq_ok_iff hp).1 ha.symm
  obtain ⟨-, -, hon'⟩ := (decode_eq_ok_iff hp).1 (hsame.symm.trans ha.symm)
  exact hl.1.ext hp hl'.1 fun s c => (hon s c).symm.trans (hon' s c)

theorem surjOn_decode (hp : (Numbering.ofProblem p).Fits) :
    Set.SurjOn p.decode (p.modelLists x) (Except.ok '' p.packings x) := by
  rintro _ ⟨a, ha, rfl⟩
  have hpacks := (isPacking_iff.1 ha).2
  obtain ⟨v, hv⟩ := Numbering.exists_on hp fun s c => hpacks.mem
  have hlist : ∀ s c, (Numbering.ofProblem p).On
      (Valuation.ofLiterals (v.literals (Numbering.ofProblem p).size)) s c ↔ a.On s c :=
    fun s c => (Numbering.on_literals hp).trans (hv s c)
  have hascending : (Numbering.ofProblem p).IsAscending
      (v.literals (Numbering.ofProblem p).size) := Valuation.natAbs_literals
  refine ⟨_, ⟨hascending, (holds_encode_iff hp).2 ((Packs.congr hlist).2 hpacks)⟩, ?_⟩
  exact (decode_eq_ok_iff hp).2 ⟨hascending.isSigning, ha.toIsSeating, fun s c => (hlist s c).symm⟩

/-- Decoding is a bijection between the complete lists of the models of an encoding and the
packings of the problem.  Of the complete lists in any order, just those of models decode to an
assignment that passes the check.  A problem with an empty domain has neither models nor
packings. -/
theorem decode_bijOn_modelLists (p : Problem) (x : Interference)
    (hp : (Numbering.ofProblem p).Fits) :
    Set.BijOn p.decode (p.modelLists x) (Except.ok '' p.packings x) ∧
      (∀ l, (Numbering.ofProblem p).IsSigning l →
        ((p.encode x).holds (Valuation.ofLiterals l) = true ↔
          ∃ a, p.decode l = .ok a ∧ x.isSatisfiedBy a = true)) ∧
      (p.hasEmptyDomain = true → ¬ (p.encode x).Satisfiable ∧ ¬ p.Packable x) := by
  refine ⟨⟨mapsTo_decode hp, injOn_decode hp, surjOn_decode hp⟩, ?_, ?_⟩
  · intro l hl
    exact holds_iff_decode hp hl
  · intro hempty
    refine ⟨?_, not_packable_of_hasEmptyDomain hempty⟩
    rw [encode, if_pos hempty]
    exact Cnf.not_satisfiable_contradiction

/-- Two stations, one of them free to choose between two channels. -/
def pair : Problem :=
  ofDomains (SortedMap.ofList [(1, SortedSet.ofList [14]), (2, SortedSet.ofList [14, 15])])
    SortedMap.empty

theorem decode_bijOn_modelLists_pair :
    (Numbering.ofProblem pair).Fits ∧
      Set.BijOn pair.decode (pair.modelLists (Interference.none.addCo 1 2))
        (Except.ok '' pair.packings (Interference.none.addCo 1 2)) := by
  have hp : (Numbering.ofProblem pair).Fits := by decide
  exact ⟨hp, (decode_bijOn_modelLists pair (Interference.none.addCo 1 2) hp).1⟩

end Problem

end SpectrumPacking
