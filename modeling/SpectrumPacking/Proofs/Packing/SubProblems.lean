import Mathlib.Data.List.Perm.Subperm
import Mathlib.Logic.Relator
import SpectrumPacking.Proofs.Encoding.Numberings
import SpectrumPacking.Proofs.Packing.Packings
import SpectrumPacking.Solve.Neighborhood
import SpectrumPacking.Solve.Pipeline

/-!
# Packings of Smaller Problems

Two ways to learn about a problem from another one.  A problem that another one proves to have no
packing has none (`Problem.not_packable_of_provesUnsat`); the restriction of a problem to some of
its stations is such another one, and whatever the stations that are left out interfere with, a
packing restricted to it is a packing of it (`Problem.IsPacking.restrictedTo`).  And a packing of
some stations around the others, which stay where they were, is a packing of all of them
(`Problem.isPacking_merge`).

Such problems are tables over the stations of another one (`Tabulates.get?_ofList`).
-/

namespace SpectrumPacking

/-! ## §1 Tables -/

section Tables

universe u v

variable {κ : Type u} {ν : Type v} {value : κ → ν → Prop} {keys : List κ}
  {entries : List (κ × ν)} {k : κ} {v : ν}

/-- Every key of a list has a value, and the entries are the keys with their values. -/
structure Tabulates (value : κ → ν → Prop) (keys : List κ) (entries : List (κ × ν)) : Prop where
  mem_iff : ∀ k v, (k, v) ∈ entries ↔ k ∈ keys ∧ value k v
  defined : ∀ k ∈ keys, ∃ v, value k v

theorem tabulates_nil : Tabulates value [] [] := ⟨by simp, nofun⟩

theorem Tabulates.cons (h : Tabulates value keys entries) (hvalue : Relator.RightUnique value)
    (hv : value k v) : Tabulates value (k :: keys) ((k, v) :: entries) := by
  constructor
  · intro i w
    rw [List.mem_cons, h.mem_iff, Prod.mk.injEq, List.mem_cons]
    constructor
    · rintro (⟨rfl, rfl⟩ | ⟨hi, hw⟩)
      · exact ⟨Or.inl rfl, hv⟩
      · exact ⟨Or.inr hi, hw⟩
    · rintro ⟨rfl | hi, hw⟩
      · exact Or.inl ⟨rfl, hvalue hw hv⟩
      · exact Or.inr ⟨hi, hw⟩
  · intro i hi
    rcases List.mem_cons.1 hi with rfl | hi
    · exact ⟨v, hv⟩
    · exact h.defined i hi

variable [DecidableEq κ] [LE κ] [LT κ] [DecidableLT κ] [Std.IsLinearOrder κ]
  [Std.LawfulOrderLT κ]

theorem Tabulates.get?_ofList (h : Tabulates value keys entries)
    (hvalue : Relator.RightUnique value) :
    (SortedMap.ofList entries).get? k = some v ↔ k ∈ keys ∧ value k v := by
  rw [SortedMap.get?_ofList_iff, h.mem_iff]
  -- no key has two entries, since none has two values
  intro i w w' hw hw'
  exact hvalue ((h.mem_iff i w).1 hw).2 ((h.mem_iff i w').1 hw').2

end Tables

theorem SortedSet.size_le_of_subset {α : Type} [LE α] [LT α] [Std.LawfulOrderLT α]
    [Std.IsLinearOrder α] {s t : SortedSet α} (h : ∀ a ∈ s, a ∈ t) : s.size ≤ t.size :=
  (List.subperm_of_subset s.nodup_toList h).length_le

/-- Fixed stations that stand nowhere in an assignment in normal form may be put into it. -/
theorem Assignment.IsNormal.merge {a : Assignment} {fixed : Placement} (ha : a.IsNormal)
    (hs : ∀ s c d, fixed.On s c → ¬ a.On s d) : (a.merge fixed).IsNormal :=
  ha.putPlacement hs

namespace Problem

variable {p q : Problem} {x : Interference}

/-! ## §2 Problems Without a Packing -/

/-- A packing of a problem packs the stations of another one, if its channels are open there. -/
theorem Packs.of_provesUnsat {on : StationId → Channel → Prop} (hq : q.Packs x on)
    (h : p.provesUnsat q = true) : p.Packs x fun s c => on s c ∧ ∃ D, p.domain? s = some D := by
  rw [provesUnsat_iff] at h
  constructor
  case placed =>
    intro s D hD
    obtain ⟨E, hE, -⟩ := h s D hD
    obtain ⟨c, hc⟩ := hq.placed s E hE
    exact ⟨c, hc, D, hD⟩
  case unique =>
    intro s c d hc hd
    exact hq.unique s c d hc.1 hd.1
  case open_to =>
    rintro s c ⟨hc, D, hD⟩
    obtain ⟨E, hE, hsub⟩ := h s D hD
    -- the domain there is no wider than here
    obtain ⟨E', hE', hcE⟩ := hq.open_to s c hc
    rw [hE] at hE'
    cases hE'
    exact ⟨D, hD, hsub c hcE⟩
  case co_free =>
    intro s t c hs ht
    exact hq.co_free s t c hs.1 ht.1
  case adjacent_free =>
    intro s t c hs ht
    exact hq.adjacent_free s t c hs.1 ht.1

theorem not_packable_of_provesUnsat (h : p.provesUnsat q = true) (hp : ¬ p.Packable x) :
    ¬ q.Packable x := by
  intro hq
  obtain ⟨on, hon⟩ := packable_iff.1 hq
  exact hp (hon.of_provesUnsat h).packable

theorem provesUnsat_restrictedTo {t : SortedSet StationId} :
    (p.restrictedTo t).provesUnsat p = true := by
  rw [provesUnsat_iff]
  intro s D hD
  rw [domain?_restrictedTo] at hD
  split at hD
  · exact ⟨D, hD, fun _ hc => hc⟩
  · cases hD

/-! ## §3 Stations That Stay -/

/-- A station can stay on its previous channel, since that is open to it. -/
def CanStay (p : Problem) (s : StationId) (c : Channel) : Prop :=
  p.previous.get? s = some c ∧ ∃ D, p.domain? s = some D ∧ c ∈ D

theorem rightUnique_canStay : Relator.RightUnique p.CanStay :=
  fun _ _ _ h h' => Option.some.inj (h.1.symm.trans h'.1)

theorem tabulates_keptChannels? {l : List StationId} {kept : List (StationId × Channel)}
    (h : p.keptChannels? l = some kept) : Tabulates p.CanStay l kept := by
  induction l generalizing kept with
  | nil =>
    cases h
    exact tabulates_nil
  | cons s rest ih =>
    rw [keptChannels?] at h
    split at h
    · rename_i c D hc hD
      split at h
      · rename_i hopen
        obtain ⟨kept', hkept, rfl⟩ := Option.map_eq_some_iff.1 h
        exact (ih hkept).cons rightUnique_canStay ⟨hc, D, hD, SortedSet.contains_iff.1 hopen⟩
      · cases h
    · cases h

/-- The stations outside a set stay on their previous channels. -/
theorem on_of_fixed? {t : SortedSet StationId} {fixed : Placement} (h : p.fixed? t = some fixed) :
    (∀ s c, fixed.On s c ↔ (s ∈ p.stations ∧ ¬ s ∈ t) ∧ p.CanStay s c) ∧
      ∀ s ∈ p.stations, ¬ s ∈ t → ∃ c, fixed.On s c := by
  rw [fixed?, Option.map_eq_some_iff] at h
  obtain ⟨kept, hkept, rfl⟩ := h
  have htable := tabulates_keptChannels? hkept
  have hstay : ∀ s, s ∈ p.stations.filter (fun s => !t.contains s) ↔
      s ∈ p.stations ∧ ¬ s ∈ t := by
    intro s
    rw [List.mem_filter, Bool.not_eq_true', ← SortedSet.contains_iff, Bool.not_eq_true]
  have hon : ∀ s c, Placement.On (SortedMap.ofList kept) s c ↔
      (s ∈ p.stations ∧ ¬ s ∈ t) ∧ p.CanStay s c := by
    intro s c
    rw [Placement.On, htable.get?_ofList rightUnique_canStay, hstay]
  refine ⟨hon, ?_⟩
  intro s hs hst
  obtain ⟨c, hc⟩ := htable.defined s ((hstay s).2 ⟨hs, hst⟩)
  exact ⟨c, (hon s c).2 ⟨⟨hs, hst⟩, hc⟩⟩

/-! ## §4 Packing Around Them -/

theorem mem_foldl_erase {l : List Channel} {D : SortedSet Channel} {c : Channel} :
    c ∈ l.foldl SortedSet.erase D ↔ c ∈ D ∧ ¬ c ∈ l := by
  induction l generalizing D with
  | nil => simp
  | cons d rest ih => simp [ih, and_assoc]

/-- Pruning closes the channels that some fixed station closes, and no others. -/
theorem mem_prune {fixed : Placement} {s : StationId} {D : SortedSet Channel} {c : Channel} :
    c ∈ prune x fixed s D ↔ c ∈ D ∧ ∀ f d, fixed.On f d → ¬ c ∈ x.forbidden s f d := by
  have hpruned : ∀ l : List (StationId × Channel),
      c ∈ l.foldl (fun D e => (x.forbidden s e.1 e.2).foldl SortedSet.erase D) D ↔
        c ∈ D ∧ ∀ e ∈ l, ¬ c ∈ x.forbidden s e.1 e.2 := by
    intro l
    induction l generalizing D with
    | nil => simp
    | cons e rest ih => simp [ih, mem_foldl_erase, and_assoc]
  simp only [prune, hpruned, Prod.forall, Placement.On, SortedMap.get?_eq_some_iff]

theorem mem_of_mem_prune {fixed : Placement} {s : StationId} {D : SortedSet Channel} {c : Channel}
    (h : c ∈ prune x fixed s D) : c ∈ D := (mem_prune.1 h).1

/-- What is left of the domain of a station around fixed ones. -/
def LeavesOpen (p : Problem) (x : Interference) (fixed : Placement) (s : StationId)
    (E : SortedSet Channel) : Prop :=
  ∃ D, p.domain? s = some D ∧ E = prune x fixed s D

theorem rightUnique_leavesOpen {fixed : Placement} :
    Relator.RightUnique (p.LeavesOpen x fixed) := by
  rintro s E E' ⟨D, hD, rfl⟩ ⟨D', hD', rfl⟩
  rw [hD] at hD'
  cases hD'
  rfl

theorem tabulates_prunedDomains? {fixed : Placement} {l : List StationId}
    {pruned : List (StationId × SortedSet Channel)}
    (h : p.prunedDomains? x fixed l = some pruned) :
    Tabulates (p.LeavesOpen x fixed) l pruned := by
  induction l generalizing pruned with
  | nil =>
    cases h
    exact tabulates_nil
  | cons s rest ih =>
    rw [prunedDomains?] at h
    split at h
    · cases h
    · rename_i D hD
      obtain ⟨pruned', hpruned, rfl⟩ := Option.map_eq_some_iff.1 h
      exact (ih hpruned).cons rightUnique_leavesOpen ⟨D, hD, rfl⟩

/-- The problem around the stations that stay is that of the stations of the set, on the channels
left to them. -/
theorem around?_eq_some {t : SortedSet StationId} {r : Problem} {fixed : Placement}
    (h : p.around? x t = some (r, fixed)) : p.fixed? t = some fixed ∧
      ∀ s E, r.domain? s = some E ↔ s ∈ t ∧ p.LeavesOpen x fixed s E := by
  rw [around?] at h
  split at h
  · cases h
  · rename_i fixed' hfixed
    obtain ⟨pruned, hpruned, heq⟩ := Option.map_eq_some_iff.1 h
    cases heq
    refine ⟨hfixed, ?_⟩
    intro s E
    rw [domain?_ofDomains, (tabulates_prunedDomains? hpruned).get?_ofList rightUnique_leavesOpen,
      SortedSet.mem_toList]

theorem on_merge {a : Assignment} {fixed : Placement} {s : StationId} {c : Channel} :
    (a.merge fixed).On s c ↔ fixed.On s c ∨ a.On s c := by
  rw [Placement.On, SortedMap.get?_eq_some_iff]
  exact Assignment.on_putAll

/-- The stations that are packed and those that stay are different ones. -/
theorem not_on_of_around? {t : SortedSet StationId} {r : Problem} {fixed : Placement}
    {a : Assignment} (h : p.around? x t = some (r, fixed)) (ha : r.IsSeating a) {s : StationId}
    {c d : Channel} (hs : fixed.On s c) : ¬ a.On s d := by
  obtain ⟨hfixed, hdomain⟩ := around?_eq_some h
  obtain ⟨hon, -⟩ := on_of_fixed? hfixed
  intro hd
  obtain ⟨E, hE, -⟩ := ha.open_to s d hd
  exact ((hon s c).1 hs).1.2 ((hdomain s E).1 hE).1

/-- A packing around the stations that stay, together with them, is a packing if it passes the
check. -/
theorem isPacking_merge {t : SortedSet StationId} {r : Problem} {fixed : Placement}
    {a : Assignment} (h : p.around? x t = some (r, fixed)) (ha : r.IsPacking x a)
    (hmerge : x.isSatisfiedBy (a.merge fixed) = true) : p.IsPacking x (a.merge fixed) := by
  obtain ⟨hfixed, hdomain⟩ := around?_eq_some h
  obtain ⟨hon, hstay⟩ := on_of_fixed? hfixed
  refine ⟨⟨?_, ?_, ?_⟩, hmerge⟩
  · exact ha.normal.merge fun s c d => not_on_of_around? h ha.toIsSeating
  · intro s D hD
    -- a station is packed anew or stays
    by_cases hst : s ∈ t
    · obtain ⟨c, hc⟩ := ha.placed s _ ((hdomain s _).2 ⟨hst, D, hD, rfl⟩)
      exact ⟨c, on_merge.2 (Or.inr hc)⟩
    · obtain ⟨c, hc⟩ := hstay s (mem_stations.2 ⟨D, hD⟩) hst
      exact ⟨c, on_merge.2 (Or.inl hc)⟩
  · intro s c hc
    rcases on_merge.1 hc with hc | hc
    · exact ((hon s c).1 hc).2.2
    · obtain ⟨E, hE, hcE⟩ := ha.open_to s c hc
      obtain ⟨-, D, hD, rfl⟩ := (hdomain s E).1 hE
      exact ⟨D, hD, mem_of_mem_prune hcE⟩

/-! ## §5 Sizes -/

/-- The stations of a problem belong to another one, with domains that are no wider. -/
def IsWithin (p q : Problem) : Prop :=
  ∀ s E, p.domain? s = some E → ∃ D, q.domain? s = some D ∧ ∀ c ∈ E, c ∈ D

theorem isWithin_restrictedTo {t : SortedSet StationId} : (p.restrictedTo t).IsWithin p := by
  intro s E hE
  rw [domain?_restrictedTo] at hE
  split at hE
  · exact ⟨E, hE, fun _ hc => hc⟩
  · cases hE

theorem isWithin_around? {t : SortedSet StationId} {r : Problem} {fixed : Placement}
    (h : p.around? x t = some (r, fixed)) : r.IsWithin p := by
  intro s E hE
  obtain ⟨-, hdomain⟩ := around?_eq_some h
  obtain ⟨-, D, hD, rfl⟩ := (hdomain s E).1 hE
  exact ⟨D, hD, fun _ => mem_of_mem_prune⟩

/-- Smaller problems have smaller encodings. -/
theorem IsWithin.fits (h : p.IsWithin q) (hq : (Numbering.ofProblem q).Fits) :
    (Numbering.ofProblem p).Fits := by
  have hstations : p.stationSet.size ≤ q.stationSet.size := by
    apply SortedSet.size_le_of_subset
    intro s hs
    obtain ⟨E, hE⟩ := mem_stationSet.1 hs
    obtain ⟨D, hD, -⟩ := h s E hE
    exact mem_stationSet.2 ⟨D, hD⟩
  have hchannels : p.channels.size ≤ q.channels.size := by
    apply SortedSet.size_le_of_subset
    intro c hc
    obtain ⟨s, E, hE, hcE⟩ := Domains.mem_channels.1 hc
    obtain ⟨D, hD, hsub⟩ := h s E hE
    exact Domains.mem_channels.2 ⟨s, D, hD, hsub c hcE⟩
  exact Nat.lt_of_le_of_lt (Nat.mul_le_mul hstations hchannels) hq

end Problem

/-! ## §6 Restricting Packings -/

namespace Assignment

variable {a : Assignment} {t : SortedSet StationId} {s : StationId} {c : Channel}

/-- The assignment without the stations that are not in a set; a channel on which no station is left
is not listed. -/
def restrictedTo (a : Assignment) (t : SortedSet StationId) : Assignment :=
  (a.map fun _ bucket => bucket.inter t).filter fun _ bucket => !bucket.isEmpty

theorem get?_restrictedTo :
    (a.restrictedTo t).get? c =
      ((a.get? c).map fun bucket => bucket.inter t).filter fun bucket => !bucket.isEmpty := by
  rw [restrictedTo, SortedMap.get?_filter, SortedMap.get?_map]

theorem on_restrictedTo : (a.restrictedTo t).On s c ↔ a.On s c ∧ s ∈ t := by
  simp only [On, get?_restrictedTo, Option.filter_eq_some_iff, Option.map_eq_some_iff]
  constructor
  · rintro ⟨_, ⟨⟨bucket, hc, rfl⟩, -⟩, hs⟩
    obtain ⟨hs, hst⟩ := SortedSet.mem_inter.1 hs
    exact ⟨⟨bucket, hc, hs⟩, hst⟩
  · rintro ⟨⟨bucket, hc, hs⟩, hst⟩
    have hmem : s ∈ bucket.inter t := SortedSet.mem_inter.2 ⟨hs, hst⟩
    refine ⟨_, ⟨⟨bucket, hc, rfl⟩, ?_⟩, hmem⟩
    -- the bucket has not become empty, since the station is in it
    rw [Bool.not_eq_true', ← Bool.not_eq_true, SortedSet.isEmpty_iff]
    intro hempty
    rw [hempty] at hmem
    exact SortedSet.not_mem_empty hmem

theorem IsNormal.restrictedTo (ha : a.IsNormal) : (a.restrictedTo t).IsNormal := by
  constructor
  · intro c bucket hc hempty
    rw [get?_restrictedTo, Option.filter_eq_some_iff, hempty] at hc
    exact absurd hc.2 (by decide)
  · intro c d b b' s hc hd hs hs'
    exact ha.unique (on_restrictedTo.1 ⟨b, hc, hs⟩).1 (on_restrictedTo.1 ⟨b', hd, hs'⟩).1

end Assignment

/-- A packing of a problem, restricted to the stations of a problem that would settle it, is a
packing of the latter. -/
theorem Problem.IsPacking.restrictedTo {p q : Problem} {x : Interference} {a : Assignment}
    (ha : q.IsPacking x a) (h : p.provesUnsat q = true) :
    p.IsPacking x (a.restrictedTo p.stationSet) := by
  obtain ⟨hnormal, hpacks⟩ := isPacking_iff.1 ha
  refine isPacking_iff.2 ⟨hnormal.restrictedTo, (Packs.congr ?_).2 (hpacks.of_provesUnsat h)⟩
  intro s c
  rw [Assignment.on_restrictedTo, mem_stationSet]

end SpectrumPacking
