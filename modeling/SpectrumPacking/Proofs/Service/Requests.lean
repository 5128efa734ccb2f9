import SpectrumPacking.Proofs.Packing.SubProblems
import SpectrumPacking.Service.Request

/-!
# Packings of Requests

What it means that a map from stations to channels packs a request, and that this is the same as
packing the problem that the request makes over its dataset (`Request.isPacking_iff`).
-/

namespace SpectrumPacking

namespace Request

/-! ## §1 Packings -/

/-- A channel is open to a station of a request: it lies in the domain of the station in the
dataset, in the channels of the request, and in the reduced domain of the station, if that is not
empty. -/
structure IsOpen (r : Request) (d : Dataset) (s : StationId) (c : Channel) : Prop where
  domain : ∃ D, d.domains.get? s = some D ∧ c ∈ D
  channels : c ∈ r.channels
  reduced : ∀ R, r.reduced.get? s = some R → R.isEmpty = false → c ∈ R

/-- A map from stations to channels packs a request over a dataset. -/
structure IsPacking (r : Request) (d : Dataset) (m : Placement) : Prop where
  /-- Every requested station has a channel; as this is a map, it has one only. -/
  placed : ∀ s ∈ r.stations, ∃ c, m.On s c
  /-- No other station has one, and channels are open to their stations. -/
  open_to : ∀ s c, m.On s c → s ∈ r.stations ∧ r.IsOpen d s c
  /-- Stations that may not share a channel do not share one. -/
  co_free : ∀ s t c, m.On s c → m.On t c → ¬ t ∈ d.interference.coStations s
  /-- No station is one channel above a station that keeps it off. -/
  adjacent_free : ∀ s t c, m.On s c → m.On t (c + 1) → ¬ t ∈ d.interference.adjacentStations s

/-! ## §2 The Problem of a Request -/

variable {r : Request} {d : Dataset} {p : Problem} {s : StationId} {c : Channel}

theorem mem_admitted {D : SortedSet Channel} :
    c ∈ r.admitted s D ↔ c ∈ D ∧ c ∈ r.channels ∧
      ∀ R, r.reduced.get? s = some R → R.isEmpty = false → c ∈ R := by
  unfold admitted
  split
  · rename_i R hR
    simp only [hR, Option.some.injEq, forall_eq']
    split
    · rename_i hempty
      simp [hempty]
    · rename_i hempty
      simp [hempty, and_assoc]
  · rename_i hnone
    simp [hnone]

/-- What a request leaves of the domain of a station. -/
def LeavesOpen (r : Request) (domains : Domains) (s : StationId) (E : SortedSet Channel) : Prop :=
  ∃ D, domains.get? s = some D ∧ E = r.admitted s D

theorem rightUnique_leavesOpen {domains : Domains} :
    Relator.RightUnique (r.LeavesOpen domains) := by
  rintro s E E' ⟨D, hD, rfl⟩ ⟨D', hD', rfl⟩
  rw [hD] at hD'
  cases hD'
  rfl

theorem tabulates_admittedDomains {domains : Domains} {l : List StationId}
    {entries : List (StationId × SortedSet Channel)}
    (h : r.admittedDomains domains l = .ok entries) :
    Tabulates (r.LeavesOpen domains) l entries := by
  induction l generalizing entries with
  | nil =>
    cases h
    exact tabulates_nil
  | cons s rest ih =>
    rw [admittedDomains] at h
    split at h
    · cases h
    · rename_i D hD
      cases hrest : r.admittedDomains domains rest with
      | error e =>
        rw [hrest] at h
        cases h
      | ok entries' =>
        rw [hrest] at h
        cases h
        exact (ih hrest).cons rightUnique_leavesOpen ⟨D, Domains.lookup_eq_ok_iff.1 hD, rfl⟩

/-- The problem of a request is over its stations, with what is left of their domains. -/
theorem problem_eq_ok (h : r.problem d.domains = .ok p) :
    (∀ s E, p.domain? s = some E ↔ s ∈ r.stations ∧ r.LeavesOpen d.domains s E) ∧
      ∀ s ∈ r.stations, ∃ D, d.domains.get? s = some D := by
  rw [problem] at h
  cases hentries : r.admittedDomains d.domains r.stations.toList with
  | error e =>
    rw [hentries] at h
    cases h
  | ok entries =>
    rw [hentries] at h
    cases h
    -- the entries are a table over the stations of the request
    have htable := tabulates_admittedDomains hentries
    refine ⟨?_, ?_⟩
    · intro s E
      rw [Problem.domain?_ofDomains, htable.get?_ofList rightUnique_leavesOpen,
        SortedSet.mem_toList]
    · intro s hs
      obtain ⟨E, D, hD, -⟩ := htable.defined s (SortedSet.mem_toList.2 hs)
      exact ⟨D, hD⟩

theorem exists_domain?_iff (h : r.problem d.domains = .ok p) :
    (∃ E, p.domain? s = some E ∧ c ∈ E) ↔ s ∈ r.stations ∧ r.IsOpen d s c := by
  obtain ⟨hdomain, -⟩ := problem_eq_ok h
  constructor
  · rintro ⟨E, hE, hc⟩
    obtain ⟨hs, D, hD, rfl⟩ := (hdomain s E).1 hE
    obtain ⟨hcD, hchannels, hreduced⟩ := mem_admitted.1 hc
    exact ⟨hs, ⟨D, hD, hcD⟩, hchannels, hreduced⟩
  · rintro ⟨hs, ⟨D, hD, hcD⟩, hchannels, hreduced⟩
    exact ⟨_, (hdomain s _).2 ⟨hs, D, hD, rfl⟩, mem_admitted.2 ⟨hcD, hchannels, hreduced⟩⟩

/-- A map packs a request exactly if it packs the problem of the request. -/
theorem isPacking_iff (h : r.problem d.domains = .ok p) {m : Placement} :
    r.IsPacking d m ↔ p.Packs d.interference m.On := by
  obtain ⟨hdomain, hknown⟩ := problem_eq_ok h
  constructor
  · intro hm
    refine ⟨?_, ?_, ?_, hm.co_free, hm.adjacent_free⟩
    · intro s E hE
      exact hm.placed s ((hdomain s E).1 hE).1
    · intro s c c' hc hc'
      -- a map has one channel for a station
      exact Option.some.inj (hc.symm.trans hc')
    · intro s c hc
      exact (exists_domain?_iff h).2 (hm.open_to s c hc)
  · intro hm
    refine ⟨?_, ?_, hm.co_free, hm.adjacent_free⟩
    · intro s hs
      obtain ⟨D, hD⟩ := hknown s hs
      exact hm.placed s _ ((hdomain s _).2 ⟨hs, D, hD, rfl⟩)
    · intro s c hc
      exact (exists_domain?_iff h).1 (hm.open_to s c hc)

/-- The map of an assignment that packs the problem of a request packs the request. -/
theorem isPacking_placement (h : r.problem d.domains = .ok p) {a : Assignment}
    (ha : p.IsPacking d.interference a) : r.IsPacking d a.placement := by
  obtain ⟨hnormal, hpacks⟩ := Problem.isPacking_iff.1 ha
  rw [isPacking_iff h]
  exact (Problem.Packs.congr fun _ _ => Assignment.placement_on hnormal).2 hpacks

/-- The variables of a request can be numbered in 32 bits. -/
def Fits (r : Request) : Prop := r.stations.size * r.channels.size < 2 ^ 31

theorem fits_problem (h : r.problem d.domains = .ok p) (hr : r.Fits) :
    (Numbering.ofProblem p).Fits := by
  obtain ⟨hdomain, -⟩ := problem_eq_ok h
  have hstations : p.stationSet.size ≤ r.stations.size := by
    apply SortedSet.size_le_of_subset
    intro s hs
    obtain ⟨E, hE⟩ := Problem.mem_stationSet.1 hs
    exact ((hdomain s E).1 hE).1
  have hchannels : p.channels.size ≤ r.channels.size := by
    apply SortedSet.size_le_of_subset
    intro c hc
    obtain ⟨s, E, hE, hcE⟩ := Domains.mem_channels.1 hc
    exact ((exists_domain?_iff h).1 ⟨E, hE, hcE⟩).2.channels
  exact Nat.lt_of_le_of_lt (Nat.mul_le_mul hstations hchannels) hr

end Request

end SpectrumPacking
