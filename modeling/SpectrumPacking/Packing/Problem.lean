import SpectrumPacking.Collection.SortedMap
import SpectrumPacking.Text.Numeral

/-!
# Packing Problems

A packing problem gives each station to pack the channels that it may take, and may recall the
channels of an earlier packing as a hint.  `Problem.restrictedTo` forms sub-problems.

A packing can be listed by station (`Placement`) or by channel (`Assignment`).  The second view may
hold an empty bucket or one station in two buckets; it is in normal form when it does not.
-/

namespace SpectrumPacking

/-! ## §1 Stations, Channels, Domains -/

/-- The number that identifies a station. -/
abbrev StationId := Nat

/-- A broadcast channel number. -/
abbrev Channel := Int

/-- The channels open to each station. -/
abbrev Domains := SortedMap StationId (SortedSet Channel)

/-- One channel for each of some stations. -/
abbrev Placement := SortedMap StationId Channel

namespace Domains

/-- Every channel of every domain. -/
def channels (d : Domains) : SortedSet Channel :=
  d.values.foldl SortedSet.union SortedSet.empty

theorem mem_foldl_union {l : List (SortedSet Channel)} {s : SortedSet Channel} {c : Channel} :
    c ∈ l.foldl SortedSet.union s ↔ c ∈ s ∨ ∃ t ∈ l, c ∈ t := by
  induction l generalizing s with
  | nil => simp
  | cons t l ih =>
    rw [List.foldl_cons, ih, SortedSet.mem_union]
    constructor
    · intro h
      obtain (h | h) | ⟨u, hu, h⟩ := h
      · exact Or.inl h
      · exact Or.inr ⟨t, by simp, h⟩
      · exact Or.inr ⟨u, List.mem_cons_of_mem t hu, h⟩
    · intro h
      obtain h | ⟨u, hu, h⟩ := h
      · exact Or.inl (Or.inl h)
      · obtain hut | hul := List.mem_cons.1 hu
        · exact Or.inl (Or.inr (hut ▸ h))
        · exact Or.inr ⟨u, hul, h⟩

/-- A channel is listed exactly when some domain holds it. -/
theorem mem_channels {d : Domains} {c : Channel} :
    c ∈ d.channels ↔ ∃ s D, d.get? s = some D ∧ c ∈ D := by
  rw [channels, mem_foldl_union]
  constructor
  · intro h
    obtain h | ⟨D, hD, hc⟩ := h
    · exact absurd h SortedSet.not_mem_empty
    · obtain ⟨⟨s, E⟩, he, hE⟩ := List.mem_map.1 hD
      exact ⟨s, D, SortedMap.get?_eq_some_iff.2 (hE ▸ he), hc⟩
  · intro h
    obtain ⟨s, D, hD, hc⟩ := h
    exact Or.inr ⟨D, List.mem_map.2 ⟨(s, D), SortedMap.get?_eq_some_iff.1 hD, rfl⟩, hc⟩

end Domains

/-! ## §2 Problems -/

/-- A packing problem: the channels open to each station to pack, and a channel from an earlier
packing for some of these stations. -/
structure Problem where
  /-- The channels open to each station. -/
  domains : Domains
  /-- The channels of an earlier packing. -/
  previous : Placement
  /-- Only stations of the problem have a previous channel. -/
  previous_known : ∀ s c, previous.get? s = some c → domains.contains s = true
  deriving DecidableEq

namespace Problem

/-- The problem over some domains; a previous channel of any other station is dropped. -/
def ofDomains (domains : Domains) (previous : Placement) : Problem where
  domains := domains
  previous := previous.filter fun s _ => domains.contains s
  previous_known := by
    intro s c h
    rw [SortedMap.get?_filter, Option.filter_eq_some_iff] at h
    exact h.2

instance : Inhabited Problem := ⟨ofDomains SortedMap.empty SortedMap.empty⟩

/-- The stations to pack, in increasing order. -/
def stations (p : Problem) : List StationId := p.domains.keys

/-- The stations to pack. -/
def stationSet (p : Problem) : SortedSet StationId := p.domains.keySet

/-- The number of stations to pack. -/
def size (p : Problem) : Nat := p.domains.size

/-- Whether there is no station to pack. -/
def isEmpty (p : Problem) : Bool := p.domains.isEmpty

/-- Whether a station is to be packed. -/
def contains (p : Problem) (s : StationId) : Bool := p.domains.contains s

/-- The channels open to a station, if it is to be packed. -/
def domain? (p : Problem) (s : StationId) : Option (SortedSet Channel) := p.domains.get? s

/-- Every channel open to some station. -/
def channels (p : Problem) : SortedSet Channel := p.domains.channels

/-- Whether some station has no channel at all. -/
def hasEmptyDomain (p : Problem) : Bool := p.domains.values.any SortedSet.isEmpty

/-- The sub-problem over the stations of a set, with their domains and previous channels. -/
def restrictedTo (p : Problem) (s : SortedSet StationId) : Problem :=
  ofDomains (p.domains.filter fun t _ => s.contains t) p.previous

/-- The channels and the stations, each in increasing order and joined by hyphens. -/
def name (p : Problem) : String :=
  "-".intercalate (p.channels.toList.map toString) ++ "_" ++
    "-".intercalate (p.stations.map toString)

/-- The size of a problem in words. -/
def summary (p : Problem) : String :=
  s!"{p.size} stations over {p.channels.size} channels"

/-! ## §3 Lookups -/

@[simp] theorem domain?_ofDomains {d : Domains} {previous : Placement} {s : StationId} :
    (ofDomains d previous).domain? s = d.get? s := rfl

theorem previous_ofDomains {d : Domains} {previous : Placement} {s : StationId} :
    (ofDomains d previous).previous.get? s
      = (previous.get? s).filter fun _ => d.contains s :=
  SortedMap.get?_filter

theorem mem_stations {p : Problem} {s : StationId} :
    s ∈ p.stations ↔ ∃ D, p.domain? s = some D :=
  (SortedMap.mem_keySet (m := p.domains)).trans SortedMap.contains_iff

theorem mem_stationSet {p : Problem} {s : StationId} :
    s ∈ p.stationSet ↔ ∃ D, p.domain? s = some D := mem_stations

theorem contains_iff {p : Problem} {s : StationId} :
    p.contains s = true ↔ ∃ D, p.domain? s = some D := SortedMap.contains_iff

/-- The sub-problem keeps the domain of each station of the set and drops the other stations. -/
theorem domain?_restrictedTo {p : Problem} {t : SortedSet StationId} {s : StationId} :
    (p.restrictedTo t).domain? s = if s ∈ t then p.domain? s else none := by
  rw [restrictedTo, domain?_ofDomains, SortedMap.get?_filter]
  split
  · rename_i h
    cases hs : p.domains.get? s with
    | none => simp [domain?, hs]
    | some D => simp [domain?, hs, h]
  · rename_i h
    cases hs : p.domains.get? s with
    | none => simp
    | some D => simp [h]

theorem hasEmptyDomain_iff {p : Problem} :
    p.hasEmptyDomain = true ↔ ∃ s, p.domain? s = some SortedSet.empty := by
  rw [hasEmptyDomain, List.any_eq_true]
  constructor
  · intro h
    obtain ⟨D, hD, he⟩ := h
    obtain ⟨⟨s, E⟩, hmem, hE⟩ := List.mem_map.1 hD
    refine ⟨s, SortedMap.get?_eq_some_iff.2 ?_⟩
    rw [← SortedSet.isEmpty_iff.1 he, ← hE]
    exact hmem
  · intro h
    obtain ⟨s, hs⟩ := h
    exact ⟨SortedSet.empty,
      List.mem_map.2 ⟨(s, SortedSet.empty), SortedMap.get?_eq_some_iff.1 hs, rfl⟩, rfl⟩

end Problem

/-! ## §4 Assignments -/

/-- The stations on each channel. -/
abbrev Assignment := SortedMap Channel (SortedSet StationId)

namespace Assignment

/-- The channel of every station; of a station in several buckets the largest channel counts. -/
def placement (a : Assignment) : Placement :=
  SortedMap.ofList (a.toList.flatMap fun e => e.2.toList.map fun s => (s, e.1))

/-- Puts one more station on a channel. -/
def put (a : Assignment) (s : StationId) (c : Channel) : Assignment :=
  a.update c SortedSet.empty fun bucket => bucket.insert s

/-- Groups stations by their channel. -/
def ofPlacement (p : Placement) : Assignment :=
  p.toList.foldl (fun a e => a.put e.1 e.2) SortedMap.empty

/-- The stations on some channel. -/
def stations (a : Assignment) : SortedSet StationId :=
  a.values.foldl SortedSet.union SortedSet.empty

/-- No bucket is empty and no station lies in two buckets. -/
def IsNormal (a : Assignment) : Prop :=
  (∀ c bucket, a.get? c = some bucket → bucket ≠ SortedSet.empty) ∧
    ∀ c d b b' s, a.get? c = some b → a.get? d = some b' → s ∈ b → s ∈ b' → c = d

theorem get?_put {a : Assignment} {s : StationId} {c d : Channel} :
    (a.put s c).get? d
      = if c = d then some (((a.get? c).getD SortedSet.empty).insert s) else a.get? d :=
  SortedMap.get?_update

end Assignment

end SpectrumPacking
