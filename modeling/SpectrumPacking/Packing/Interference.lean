import SpectrumPacking.Packing.Problem

/-!
# Interference Between Stations

Two relations restrict packings.  Stations that interfere on one channel (a symmetric relation)
may not share a channel.  A directed relation on adjacent channels lets a station on channel `c`
forbid another station on channel `c + 1`.

`Interference.isSatisfiedBy_iff` says what the check of an assignment decides.
-/

namespace SpectrumPacking

/-- The set stored for a station; a station without an entry has the empty set. -/
def neighbours (m : SortedMap StationId (SortedSet StationId)) (s : StationId) :
    SortedSet StationId :=
  (m.get? s).getD SortedSet.empty

/-- The map with `t` added to the set of `s`. -/
def addNeighbour (m : SortedMap StationId (SortedSet StationId)) (s t : StationId) :
    SortedMap StationId (SortedSet StationId) :=
  m.update s SortedSet.empty fun set => set.insert t

theorem mem_neighbours_addNeighbour {m : SortedMap StationId (SortedSet StationId)}
    {s t a b : StationId} :
    b ∈ neighbours (addNeighbour m s t) a ↔ (a = s ∧ b = t) ∨ b ∈ neighbours m a := by
  rw [neighbours, addNeighbour, SortedMap.get?_update]
  split
  · rename_i h
    subst h
    simp [neighbours]
  · rename_i h
    have : ¬ a = s := fun hs => h hs.symm
    simp [neighbours, this]

/-! ## §1 The Relations -/

/-- The interference relations of a dataset. -/
structure Interference where
  /-- For each station, the stations that may not share its channel. -/
  co : SortedMap StationId (SortedSet StationId)
  /-- For each station, the stations that it keeps off the channel above its own. -/
  adjacent : SortedMap StationId (SortedSet StationId)
  /-- Sharing a channel concerns both stations alike. -/
  co_symm : ∀ {a b}, b ∈ neighbours co a → a ∈ neighbours co b
  /-- A station does not interfere with itself on its own channel. -/
  co_irrefl : ∀ {a}, ¬ a ∈ neighbours co a

namespace Interference

/-- No interference at all. -/
def none : Interference where
  co := SortedMap.empty
  adjacent := SortedMap.empty
  co_symm := fun h => absurd h SortedSet.not_mem_empty
  co_irrefl := SortedSet.not_mem_empty

instance : Inhabited Interference := ⟨none⟩

/-- The stations that may not share the channel of `s`. -/
def coStations (x : Interference) (s : StationId) : SortedSet StationId := neighbours x.co s

/-- The stations that `s` keeps off the channel above its own. -/
def adjacentStations (x : Interference) (s : StationId) : SortedSet StationId :=
  neighbours x.adjacent s

/-- Records that two stations may not share a channel; a station and itself record nothing. -/
def addCo (x : Interference) (a b : StationId) : Interference :=
  if h : a = b then x
  else
    { co := addNeighbour (addNeighbour x.co a b) b a
      adjacent := x.adjacent
      co_symm := by
        intro c d hd
        simp only [mem_neighbours_addNeighbour] at hd ⊢
        obtain ⟨hc, hd⟩ | ⟨hc, hd⟩ | hd := hd
        · exact Or.inr (Or.inl ⟨hd, hc⟩)
        · exact Or.inl ⟨hd, hc⟩
        · exact Or.inr (Or.inr (x.co_symm hd))
      co_irrefl := by
        intro c hc
        simp only [mem_neighbours_addNeighbour] at hc
        obtain ⟨hb, ha⟩ | ⟨ha, hb⟩ | hc := hc
        · exact h (ha.symm.trans hb)
        · exact h (ha.symm.trans hb)
        · exact x.co_irrefl hc }

/-- Records that `subject` on a channel forbids `target` on the channel above. -/
def addAdjacent (x : Interference) (subject target : StationId) : Interference :=
  { x with adjacent := addNeighbour x.adjacent subject target }

theorem mem_coStations_addCo {x : Interference} {a b s t : StationId} :
    t ∈ (x.addCo a b).coStations s
      ↔ (a ≠ b ∧ ((s = a ∧ t = b) ∨ (s = b ∧ t = a))) ∨ t ∈ x.coStations s := by
  rw [addCo]
  split
  · rename_i h
    simp [h]
  · rename_i h
    simp only [coStations, mem_neighbours_addNeighbour, ne_eq, h, not_false_eq_true, true_and]
    constructor
    · intro hst
      obtain hst | hst | hst := hst
      · exact Or.inl (Or.inr hst)
      · exact Or.inl (Or.inl hst)
      · exact Or.inr hst
    · intro hst
      obtain (hst | hst) | hst := hst
      · exact Or.inr (Or.inl hst)
      · exact Or.inl hst
      · exact Or.inr (Or.inr hst)

@[simp] theorem adjacentStations_addCo {x : Interference} {a b s : StationId} :
    (x.addCo a b).adjacentStations s = x.adjacentStations s := by
  rw [addCo]
  split <;> rfl

theorem mem_adjacentStations_addAdjacent {x : Interference} {a b s t : StationId} :
    t ∈ (x.addAdjacent a b).adjacentStations s
      ↔ (s = a ∧ t = b) ∨ t ∈ x.adjacentStations s :=
  mem_neighbours_addNeighbour

@[simp] theorem coStations_addAdjacent {x : Interference} {a b s : StationId} :
    (x.addAdjacent a b).coStations s = x.coStations s := rfl

/-! ## §2 Neighbourhood and Pruning -/

/-- Whether a constraint links two stations, in either direction. -/
def interferes (x : Interference) (a b : StationId) : Bool :=
  (x.coStations a).contains b || (x.adjacentStations a).contains b ||
    (x.adjacentStations b).contains a

/-- The map with an undirected edge between two stations added. -/
def addEdge (g : SortedMap StationId (SortedSet StationId)) (a b : StationId) :
    SortedMap StationId (SortedSet StationId) :=
  addNeighbour (addNeighbour g a b) b a

/-- The undirected graph of the constraints among the stations of a problem: every station of
the problem is a key, and each of its constraints adds an edge. -/
def graph (x : Interference) (p : Problem) : SortedMap StationId (SortedSet StationId) :=
  p.stations.foldl
    (fun g s =>
      (((x.coStations s).toList ++ (x.adjacentStations s).toList).filter fun t =>
        t != s && p.contains t).foldl (fun g t => addEdge g s t) g)
    (p.domains.map fun _ _ => SortedSet.empty)

/-- The channels closed to `s` while `fixed` stands on channel `c`. -/
def forbidden (x : Interference) (s fixed : StationId) (c : Channel) : List Channel :=
  (if (x.coStations s).contains fixed then [c] else []) ++
    (if (x.adjacentStations s).contains fixed then [c - 1] else []) ++
    (if (x.adjacentStations fixed).contains s then [c + 1] else [])

/-! ## §3 Checking Assignments -/

/-- Whether an assignment violates no constraint. -/
def isSatisfiedBy (x : Interference) (a : Assignment) : Bool :=
  a.toList.all fun e =>
    e.2.toList.all fun s =>
      ((x.coStations s).inter e.2).isEmpty &&
        match a.get? (e.1 + 1) with
        | some above => ((x.adjacentStations s).inter above).isEmpty
        | .none => true

/-- An assignment passes the check exactly when no two stations that interfere on one channel
share a bucket and no station stands one channel above a station that keeps it off. -/
theorem isSatisfiedBy_iff {x : Interference} {a : Assignment} :
    x.isSatisfiedBy a = true ↔
      ∀ c bucket, a.get? c = some bucket → ∀ s ∈ bucket,
        (∀ t ∈ bucket, ¬ t ∈ x.coStations s) ∧
          ∀ above, a.get? (c + 1) = some above → ∀ t ∈ above, ¬ t ∈ x.adjacentStations s := by
  -- the check asks whether sets have a member in common
  have hdisjoint : ∀ (u v : SortedSet StationId),
      (u.inter v).isEmpty = true ↔ ∀ t ∈ v, ¬ t ∈ u := by
    intro u v
    rw [SortedSet.isEmpty_iff]
    constructor
    · intro h t hv hu
      have : t ∈ u.inter v := SortedSet.mem_inter.2 ⟨hu, hv⟩
      rw [h] at this
      exact SortedSet.not_mem_empty this
    · intro h
      apply SortedSet.ext
      intro t
      constructor
      · intro ht
        obtain ⟨hu, hv⟩ := SortedSet.mem_inter.1 ht
        exact absurd hu (h t hv)
      · intro ht
        exact absurd ht SortedSet.not_mem_empty
  -- nothing stands in a bucket that is missing
  have habove : ∀ (o : Option (SortedSet StationId)) (s : StationId),
      (match o with
        | some above => ((x.adjacentStations s).inter above).isEmpty
        | .none => true) = true ↔
        ∀ above, o = some above → ∀ t ∈ above, ¬ t ∈ x.adjacentStations s := by
    intro o s
    cases o with
    | none => simp
    | some above => simp [hdisjoint]
  simp only [isSatisfiedBy, List.all_eq_true, Bool.and_eq_true, hdisjoint, habove]
  constructor
  · intro h c bucket hb s hs
    exact h (c, bucket) (SortedMap.get?_eq_some_iff.1 hb) s hs
  · intro h e he s hs
    exact h e.1 e.2 (SortedMap.get?_eq_some_iff.2 he) s hs

end Interference

end SpectrumPacking
