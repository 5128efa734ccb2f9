import SpectrumPacking.Proofs.Packing.SubProblems

/-!
# Packings Around Stations That Stay

Some stations of a problem are to stay where they were and the others are packed around them.  The
channels that a fixed station closes to another one are just those on which the two would interfere
(`Interference.Permits.not_mem_forbidden`, `Interference.Permits.or`).  So the reduced problem has
lost nothing: the whole can be packed around the fixed stations exactly if the rest can be, and the
fixed stations do not interfere among themselves (`Problem.exists_isExtension_iff`).
-/

namespace SpectrumPacking

/-! ## §1 Stations That Permit One Another -/

namespace Interference

/-- No two stations interfere where they stand. -/
structure Permits (x : Interference) (on : StationId → Channel → Prop) : Prop where
  /-- Stations that may not share a channel do not share one. -/
  co_free : ∀ s t c, on s c → on t c → ¬ t ∈ x.coStations s
  /-- No station stands one channel above a station that keeps it off. -/
  adjacent_free : ∀ s t c, on s c → on t (c + 1) → ¬ t ∈ x.adjacentStations s

variable {x : Interference} {on on' : StationId → Channel → Prop} {s f : StationId}
  {c d : Channel}

theorem isSatisfiedBy_iff_permits {a : Assignment} : x.isSatisfiedBy a = true ↔ x.Permits a.On := by
  rw [isSatisfiedBy_iff_on]
  exact ⟨fun h => ⟨h.1, h.2⟩, fun h => ⟨h.co_free, h.adjacent_free⟩⟩

/-- Fewer stations interfere less. -/
theorem Permits.mono (h : x.Permits on) (hon : ∀ s c, on' s c → on s c) : x.Permits on' where
  co_free s t c hs ht := h.co_free s t c (hon s c hs) (hon t c ht)
  adjacent_free s t c hs ht := h.adjacent_free s t c (hon s c hs) (hon t (c + 1) ht)

/-- There are three ways in which a fixed station closes a channel. -/
theorem mem_forbidden :
    c ∈ x.forbidden s f d ↔
      (f ∈ x.coStations s ∧ c = d) ∨ (f ∈ x.adjacentStations s ∧ c = d - 1) ∨
        (s ∈ x.adjacentStations f ∧ c = d + 1) := by
  have hif : ∀ (u : SortedSet StationId) (t : StationId) (e : Channel),
      c ∈ (if u.contains t then [e] else []) ↔ t ∈ u ∧ c = e := by
    intro u t e
    by_cases h : t ∈ u <;> simp [SortedSet.contains, h]
  simp only [forbidden, List.mem_append, hif, or_assoc]

/-- A station does not stand on a channel that another one closes to it. -/
theorem Permits.not_mem_forbidden (h : x.Permits on) (hs : on s c) (hf : on f d) :
    ¬ c ∈ x.forbidden s f d := by
  intro hc
  rcases mem_forbidden.1 hc with ⟨hco, rfl⟩ | ⟨hadjacent, rfl⟩ | ⟨hadjacent, rfl⟩
  · exact h.co_free s f c hs hf hco
  · -- the fixed station stands right above the other one
    exact h.adjacent_free s f (d - 1) hs ((Int.sub_add_cancel d 1).symm ▸ hf) hadjacent
  · exact h.adjacent_free f s d hf hs hadjacent

/-- Two groups of stations permit one another if each of them does, and no station of the first
stands on a channel that a station of the second closes to it. -/
theorem Permits.or (h : x.Permits on) (h' : x.Permits on')
    (hcross : ∀ s c f d, on s c → on' f d → ¬ c ∈ x.forbidden s f d) :
    x.Permits fun s c => on s c ∨ on' s c := by
  constructor
  · rintro s t c (hs | hs) (ht | ht) hco
    · exact h.co_free s t c hs ht hco
    · exact hcross s c t c hs ht (mem_forbidden.2 (Or.inl ⟨hco, rfl⟩))
    · exact hcross t c s c ht hs (mem_forbidden.2 (Or.inl ⟨x.co_symm hco, rfl⟩))
    · exact h'.co_free s t c hs ht hco
  · rintro s t c (hs | hs) (ht | ht) hadjacent
    · exact h.adjacent_free s t c hs ht hadjacent
    · have hbelow : c = c + 1 - 1 := (Int.add_sub_cancel c 1).symm
      exact hcross s c t (c + 1) hs ht (mem_forbidden.2 (Or.inr (Or.inl ⟨hadjacent, hbelow⟩)))
    · exact hcross t (c + 1) s c ht hs (mem_forbidden.2 (Or.inr (Or.inr ⟨hadjacent, rfl⟩)))
    · exact h'.adjacent_free s t c hs ht hadjacent

end Interference

namespace Problem

variable {p r : Problem} {x : Interference} {t : SortedSet StationId} {fixed : Placement}
  {a b : Assignment}

theorem Packs.permits {on : StationId → Channel → Prop} (h : p.Packs x on) : x.Permits on :=
  ⟨h.co_free, h.adjacent_free⟩

/-! ## §2 Reduced Problems -/

theorem exists_keptChannels? {l : List StationId} (h : ∀ s ∈ l, ∃ c, p.CanStay s c) :
    ∃ kept, p.keptChannels? l = some kept := by
  induction l with
  | nil => exact ⟨[], rfl⟩
  | cons s rest ih =>
    obtain ⟨c, hc, D, hD, hcD⟩ := h s List.mem_cons_self
    obtain ⟨kept, hkept⟩ := ih fun s' hs' => h s' (List.mem_cons_of_mem s hs')
    exact ⟨(s, c) :: kept, by simp [keptChannels?, hc, hD, hcD, hkept]⟩

theorem exists_prunedDomains? {l : List StationId} (h : ∀ s ∈ l, s ∈ p.stations) :
    ∃ pruned, p.prunedDomains? x fixed l = some pruned := by
  induction l with
  | nil => exact ⟨[], rfl⟩
  | cons s rest ih =>
    obtain ⟨D, hD⟩ := mem_stations.1 (h s List.mem_cons_self)
    obtain ⟨pruned, hpruned⟩ := ih fun s' hs' => h s' (List.mem_cons_of_mem s hs')
    exact ⟨(s, prune x fixed s D) :: pruned, by simp [prunedDomains?, hD, hpruned]⟩

/-- There is a reduced problem if the stations to pack belong to the problem and all others can
stay. -/
theorem exists_around? (hset : ∀ s ∈ t, s ∈ p.stations)
    (hstay : ∀ s ∈ p.stations, ¬ s ∈ t → ∃ c, p.CanStay s c) :
    ∃ r fixed, p.around? x t = some (r, fixed) := by
  have hfixed : ∃ kept, p.keptChannels? (p.stations.filter fun s => !t.contains s) = some kept := by
    apply exists_keptChannels?
    intro s hs
    obtain ⟨hs, hst⟩ := List.mem_filter.1 hs
    exact hstay s hs (by simpa [SortedSet.contains] using hst)
  obtain ⟨kept, hkept⟩ := hfixed
  have hdomains : ∃ pruned, p.prunedDomains? x (SortedMap.ofList kept) t.toList = some pruned :=
    exists_prunedDomains? hset
  obtain ⟨pruned, hpruned⟩ := hdomains
  refine ⟨ofDomains (SortedMap.ofList pruned) p.previous, SortedMap.ofList kept, ?_⟩
  simp only [around?, fixed?, hkept, hpruned, Option.map_some]

/-- The stations to pack belong to the problem if there is a reduced one. -/
theorem mem_stations_of_around? (h : p.around? x t = some (r, fixed)) {s : StationId}
    (hs : s ∈ t) : s ∈ p.stations := by
  unfold around? at h
  split at h
  · cases h
  · obtain ⟨pruned, hpruned, -⟩ := Option.map_eq_some_iff.1 h
    obtain ⟨E, D, hD, -⟩ := (tabulates_prunedDomains? hpruned).defined s hs
    exact mem_stations.2 ⟨D, hD⟩

/-! ## §3 Extensions -/

/-- A packing that leaves every station outside a set on its previous channel. -/
structure IsExtension (p : Problem) (x : Interference) (t : SortedSet StationId) (a : Assignment) :
    Prop extends p.IsPacking x a where
  /-- Stations outside the set have a previous channel and stand on it. -/
  kept : ∀ s ∈ p.stations, ¬ s ∈ t → ∃ c, p.previous.get? s = some c ∧ a.On s c

/-- The stations outside the set can stay. -/
theorem IsExtension.canStay (h : p.IsExtension x t a) {s : StationId} (hs : s ∈ p.stations)
    (hst : ¬ s ∈ t) : ∃ c, p.CanStay s c := by
  obtain ⟨c, hprevious, hc⟩ := h.kept s hs hst
  exact ⟨c, hprevious, h.open_to s c hc⟩

/-- The fixed stations stand in an extension where they are fixed. -/
theorem IsExtension.on_of_fixed (h : p.IsExtension x t a)
    (haround : p.around? x t = some (r, fixed)) {s : StationId} {c : Channel}
    (hs : fixed.On s c) : a.On s c := by
  obtain ⟨hon, -⟩ := on_of_fixed? (around?_eq_some haround).1
  obtain ⟨⟨hstations, hst⟩, hprevious, -⟩ := (hon s c).1 hs
  obtain ⟨d, hd, had⟩ := h.kept s hstations hst
  cases hprevious.symm.trans hd
  exact had

/-- The stations that are not fixed pack the reduced problem in an extension. -/
theorem IsExtension.packs_around (h : p.IsExtension x t a)
    (haround : p.around? x t = some (r, fixed)) : r.Packs x fun s c => a.On s c ∧ s ∈ t := by
  obtain ⟨-, hdomain⟩ := around?_eq_some haround
  have hpacks := (isPacking_iff.1 h.toIsPacking).2
  constructor
  case placed =>
    intro s E hE
    obtain ⟨hst, D, hD, -⟩ := (hdomain s E).1 hE
    obtain ⟨c, hc⟩ := hpacks.placed s D hD
    exact ⟨c, hc, hst⟩
  case unique =>
    intro s c d hc hd
    exact hpacks.unique s c d hc.1 hd.1
  case open_to =>
    rintro s c ⟨hc, hst⟩
    obtain ⟨D, hD, hcD⟩ := hpacks.open_to s c hc
    -- no station that stays closes the channel, as the whole is a packing
    refine ⟨_, (hdomain s _).2 ⟨hst, D, hD, rfl⟩, mem_prune.2 ⟨hcD, ?_⟩⟩
    intro f d hf
    exact hpacks.permits.not_mem_forbidden hc (h.on_of_fixed haround hf)
  case co_free =>
    intro s t' c hs ht
    exact hpacks.co_free s t' c hs.1 ht.1
  case adjacent_free =>
    intro s t' c hs ht
    exact hpacks.adjacent_free s t' c hs.1 ht.1

/-- A packing of the reduced problem passes the check together with the fixed stations exactly if
these do not interfere among themselves. -/
theorem isSatisfiedBy_merge_iff (haround : p.around? x t = some (r, fixed))
    (hb : r.IsPacking x b) : x.isSatisfiedBy (b.merge fixed) = true ↔ x.Permits fixed.On := by
  rw [Interference.isSatisfiedBy_iff_permits]
  constructor
  · intro h
    exact h.mono fun s c hs => on_merge.2 (Or.inl hs)
  · intro hfixed
    have hpacks := (isPacking_iff.1 hb).2
    have hcross : ∀ s c f d, b.On s c → fixed.On f d → ¬ c ∈ x.forbidden s f d := by
      intro s c f d hs hf
      obtain ⟨E, hE, hcE⟩ := hpacks.open_to s c hs
      obtain ⟨-, D, -, rfl⟩ := ((around?_eq_some haround).2 s E).1 hE
      exact (mem_prune.1 hcE).2 f d hf
    exact (hpacks.permits.or hfixed hcross).mono fun s c hs => (on_merge.1 hs).symm

theorem isExtension_merge (haround : p.around? x t = some (r, fixed)) (hb : r.IsPacking x b)
    (h : x.isSatisfiedBy (b.merge fixed) = true) : p.IsExtension x t (b.merge fixed) := by
  refine ⟨isPacking_merge haround hb h, ?_⟩
  intro s hs hst
  obtain ⟨hon, hstay⟩ := on_of_fixed? (around?_eq_some haround).1
  obtain ⟨c, hc⟩ := hstay s hs hst
  exact ⟨c, ((hon s c).1 hc).2.1, on_merge.2 (Or.inl hc)⟩

/-- The whole can be packed around the fixed stations exactly if the reduced problem can be packed
and the fixed stations do not interfere among themselves. -/
theorem exists_isExtension_iff (haround : p.around? x t = some (r, fixed)) :
    (∃ a, p.IsExtension x t a) ↔ r.Packable x ∧ x.Permits fixed.On := by
  constructor
  · rintro ⟨a, ha⟩
    refine ⟨(ha.packs_around haround).packable, ?_⟩
    exact (isPacking_iff.1 ha.toIsPacking).2.permits.mono fun s c => ha.on_of_fixed haround
  · rintro ⟨⟨b, hb⟩, hfixed⟩
    exact ⟨_, isExtension_merge haround hb ((isSatisfiedBy_merge_iff haround hb).2 hfixed)⟩

end Problem

end SpectrumPacking
