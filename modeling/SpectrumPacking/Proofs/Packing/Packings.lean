import SpectrumPacking.Packing.Interference

/-!
# Packings

What it means that stations on channels pack a problem, whichever way it is written down who
stands where: `Problem.Packs` speaks of any relation between stations and channels.  A placement
and an assignment each give such a relation (`Placement.On`, `Assignment.On`), and an assignment in
normal form is determined by it.

`Problem.isPacking_iff` joins the check of assignments to the relation.
-/

namespace SpectrumPacking

/-! ## §1 Who Stands Where -/

/-- Station `s` stands on channel `c`. -/
def Placement.On (m : Placement) (s : StationId) (c : Channel) : Prop := m.get? s = some c

namespace Assignment

/-- Station `s` lies in the bucket of channel `c`. -/
def On (a : Assignment) (s : StationId) (c : Channel) : Prop :=
  ∃ bucket, a.get? c = some bucket ∧ s ∈ bucket

theorem not_on_empty {s : StationId} {c : Channel} : ¬ On SortedMap.empty s c := by
  rintro ⟨bucket, h, -⟩
  cases h

theorem isNormal_empty : IsNormal SortedMap.empty :=
  ⟨fun _ _ h => absurd h (by simp), fun _ _ _ _ _ h => absurd h (by simp)⟩

theorem on_put {a : Assignment} {s t : StationId} {c d : Channel} :
    (a.put s c).On t d ↔ (t = s ∧ d = c) ∨ a.On t d := by
  by_cases hcd : c = d
  · subst hcd
    cases hc : a.get? c with
    | none => simp [On, get?_put, hc]
    | some bucket => simp [On, get?_put, hc]
  · have hdc : ¬ d = c := fun h => hcd h.symm
    simp [On, get?_put, hcd, hdc]

theorem IsNormal.unique {a : Assignment} (ha : a.IsNormal) {s : StationId} {c d : Channel}
    (hc : a.On s c) (hd : a.On s d) : c = d := by
  obtain ⟨b, hb, hs⟩ := hc
  obtain ⟨b', hb', hs'⟩ := hd
  exact ha.2 c d b b' s hb hb' hs hs'

/-- A bucket of an assignment in normal form has a station in it. -/
theorem IsNormal.exists_on {a : Assignment} (ha : a.IsNormal) {c : Channel}
    {bucket : SortedSet StationId} (hb : a.get? c = some bucket) : ∃ s, a.On s c := by
  obtain ⟨s, hs⟩ := SortedSet.exists_mem_of_ne_empty (ha.1 c bucket hb)
  exact ⟨s, bucket, hb, hs⟩

/-- A station that stands nowhere else may be put on a channel. -/
theorem IsNormal.put {a : Assignment} (ha : a.IsNormal) {s : StationId} {c : Channel}
    (hs : ∀ d, a.On s d → d = c) : (a.put s c).IsNormal := by
  constructor
  · intro d bucket hd hempty
    rw [get?_put] at hd
    split at hd
    · cases hd
      have hmem : s ∈ ((a.get? c).getD SortedSet.empty).insert s := by simp
      rw [hempty] at hmem
      exact SortedSet.not_mem_empty hmem
    · exact ha.1 d bucket hd hempty
  -- two buckets with one station: either both are old, or the station is the new one
  · intro d e b b' t hd he htb htb'
    rcases on_put.1 ⟨b, hd, htb⟩ with ⟨ht, hdc⟩ | hdt
    · rcases on_put.1 ⟨b', he, htb'⟩ with ⟨-, hec⟩ | het
      · rw [hdc, hec]
      · rw [hdc, hs e (ht ▸ het)]
    · rcases on_put.1 ⟨b', he, htb'⟩ with ⟨ht, hec⟩ | het
      · rw [hec, hs d (ht ▸ hdt)]
      · exact ha.unique hdt het

/-- Assignments in normal form are equal when the same stations stand on the same channels. -/
theorem IsNormal.ext {a b : Assignment} (ha : a.IsNormal) (hb : b.IsNormal)
    (h : ∀ s c, a.On s c ↔ b.On s c) : a = b := by
  -- a bucket is the set of the stations that stand on its channel
  have hsub : ∀ {a b : Assignment}, a.IsNormal → (∀ s c, a.On s c ↔ b.On s c) →
      ∀ c bucket, a.get? c = some bucket → b.get? c = some bucket := by
    intro a b ha h c bucket hc
    obtain ⟨s, hs⟩ := ha.exists_on hc
    obtain ⟨bucket', hc', -⟩ := (h s c).1 hs
    have hsame : bucket = bucket' := by
      apply SortedSet.ext
      intro t
      have ht := h t c
      simp only [On, hc, hc', Option.some.injEq, exists_eq_left'] at ht
      exact ht
    rw [hsame]
    exact hc'
  apply SortedMap.ext
  intro c
  cases hc : a.get? c with
  | some bucket => exact (hsub ha h c bucket hc).symm
  | none =>
    cases hc' : b.get? c with
    | none => rfl
    | some bucket =>
      have := hsub hb (fun s c => (h s c).symm) c bucket hc'
      rw [hc] at this
      cases this

/-- The stations with their channels, bucket after bucket. -/
def entries (a : Assignment) : List (StationId × Channel) :=
  a.toList.flatMap fun e => e.2.toList.map fun s => (s, e.1)

theorem mem_entries {a : Assignment} {s : StationId} {c : Channel} :
    (s, c) ∈ a.entries ↔ a.On s c := by
  simp only [entries, List.mem_flatMap, List.mem_map, Prod.mk.injEq, On, SortedMap.get?_eq_some_iff]
  constructor
  · rintro ⟨⟨d, bucket⟩, he, t, ht, rfl, rfl⟩
    exact ⟨bucket, he, ht⟩
  · rintro ⟨bucket, he, hs⟩
    exact ⟨(c, bucket), he, s, hs, rfl, rfl⟩

theorem placement_eq {a : Assignment} : a.placement = SortedMap.ofList a.entries := rfl

theorem placement_on {a : Assignment} (ha : a.IsNormal) {s : StationId} {c : Channel} :
    a.placement.On s c ↔ a.On s c := by
  rw [Placement.On, placement_eq, SortedMap.get?_ofList_iff, mem_entries]
  intro t d e hd he
  exact ha.unique (mem_entries.1 hd) (mem_entries.1 he)

/-! ## §2 Putting Stations on Their Channels -/

/-- Puts every station of an entry list on its channel. -/
def putAll (a : Assignment) (l : List (StationId × Channel)) : Assignment :=
  l.foldl (fun a e => a.put e.1 e.2) a

theorem on_putAll {a : Assignment} {l : List (StationId × Channel)} {s : StationId}
    {c : Channel} : (a.putAll l).On s c ↔ (s, c) ∈ l ∨ a.On s c := by
  induction l generalizing a with
  | nil => simp [putAll]
  | cons e l ih =>
    rw [show a.putAll (e :: l) = (a.put e.1 e.2).putAll l from rfl, ih, on_put, List.mem_cons,
      Prod.ext_iff, or_left_comm, or_assoc]

/-- Stations with one channel each, none of which stands elsewhere, may be put on their
channels. -/
theorem IsNormal.putAll {a : Assignment} {l : List (StationId × Channel)} (ha : a.IsNormal)
    (hl : ∀ s c d, (s, c) ∈ l → (s, d) ∈ l → d = c)
    (hs : ∀ s c d, (s, c) ∈ l → a.On s d → d = c) : (a.putAll l).IsNormal := by
  induction l generalizing a with
  | nil => exact ha
  | cons e l ih =>
    have hput : (a.put e.1 e.2).IsNormal := ha.put fun d hd => hs e.1 e.2 d (by simp) hd
    apply ih hput
    · intro s c d hc hd
      exact hl s c d (List.mem_cons_of_mem e hc) (List.mem_cons_of_mem e hd)
    · intro s c d hc hd
      rcases on_put.1 hd with ⟨rfl, rfl⟩ | hd
      · exact hl e.1 c e.2 (List.mem_cons_of_mem e hc) (by simp)
      · exact hs s c d (List.mem_cons_of_mem e hc) hd

theorem on_ofPlacement {m : Placement} {s : StationId} {c : Channel} :
    (ofPlacement m).On s c ↔ m.On s c := by
  have hput : (ofPlacement m).On s c ↔ (s, c) ∈ m.toList ∨ On SortedMap.empty s c := on_putAll
  rw [hput, Placement.On, SortedMap.get?_eq_some_iff]
  exact or_iff_left not_on_empty

/-- The stations of a placement may be put on their channels, if none of them stands anywhere. -/
theorem IsNormal.putPlacement {a : Assignment} {m : Placement} (ha : a.IsNormal)
    (hs : ∀ s c d, m.On s c → ¬ a.On s d) : (a.putAll m.toList).IsNormal := by
  apply ha.putAll
  · intro s c d hc hd
    rw [← SortedMap.get?_eq_some_iff] at hc hd
    exact Option.some.inj (hd.symm.trans hc)
  · intro s c d hc hd
    rw [← SortedMap.get?_eq_some_iff] at hc
    exact absurd hd (hs s c d hc)

theorem isNormal_ofPlacement {m : Placement} : (ofPlacement m).IsNormal :=
  isNormal_empty.putPlacement fun _ _ _ _ => not_on_empty

end Assignment

/-! ## §3 The Check of Assignments -/

/-- The check of assignments, said of stations and channels instead of buckets. -/
theorem Interference.isSatisfiedBy_iff_on {x : Interference} {a : Assignment} :
    x.isSatisfiedBy a = true ↔
      (∀ s t c, a.On s c → a.On t c → ¬ t ∈ x.coStations s) ∧
        ∀ s t c, a.On s c → a.On t (c + 1) → ¬ t ∈ x.adjacentStations s := by
  rw [isSatisfiedBy_iff]
  constructor
  · intro h
    constructor
    · rintro s t c ⟨bucket, hc, hs⟩ ⟨bucket', hc', ht⟩
      rw [hc] at hc'
      cases hc'
      exact (h c bucket hc s hs).1 t ht
    · rintro s t c ⟨bucket, hc, hs⟩ ⟨above, hc', ht⟩
      exact (h c bucket hc s hs).2 above hc' t ht
  · rintro ⟨hco, hadjacent⟩ c bucket hc s hs
    constructor
    · intro t ht
      exact hco s t c ⟨bucket, hc, hs⟩ ⟨bucket, hc, ht⟩
    · intro above hc' t ht
      exact hadjacent s t c ⟨bucket, hc, hs⟩ ⟨above, hc', ht⟩

/-! ## §4 Packings -/

namespace Problem

/-- Stations stand on channels so that they pack a problem. -/
structure Packs (p : Problem) (x : Interference) (on : StationId → Channel → Prop) : Prop where
  /-- Every station of the problem stands somewhere. -/
  placed : ∀ s D, p.domain? s = some D → ∃ c, on s c
  /-- No station stands on two channels. -/
  unique : ∀ s c d, on s c → on s d → c = d
  /-- Only stations of the problem stand anywhere, and on channels open to them. -/
  open_to : ∀ s c, on s c → ∃ D, p.domain? s = some D ∧ c ∈ D
  /-- Stations that may not share a channel do not share one. -/
  co_free : ∀ s t c, on s c → on t c → ¬ t ∈ x.coStations s
  /-- No station stands one channel above a station that keeps it off. -/
  adjacent_free : ∀ s t c, on s c → on t (c + 1) → ¬ t ∈ x.adjacentStations s

/-- An assignment puts every station of a problem on exactly one channel, which is in its domain. -/
structure IsSeating (p : Problem) (a : Assignment) : Prop where
  /-- No bucket is empty and no station lies in two buckets. -/
  normal : a.IsNormal
  /-- Every station of the problem lies in some bucket. -/
  placed : ∀ s D, p.domain? s = some D → ∃ c, a.On s c
  /-- Only stations of the problem lie in buckets, and in those of channels open to them. -/
  open_to : ∀ s c, a.On s c → ∃ D, p.domain? s = some D ∧ c ∈ D

/-- An assignment is a packing: it seats the stations of the problem and passes the check. -/
structure IsPacking (p : Problem) (x : Interference) (a : Assignment) : Prop
    extends p.IsSeating a where
  /-- No interference is found. -/
  accepted : x.isSatisfiedBy a = true

/-- A problem has a packing. -/
def Packable (p : Problem) (x : Interference) : Prop := ∃ a, p.IsPacking x a

variable {p : Problem} {x : Interference}

theorem isPacking_iff {a : Assignment} : p.IsPacking x a ↔ a.IsNormal ∧ p.Packs x a.On := by
  constructor
  · intro h
    obtain ⟨hco, hadjacent⟩ := Interference.isSatisfiedBy_iff_on.1 h.accepted
    exact ⟨h.normal, h.placed, fun _ _ _ => h.normal.unique, h.open_to, hco, hadjacent⟩
  · rintro ⟨hnormal, h⟩
    exact ⟨⟨hnormal, h.placed, h.open_to⟩,
      Interference.isSatisfiedBy_iff_on.2 ⟨h.co_free, h.adjacent_free⟩⟩

theorem Packs.congr {on on' : StationId → Channel → Prop} (h : ∀ s c, on s c ↔ on' s c) :
    p.Packs x on ↔ p.Packs x on' := by
  have : on = on' := funext fun s => funext fun c => propext (h s c)
  rw [this]

/-- A relation that packs a problem is that of a packing, which lists it. -/
theorem Packs.exists_assignment {on : StationId → Channel → Prop} (h : p.Packs x on) :
    ∃ a, p.IsPacking x a ∧ ∀ s c, a.On s c ↔ on s c := by
  classical
  -- all pairs of a station and its channel, put one after another
  let l := p.stations.flatMap fun s =>
    (p.channels.toList.filter fun c => on s c).map fun c => (s, c)
  have hl : ∀ s c, (s, c) ∈ l ↔ on s c := by
    intro s c
    simp only [l, List.mem_flatMap, List.mem_map, List.mem_filter, Prod.mk.injEq,
      decide_eq_true_eq]
    constructor
    · rintro ⟨t, -, d, ⟨-, hd⟩, rfl, rfl⟩
      exact hd
    · intro hc
      obtain ⟨D, hD, hcD⟩ := h.open_to s c hc
      exact ⟨s, mem_stations.2 ⟨D, hD⟩, c, ⟨Domains.mem_channels.2 ⟨s, D, hD, hcD⟩, hc⟩, rfl, rfl⟩
  have hon : ∀ s c, (Assignment.putAll SortedMap.empty l).On s c ↔ on s c := by
    intro s c
    rw [Assignment.on_putAll, hl]
    exact or_iff_left Assignment.not_on_empty
  have hnormal : (Assignment.putAll SortedMap.empty l).IsNormal := by
    apply Assignment.isNormal_empty.putAll
    · intro s c d hc hd
      exact h.unique s d c ((hl s d).1 hd) ((hl s c).1 hc)
    · intro s c d _ hd
      exact absurd hd Assignment.not_on_empty
  exact ⟨_, isPacking_iff.2 ⟨hnormal, (Packs.congr hon).2 h⟩, hon⟩

theorem Packs.packable {on : StationId → Channel → Prop} (h : p.Packs x on) : p.Packable x := by
  obtain ⟨a, ha, -⟩ := h.exists_assignment
  exact ⟨a, ha⟩

theorem packable_iff : p.Packable x ↔ ∃ on, p.Packs x on := by
  constructor
  · rintro ⟨a, ha⟩
    exact ⟨a.On, (isPacking_iff.1 ha).2⟩
  · rintro ⟨on, h⟩
    exact h.packable

/-- A station without a channel leaves no packing. -/
theorem not_packable_of_hasEmptyDomain (h : p.hasEmptyDomain = true) : ¬ p.Packable x := by
  rintro ⟨a, ha⟩
  obtain ⟨s, hs⟩ := hasEmptyDomain_iff.1 h
  obtain ⟨c, hc⟩ := ha.placed s _ hs
  obtain ⟨D, hD, hcD⟩ := ha.open_to s c hc
  rw [hs] at hD
  cases hD
  exact SortedSet.not_mem_empty hcD

/-- Two stations that may not share a channel cannot both have it as their only one. -/
theorem not_packable_of_clash {s t : StationId} {c : Channel}
    (hs : p.domain? s = some (SortedSet.ofList [c]))
    (ht : p.domain? t = some (SortedSet.ofList [c])) (hco : t ∈ x.coStations s) :
    ¬ p.Packable x := by
  rw [packable_iff]
  rintro ⟨on, h⟩
  have hon : ∀ u, p.domain? u = some (SortedSet.ofList [c]) → on u c := by
    intro u hu
    obtain ⟨d, hd⟩ := h.placed u _ hu
    obtain ⟨D, hD, hdD⟩ := h.open_to u d hd
    cases hu.symm.trans hD
    rw [SortedSet.mem_ofList, List.mem_singleton] at hdD
    exact hdD ▸ hd
  exact h.co_free s t c (hon s hs) (hon t ht) hco

end Problem

end SpectrumPacking
