import SpectrumPacking.Proofs.Dataset.Listings
import SpectrumPacking.Proofs.Packing.Extensions

/-!
# Stations in Conflict

The constraints of a dataset are looked at in four ways: a constraint links two stations, the links
among the stations of a problem form a graph, a station closes channels to another one, and an
assignment is checked bucket by bucket.  Each way has its own definition, and they agree.

The graph has the stations of the problem as keys and the links as edges
(`Interference.isGraphOf_addAll`), stations without a link close no channel to each other
(`Interference.forbidden_eq_nil`), and a placement passes the check exactly if no station stands on
a channel that another one closes to it (`Interference.isSatisfiedBy_ofPlacement_iff`).
-/

namespace SpectrumPacking

namespace Interference

variable {x : Interference} {p : Problem} {a b f k s t : StationId} {c : Channel}
  {g : SortedMap StationId (SortedSet StationId)}

/-! ## §1 Links -/

theorem interferes_iff :
    x.interferes a b = true ↔
      b ∈ x.coStations a ∨ b ∈ x.adjacentStations a ∨ a ∈ x.adjacentStations b := by
  simp [interferes, or_assoc]

/-- A link has no direction. -/
theorem interferes_comm : x.interferes a b = x.interferes b a := by
  have hco : b ∈ x.coStations a ↔ a ∈ x.coStations b := ⟨x.co_symm, x.co_symm⟩
  rw [Bool.eq_iff_iff, interferes_iff, interferes_iff, hco]
  exact or_congr_right or_comm

/-- Recorded constraints link the stations that they name, in whichever order; a constraint on one
channel links no station to itself. -/
theorem interferes_addAll {l : List (Relation × StationId × StationId)} :
    (none.addAll l).interferes a b = true ↔
      ∃ r, ((r, a, b) ∈ l ∨ (r, b, a) ∈ l) ∧ (r = .co → a ≠ b) := by
  -- sharing a channel is recorded in both directions
  have hco : b ∈ (none.addAll l).coStations a ↔
      ((Relation.co, a, b) ∈ l ∨ (Relation.co, b, a) ∈ l) ∧ a ≠ b := by
    show (none.addAll l).Has .co a b ↔ _
    rw [has_addAll]
    simp only [not_has_none, or_false, Implies]
    constructor
    · intro h
      obtain ⟨s, t, hmem, hst, ⟨rfl, rfl⟩ | ⟨rfl, rfl⟩⟩ := h
      · exact ⟨Or.inl hmem, hst⟩
      · exact ⟨Or.inr hmem, hst.symm⟩
    · intro h
      obtain ⟨hmem | hmem, hab⟩ := h
      · exact ⟨a, b, hmem, hab, Or.inl ⟨rfl, rfl⟩⟩
      · exact ⟨b, a, hmem, hab.symm, Or.inr ⟨rfl, rfl⟩⟩
  -- adjacency is recorded in one direction only
  have hadjacent : ∀ s t, t ∈ (none.addAll l).adjacentStations s ↔
      (Relation.adjacent, s, t) ∈ l := by
    intro s t
    show (none.addAll l).Has .adjacent s t ↔ _
    rw [has_addAll]
    simp [not_has_none, Implies]
  rw [interferes_iff, hco, hadjacent, hadjacent]
  constructor
  · intro h
    obtain ⟨hmem, hab⟩ | hmem := h
    · exact ⟨.co, hmem, fun _ => hab⟩
    · exact ⟨.adjacent, hmem, by simp⟩
  · intro h
    obtain ⟨r, hmem, hab⟩ := h
    cases r with
    | co => exact Or.inl ⟨hmem, hab rfl⟩
    | adjacent => exact Or.inr hmem

/-! ## §2 The Graph of Links -/

/-- The links among the stations of a problem, each from the stations in whose sets it stands. -/
def links (x : Interference) (p : Problem) : List (StationId × StationId) :=
  p.stations.flatMap fun s =>
    (((x.coStations s).toList ++ (x.adjacentStations s).toList).filter fun t =>
      t != s && p.contains t).map fun t => (s, t)

theorem mem_links :
    (a, b) ∈ x.links p ↔ a ≠ b ∧ p.contains a = true ∧ p.contains b = true ∧
      (b ∈ x.coStations a ∨ b ∈ x.adjacentStations a) := by
  have hmem : a ∈ p.stations ↔ p.contains a = true :=
    Problem.mem_stations.trans Problem.contains_iff.symm
  simp only [links, List.mem_flatMap, List.mem_map, List.mem_filter, List.mem_append,
    SortedSet.mem_toList, Bool.and_eq_true, bne_iff_ne, Prod.mk.injEq]
  constructor
  · intro h
    obtain ⟨s, hs, t, ⟨hlink, hne, ht⟩, rfl, rfl⟩ := h
    exact ⟨hne.symm, hmem.1 hs, ht, hlink⟩
  · intro h
    obtain ⟨hne, ha, hb, hlink⟩ := h
    exact ⟨a, hmem.2 ha, b, ⟨hlink, hne.symm, hb⟩, rfl, rfl⟩

/-- The graph starts without edges, and each link adds one. -/
theorem graph_eq :
    x.graph p = (x.links p).foldl (fun g e => addEdge g e.1 e.2)
      (p.domains.map fun _ _ => SortedSet.empty) := by
  simp only [graph, links, List.foldl_flatMap, List.foldl_map]

/-- Edges lead both ways. -/
theorem mem_neighbours_addEdges {l : List (StationId × StationId)} :
    b ∈ neighbours (l.foldl (fun g e => addEdge g e.1 e.2) g) a ↔
      (a, b) ∈ l ∨ (b, a) ∈ l ∨ b ∈ neighbours g a := by
  induction l generalizing g with
  | nil => simp
  | cons e rest ih =>
    have hedge : b ∈ neighbours (addEdge g e.1 e.2) a ↔
        (a, b) = e ∨ (b, a) = e ∨ b ∈ neighbours g a := by
      simp only [addEdge, mem_neighbours_addNeighbour, Prod.ext_iff]
      rw [and_comm (a := b = e.1)]
      exact or_left_comm
    rw [List.foldl_cons, ih, hedge, List.mem_cons, List.mem_cons]
    tauto

/-- Edges between keys add no key. -/
theorem contains_addEdges {l : List (StationId × StationId)}
    (hl : ∀ e ∈ l, g.contains e.1 = true ∧ g.contains e.2 = true) :
    (l.foldl (fun g e => addEdge g e.1 e.2) g).contains k = g.contains k := by
  induction l generalizing g with
  | nil => rfl
  | cons e rest ih =>
    -- an edge changes what is listed under two keys that are there
    have hedge : ∀ k, (addEdge g e.1 e.2).contains k = g.contains k := by
      intro k
      obtain ⟨hs, ht⟩ := hl e List.mem_cons_self
      simp only [addEdge, addNeighbour, SortedMap.contains, SortedMap.get?_update] at hs ht ⊢
      split
      · rename_i h
        simp [← h, ht]
      split
      · rename_i h
        simp [← h, hs]
      · rfl
    rw [List.foldl_cons, ih, hedge]
    intro e' he'
    rw [hedge, hedge]
    exact hl e' (List.mem_cons_of_mem _ he')

/-- The stations of a problem that are linked are neighbours in its graph, and no others. -/
theorem mem_neighbours_graph :
    b ∈ neighbours (x.graph p) a ↔
      a ≠ b ∧ p.contains a = true ∧ p.contains b = true ∧ x.interferes a b = true := by
  have hempty : ¬ b ∈ neighbours (p.domains.map fun _ _ => SortedSet.empty) a := by
    rw [neighbours, SortedMap.get?_map]
    cases p.domains.get? a <;> simp
  have hco : b ∈ x.coStations a ↔ a ∈ x.coStations b := ⟨x.co_symm, x.co_symm⟩
  -- a link on adjacent channels stands in the set of its subject only
  rw [graph_eq, mem_neighbours_addEdges, mem_links, mem_links, interferes_iff, hco, ne_comm]
  tauto

/-- The keys of the graph are the stations of the problem. -/
theorem keySet_graph : (x.graph p).keySet = p.stationSet := by
  have hstart : ∀ k, (p.domains.map fun _ _ => (SortedSet.empty : SortedSet StationId)).contains k
      = p.contains k := by
    intro k
    simp [SortedMap.contains, SortedMap.get?_map, Problem.contains]
  have hkeys : ∀ k, (x.graph p).contains k = p.contains k := by
    intro k
    rw [graph_eq, contains_addEdges, hstart]
    intro e he
    obtain ⟨-, hs, ht, -⟩ := mem_links.1 he
    rw [hstart, hstart]
    exact ⟨hs, ht⟩
  apply SortedSet.ext
  intro k
  rw [SortedMap.mem_keySet, hkeys, Problem.mem_stationSet, Problem.contains_iff]

/-- A graph has the stations of a problem as keys, and those that are linked are neighbours, in both
directions. -/
structure IsGraphOf (g : SortedMap StationId (SortedSet StationId)) (x : Interference)
    (p : Problem) : Prop where
  /-- Each station of the problem has its neighbours listed, and no other station has. -/
  keys : g.keySet = p.stationSet
  /-- Neighbours are two stations of the problem with a link between them. -/
  mem_iff : ∀ a b, b ∈ neighbours g a ↔
    a ≠ b ∧ p.contains a = true ∧ p.contains b = true ∧ x.interferes a b = true
  /-- Neighbours list each other. -/
  symm : ∀ a b, b ∈ neighbours g a → a ∈ neighbours g b
  /-- No station lists itself. -/
  irrefl : ∀ a, ¬ a ∈ neighbours g a

/-- Whatever constraints are recorded, the graph of a problem is that of the links among its
stations; these have no direction, and come from the constraints that name both stations. -/
theorem isGraphOf_addAll (l : List (Relation × StationId × StationId)) (p : Problem) :
    IsGraphOf ((none.addAll l).graph p) (none.addAll l) p ∧
      (∀ a b, (none.addAll l).interferes a b = (none.addAll l).interferes b a) ∧
      ∀ a b, (none.addAll l).interferes a b = true ↔
        ∃ r, ((r, a, b) ∈ l ∨ (r, b, a) ∈ l) ∧ (r = .co → a ≠ b) := by
  refine ⟨⟨keySet_graph, fun a b => mem_neighbours_graph, ?_, ?_⟩, fun a b => interferes_comm,
    fun a b => interferes_addAll⟩
  · intro a b h
    obtain ⟨hne, ha, hb, hlink⟩ := mem_neighbours_graph.1 h
    exact mem_neighbours_graph.2 ⟨hne.symm, hb, ha, interferes_comm.trans hlink⟩
  · intro a h
    exact (mem_neighbours_graph.1 h).1 rfl

/-! ## §3 Closed Channels -/

/-- A station closes no channel to a station that nothing links to it. -/
theorem forbidden_eq_nil (h : ¬ x.interferes s f = true) : x.forbidden s f c = [] := by
  apply List.eq_nil_iff_forall_not_mem.2
  intro d hd
  apply h
  rw [interferes_iff]
  rcases mem_forbidden.1 hd with ⟨hco, -⟩ | ⟨habove, -⟩ | ⟨hbelow, -⟩
  · exact Or.inl hco
  · exact Or.inr (Or.inl habove)
  · exact Or.inr (Or.inr hbelow)

/-- Stations that have one channel each permit one another exactly if none of them stands on a
channel that another one closes to it. -/
theorem permits_iff_not_mem_forbidden {on : StationId → Channel → Prop}
    (hon : ∀ s c d, on s c → on s d → c = d) :
    x.Permits on ↔ ∀ s f c d, s ≠ f → on s c → on f d → ¬ c ∈ x.forbidden s f d := by
  constructor
  · intro h s f c d _ hs hf
    exact h.not_mem_forbidden hs hf
  · intro h
    constructor
    · intro s t c hs ht hco
      have hne : s ≠ t := by
        intro heq
        subst heq
        exact x.co_irrefl hco
      exact h s t c c hne hs ht (mem_forbidden.2 (Or.inl ⟨hco, rfl⟩))
    · intro s t c hs ht hadjacent
      -- a station that keeps itself off the channel above does not stand there
      have hne : s ≠ t := by
        intro heq
        subst heq
        exact Int.ne_of_lt (Int.lt_succ c) (hon s c (c + 1) hs ht)
      have hbelow : c = c + 1 - 1 := (Int.add_sub_cancel c 1).symm
      exact h s t c (c + 1) hne hs ht (mem_forbidden.2 (Or.inr (Or.inl ⟨hadjacent, hbelow⟩)))

end Interference

/-- Checking and pruning agree: a placement passes the check of assignments exactly if no station
stands on a channel that is closed to it by another one. -/
theorem Interference.isSatisfiedBy_ofPlacement_iff (x : Interference) (m : Placement) :
    x.isSatisfiedBy (Assignment.ofPlacement m) = true ↔
      ∀ s f c d, s ≠ f → m.get? s = some c → m.get? f = some d → ¬ c ∈ x.forbidden s f d := by
  have hon : (Assignment.ofPlacement m).On = m.On :=
    funext fun s => funext fun c => propext Assignment.on_ofPlacement
  rw [isSatisfiedBy_iff_permits, hon]
  apply permits_iff_not_mem_forbidden
  intro s c d hc hd
  exact Option.some.inj (hc.symm.trans hd)

end SpectrumPacking
