import SpectrumPacking.Proofs.Packing.Conflicts
import SpectrumPacking.Proofs.Solve.Programs

/-!
# Neighborhoods of Missing Stations

When an earlier packing covers most of a problem, the stations that it leaves out are packed
together with their neighbours, around all other stations.  This cuts the missing stations off:
nothing links one of them to a station that stays (`Interference.isolates_neighborhood`).  So the
certifier leaves them every channel that they had, and it gets as far as calling its solver unless
some other station has lost its channel (`Certifier.hands_neighborhood`).
-/

namespace SpectrumPacking

variable {x : Interference} {p r : Problem} {t : SortedSet StationId} {s : StationId}
  {fixed : Placement}

/-! ## §1 Missing Stations and Their Neighbours -/

theorem Problem.mem_missing :
    s ∈ p.missing ↔ s ∈ p.stations ∧ p.previous.get? s = none := by
  have hset : s ∈ p.stationSet ↔ s ∈ p.stations := Iff.rfl
  rw [missing, SortedSet.mem_filter, hset, SortedMap.contains]
  simp

/-- The neighborhood of some stations holds these, and the stations that are linked to them. -/
theorem Interference.mem_neighborhood (ht : ∀ s ∈ t, s ∈ p.stations) :
    s ∈ x.neighborhood p t ↔
      s ∈ t ∨ s ∈ p.stations ∧ ∃ m ∈ t, x.interferes m s = true := by
  -- the union over a list holds the neighbours of each of its stations
  have hunion : ∀ (l : List StationId) (u : SortedSet StationId),
      s ∈ l.foldl (fun set m => set.union (neighbours (x.graph p) m)) u ↔
        s ∈ u ∨ ∃ m ∈ l, s ∈ neighbours (x.graph p) m := by
    intro l
    induction l with
    | nil => simp
    | cons m rest ih =>
      intro u
      rw [List.foldl_cons, ih, SortedSet.mem_union]
      simp [or_assoc]
  have hcontains : ∀ s, p.contains s = true ↔ s ∈ p.stations := fun s =>
    Problem.contains_iff.trans Problem.mem_stations.symm
  rw [neighborhood, hunion]
  simp only [mem_neighbours_graph, hcontains, SortedSet.mem_toList]
  constructor
  · intro h
    obtain h | ⟨m, hm, -, -, hs, hlink⟩ := h
    · exact Or.inl h
    · exact Or.inr ⟨hs, m, hm, hlink⟩
  · intro h
    obtain h | ⟨hs, m, hm, hlink⟩ := h
    · exact Or.inl h
    -- the graph does not list a station under itself
    · by_cases hms : m = s
      · exact Or.inl (hms ▸ hm)
      · exact Or.inr ⟨m, hm, hms, ht m hm, hs, hlink⟩

/-! ## §2 Isolation -/

/-- Stations of a problem cut its missing stations off from all others. -/
structure Interference.Isolates (x : Interference) (p : Problem) (t : SortedSet StationId) :
    Prop where
  /-- The missing stations are among them. -/
  missing_mem : ∀ s ∈ p.missing, s ∈ t
  /-- They are stations of the problem. -/
  mem_stations : ∀ s ∈ t, s ∈ p.stations
  /-- Every other station has a previous channel. -/
  exists_previous : ∀ f ∈ p.stations, ¬ f ∈ t → ∃ c, p.previous.get? f = some c
  /-- On no channel does another station close one to a missing station. -/
  forbidden_eq : ∀ s ∈ p.missing, ∀ f ∈ p.stations, ¬ f ∈ t → ∀ c, x.forbidden s f c = []

theorem Interference.isolates_neighborhood : x.Isolates p (x.neighborhood p p.missing) := by
  -- whoever is linked to a missing station is in the neighborhood
  have hmem : ∀ s, s ∈ x.neighborhood p p.missing ↔
      s ∈ p.missing ∨ s ∈ p.stations ∧ ∃ m ∈ p.missing, x.interferes m s = true := fun s =>
    mem_neighborhood fun s hs => (Problem.mem_missing.1 hs).1
  constructor
  case missing_mem =>
    intro s hs
    exact (hmem s).2 (Or.inl hs)
  case mem_stations =>
    intro s hs
    rcases (hmem s).1 hs with hs | ⟨hs, -⟩
    · exact (Problem.mem_missing.1 hs).1
    · exact hs
  case exists_previous =>
    intro f hf hout
    apply Option.ne_none_iff_exists'.1
    intro hnone
    exact hout ((hmem f).2 (Or.inl (Problem.mem_missing.2 ⟨hf, hnone⟩)))
  case forbidden_eq =>
    intro s hs f hf hout c
    apply forbidden_eq_nil
    intro hlink
    exact hout ((hmem f).2 (Or.inr ⟨hf, s, hs, hlink⟩))

namespace Interference.Isolates

/-- Around the other stations, a missing station keeps its whole domain. -/
theorem domain?_eq (h : x.Isolates p t) (haround : p.around? x t = some (r, fixed))
    (hs : s ∈ p.missing) : r.domain? s = p.domain? s := by
  obtain ⟨hfixed, hdomain⟩ := Problem.around?_eq_some haround
  obtain ⟨hon, -⟩ := Problem.on_of_fixed? hfixed
  obtain ⟨D, hD⟩ := Problem.mem_stations.1 (Problem.mem_missing.1 hs).1
  have hprune : Problem.prune x fixed s D = D := by
    apply SortedSet.ext
    intro c
    rw [Problem.mem_prune]
    apply and_iff_left
    intro f d hf
    obtain ⟨⟨hstation, hout⟩, -⟩ := (hon f d).1 hf
    rw [h.forbidden_eq s hs f hstation hout d]
    exact List.not_mem_nil
  rw [hD, hdomain]
  exact ⟨h.missing_mem s hs, D, hD, hprune.symm⟩

/-- There is no reduced problem exactly if some other station has lost its previous channel. -/
theorem around?_eq_none_iff (h : x.Isolates p t) :
    p.around? x t = .none ↔
      ∃ f ∈ p.stations, ¬ f ∈ t ∧
        ∃ c D, p.previous.get? f = some c ∧ p.domain? f = some D ∧ ¬ c ∈ D := by
  constructor
  · intro hnone
    by_contra hlost
    obtain ⟨r, fixed, haround⟩ : ∃ r fixed, p.around? x t = some (r, fixed) := by
      apply Problem.exists_around? h.mem_stations
      intro f hf hout
      obtain ⟨c, hc⟩ := h.exists_previous f hf hout
      obtain ⟨D, hD⟩ := Problem.mem_stations.1 hf
      refine ⟨c, hc, D, hD, ?_⟩
      by_contra hcD
      exact hlost ⟨f, hf, hout, c, D, hc, hD, hcD⟩
    rw [hnone] at haround
    cases haround
  · intro hlost
    obtain ⟨f, hf, hout, c, D, hc, hD, hcD⟩ := hlost
    apply Option.eq_none_iff_forall_not_mem.2
    intro e he
    obtain ⟨hfixed, -⟩ := Problem.around?_eq_some he
    obtain ⟨hon, hstay⟩ := Problem.on_of_fixed? hfixed
    -- a station that is fixed can stay on its previous channel
    obtain ⟨d, hd⟩ := hstay f hf hout
    obtain ⟨-, hprevious, E, hE, hdE⟩ := (hon f d).1 hd
    cases hc.symm.trans hprevious
    cases hD.symm.trans hE
    exact hcD hdE

end Interference.Isolates

/-! ## §3 What the Certifier Hands On -/

section Certifiers

variable {σ : Type} [Timed σ] {criterion : Criterion σ} {seed : Nat}

instance : Timed (Traced Problem σ) := ⟨offTrace Timed.read⟩

/-- A solver that leaves the problems that it is given in the trace. -/
def Solver.noting (solver : Solver σ) : Solver (Traced Problem σ) :=
  solver.traced fun q _ _ => q

theorem traces_now : Traces (Timed.now : StateM (Traced Problem σ) Duration) Timed.now
    fun _ added => added = [] :=
  Traces.offTrace.seq fun _ => .pure rfl

theorem traces_since {start : Duration} :
    Traces (Timed.since start : StateM (Traced Problem σ) Duration) (Timed.since start)
      fun _ added => added = [] :=
  traces_now.seq fun _ => .pure rfl

/-- The certifier hands the reduced problem to its solver, if there is one, and nothing else. -/
theorem Certifier.traces_sat {solver : Solver σ} :
    Traces ((Certifier.sat x solver.noting).certify p t criterion.offTrace seed)
      ((Certifier.sat x solver).certify p t criterion seed) fun _ handed =>
        handed = ((p.around? x t).map Prod.fst).toList := by
  unfold Certifier.sat
  refine .seq traces_now fun start => ?_
  dsimp only
  -- without a reduced problem the solver is not called
  cases haround : p.around? x t with
  | none => exact .seq traces_since fun d => .pure rfl
  | some e =>
    obtain ⟨reduced, fixed⟩ := e
    refine .seq traces_since fun prepared => ?_
    refine .seq Solver.traces_traced fun result => ?_
    split
    · exact .pure rfl
    split
    · exact .pure rfl
    · exact .seq traces_since fun d => .pure rfl

/-- What is handed on to pack stations around all others: one problem, which leaves the missing
stations their whole domains, unless some other station has lost its previous channel. -/
structure Problem.HandsOn (p : Problem) (t : SortedSet StationId) (handed : List Problem) :
    Prop where
  /-- There is one problem at most. -/
  length_le : handed.length ≤ 1
  /-- No channel is closed to a missing station. -/
  whole : ∀ q ∈ handed, ∀ s ∈ p.missing, ∃ D, p.domain? s = some D ∧ q.domain? s = some D
  /-- There is none exactly if the previous channel of another station is not in its domain. -/
  nil_iff : handed = [] ↔
    ∃ f ∈ p.stations, ¬ f ∈ t ∧
      ∃ c D, p.previous.get? f = some c ∧ p.domain? f = some D ∧ ¬ c ∈ D

/-- The missing stations and the stations linked to them cut the missing ones off from all others.
The certifier that packs them around the others therefore closes no channel to a missing station,
and calls its solver unless one of the others has lost its channel. -/
theorem Certifier.hands_neighborhood (x : Interference) (p : Problem) (solver : Solver σ)
    (criterion : Criterion σ) (seed : Nat) :
    (∀ s, s ∈ x.neighborhood p p.missing ↔
      s ∈ p.missing ∨ s ∈ p.stations ∧ ∃ m ∈ p.missing, x.interferes m s = true) ∧
    x.Isolates p (x.neighborhood p p.missing) ∧
    Traces ((Certifier.sat x solver.noting).certify p (x.neighborhood p p.missing)
        criterion.offTrace seed)
      ((Certifier.sat x solver).certify p (x.neighborhood p p.missing) criterion seed)
      fun _ handed => p.HandsOn (x.neighborhood p p.missing) handed := by
  have hisolates : x.Isolates p (x.neighborhood p p.missing) := Interference.isolates_neighborhood
  refine ⟨?_, hisolates, ?_⟩
  · intro s
    exact Interference.mem_neighborhood fun s hs => (Problem.mem_missing.1 hs).1
  · apply traces_sat.mono
    intro result handed hhanded
    subst hhanded
    constructor
    · exact Option.length_toList_le
    · intro q hq s hs
      -- the problem handed over is the reduced one
      obtain ⟨⟨q, fixed⟩, haround, rfl⟩ := Option.map_eq_some_iff.1 (Option.mem_toList.1 hq)
      obtain ⟨D, hD⟩ := Problem.mem_stations.1 (Problem.mem_missing.1 hs).1
      exact ⟨D, hD, (hisolates.domain?_eq haround hs).trans hD⟩
    · rw [← hisolates.around?_eq_none_iff, Option.toList_eq_nil_iff, Option.map_eq_none_iff]

end Certifiers

end SpectrumPacking
