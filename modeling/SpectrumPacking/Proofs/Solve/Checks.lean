import SpectrumPacking.Proofs.Encoding.Acceptance
import SpectrumPacking.Proofs.Solve.Conclusions
import SpectrumPacking.Search.Complete

/-!
# Checking an Engine's Model

Exact search never evaluates the formula that it has an engine search: it decodes the literals that
come back and checks the assignment against the interference.  The two accept exactly the complete
lists that make the formula true (`Problem.exists_packingOf?_iff`), so a result SAT is the engine's
when it is right, and a crash when it is not (`EngineAccess.solver_of_reports`).
-/

namespace SpectrumPacking

/-! ## §1 No Contradiction by Chance -/

namespace Problem

variable {p : Problem} {x : Interference} {l : List Literal} {a : Assignment}

/-- A clause of an encoding puts a station on some channel, or excludes two variables together. -/
theorem eq_of_mem_stationClauses {row : Nat} {s : StationId} {D : SortedSet Channel} {k : Clause}
    (h : k ∈ p.stationClauses x row s D) :
    k = (Numbering.ofProblem p).atLeastOne s D ∨ ∃ u v, k = Numbering.notBoth u v := by
  have hexclusion : ∀ {s c t d}, (Numbering.ofProblem p).exclusion s c t d = some k →
      ∃ u v, k = Numbering.notBoth u v := by
    intro s c t d hk
    unfold Numbering.exclusion at hk
    split at hk
    · exact ⟨_, _, (Option.some.inj hk).symm⟩
    · cases hk
  unfold stationClauses at h
  simp only [List.mem_append, List.mem_cons] at h
  -- one case for each family
  rcases h with (hk | rfl | hk) | hk
  · obtain ⟨⟨i, j⟩, -, rfl⟩ := List.mem_map.1 hk
    exact Or.inr ⟨_, _, rfl⟩
  · exact Or.inl rfl
  · obtain ⟨t, -, -, E, D', -, -, c, -, -, hk⟩ := Numbering.mem_coChannel.1 hk
    exact Or.inr (hexclusion hk)
  · obtain ⟨t, -, E, D', -, -, c, -, -, hk⟩ := Numbering.mem_adjacentChannel.1 hk
    exact Or.inr (hexclusion hk)

/-- The fixed contradiction has a clause that denies one variable, and no encoding has: only an
empty domain makes the formula of a problem the fixed contradiction. -/
theorem not_isContradiction_encode (hp : (Numbering.ofProblem p).Fits)
    (h : p.hasEmptyDomain = false) : ¬ (p.encode x).isContradiction = true := by
  intro hcontradiction
  rw [Cnf.isContradiction, beq_iff_eq, encode, if_neg (by simp [h])] at hcontradiction
  have hmem : ([-1] : Clause) ∈ Cnf.contradiction.clauses := by decide
  rw [← hcontradiction] at hmem
  obtain ⟨⟨⟨s, D⟩, row⟩, -, hmem⟩ := List.mem_flatMap.1 hmem
  rcases eq_of_mem_stationClauses hmem with hk | ⟨u, v, hk⟩
  · have hone : (-1 : Literal) ∈ (Numbering.ofProblem p).atLeastOne s D := by
      rw [← hk]
      exact List.mem_singleton_self _
    obtain ⟨c, -, hc⟩ := List.mem_filterMap.1 hone
    obtain ⟨j, hj, -⟩ := Numbering.literal?_range hp hc
    have hj : (-1 : Int) = (j : Int) := hj
    omega
  · simp [Numbering.notBoth] at hk

/-! ## §2 Two Checkers -/

theorem packingOf?_eq_some_iff :
    p.packingOf? x l = some a ↔ p.decode l = .ok a ∧ x.isSatisfiedBy a = true := by
  unfold packingOf?
  cases p.decode l with
  | error e => simp
  | ok b =>
    simp only [Except.ok.injEq]
    split
    · rename_i haccepted
      rw [Option.some.injEq]
      constructor
      · rintro rfl
        exact ⟨rfl, haccepted⟩
      · exact fun h => h.1
    -- a packing that violates a constraint is not taken
    · rename_i hrefused
      simp only [reduceCtorEq, false_iff]
      rintro ⟨rfl, haccepted⟩
      exact hrefused haccepted

/-- Decoding and the check of assignments together accept the complete lists that make the formula
true, and no others. -/
theorem exists_packingOf?_iff (hp : (Numbering.ofProblem p).Fits) :
    (∃ a, p.packingOf? x l = some a) ↔
      (Numbering.ofProblem p).IsSigning l ∧ (p.encode x).holds (Valuation.ofLiterals l) = true := by
  simp only [packingOf?_eq_some_iff]
  constructor
  · rintro ⟨a, hdecode, haccepted⟩
    have hl := ((decode_eq_ok_iff hp).1 hdecode).1
    exact ⟨hl, (holds_iff_decode hp hl).2 ⟨a, hdecode, haccepted⟩⟩
  · rintro ⟨hl, hholds⟩
    exact (holds_iff_decode hp hl).1 hholds

/-- The packing that is taken is the one that the literals select. -/
theorem of_packingOf?_eq_some (hp : (Numbering.ofProblem p).Fits) (h : p.packingOf? x l = some a) :
    p.IsPacking x a ∧ p.Collects l a := by
  obtain ⟨hdecode, haccepted⟩ := packingOf?_eq_some_iff.1 h
  exact ⟨isPacking_of_decode hdecode haccepted, (isSelection_of_decode hp hdecode).2⟩

end Problem

/-! ## §3 Exact Search -/

namespace EngineAccess

variable {σ : Type} [Timed σ]

/-- From a state on, exact search of a problem is not stopped by its criterion, and the engine
answers the formula of the problem with SAT and some literals. -/
def Reports (engine : EngineAccess σ) (x : Interference) (p : Problem) (criterion : Criterion σ)
    (seed : Nat) (s : σ) (l : List Literal) : Prop :=
  let (stop, asked) := criterion.hasToStop (Timed.now s).2
  let (cutoff, timed) := criterion.remaining asked
  stop = false ∧ (engine.solve ⟨p.encode x, cutoff, seed⟩ timed).1 = .ok ⟨.sat, l⟩

variable {engine : EngineAccess σ} {x : Interference} {p : Problem} {criterion : Criterion σ}
  {seed : Nat} {s : σ} {l : List Literal}

/-- What is returned is what the literals of the engine amount to. -/
theorem Reports.exists_resultOf (h : engine.Reports x p criterion seed s l)
    (hstations : p.isEmpty = false) (hcontradiction : ¬ (p.encode x).isContradiction = true) :
    ∃ d, ((engine.solver x).solve p criterion seed s).1 = p.resultOf x d (.ok ⟨.sat, l⟩) := by
  unfold Reports at h
  unfold solver
  -- the search goes through the states that the report speaks of
  rcases hnow : (Timed.now s : Duration × σ) with ⟨start, started⟩
  rcases hask : criterion.hasToStop started with ⟨stop, asked⟩
  rcases htime : criterion.remaining asked with ⟨cutoff, timed⟩
  rcases hsolve : engine.solve ⟨p.encode x, cutoff, seed⟩ timed with ⟨answer, answered⟩
  simp only [hnow, hask, htime, hsolve] at h
  obtain ⟨rfl, rfl⟩ := h
  simp only [bind, StateT.bind, hnow, hask, hstations, hcontradiction, htime, hsolve,
    Bool.false_eq_true, if_false]
  exact ⟨(Timed.since start answered).1, rfl⟩

/-- An engine that reports a model is believed exactly if it is right: the literals are complete and
make the formula true.  The result is then the packing that they select.  Otherwise the search
counts as crashed. -/
theorem solver_of_reports (hp : (Numbering.ofProblem p).Fits) (hstations : p.isEmpty = false)
    (hdomains : p.hasEmptyDomain = false) (h : engine.Reports x p criterion seed s l) :
    let r := ((engine.solver x).solve p criterion seed s).1
    (r.verdict = .sat ↔
        (Numbering.ofProblem p).IsSigning l ∧ (p.encode x).holds (Valuation.ofLiterals l) = true) ∧
      (r.verdict = .sat → p.IsPacking x r.assignment ∧ p.Collects l r.assignment) ∧
      (¬ r.verdict = .sat → r.verdict = .crashed ∧ r.assignment = SortedMap.empty) := by
  intro r
  obtain ⟨d, hr⟩ := h.exists_resultOf hstations (Problem.not_isContradiction_encode hp hdomains)
  have hr : r = p.resultOf x d (.ok ⟨.sat, l⟩) := hr
  rw [hr, ← Problem.exists_packingOf?_iff hp, Problem.resultOf]
  -- the verdict is SAT exactly if the check passes
  cases hpacking : p.packingOf? x l with
  | some a =>
    refine ⟨iff_of_true rfl ⟨a, rfl⟩, fun _ => Problem.of_packingOf?_eq_some hp hpacking, ?_⟩
    exact fun hv => absurd rfl hv
  | none =>
    have hverdict : ¬ Verdict.crashed = Verdict.sat := by decide
    refine ⟨iff_of_false hverdict ?_, fun hv => absurd hv hverdict, fun _ => ⟨rfl, rfl⟩⟩
    rintro ⟨a, ha⟩
    cases ha

/-- An engine that answers every job with the same literals. -/
def answering (l : List Literal) : EngineAccess σ where
  solve _ := pure (.ok ⟨.sat, l⟩)
  interrupt := pure ()
  shutdown := pure ()

/-- The stations of the pair may not share a channel.  Literals that put them on two channels are
believed, and literals that put them on one are not. -/
theorem solver_of_reports_pair :
    let x := Interference.none.addCo 1 2
    let verdict := fun l => (((answering l : EngineAccess (World CompleteEngine)).solver x).solve
      .pair .never 0 {}).1.verdict
    (Numbering.ofProblem .pair).Fits ∧ verdict [1, -2, -3, 4] = .sat ∧
      verdict [1, -2, 3, -4] = .crashed := by
  intro x verdict
  have hp : (Numbering.ofProblem .pair).Fits := by decide
  have hreports : ∀ l, (answering l : EngineAccess (World CompleteEngine)).Reports x .pair .never 0
      {} l := fun l => ⟨rfl, rfl⟩
  have hcomplete : (Numbering.ofProblem .pair).IsSigning [1, -2, -3, 4] := by
    unfold Numbering.IsSigning
    decide
  have hfalse : ¬ (Problem.pair.encode x).holds (Valuation.ofLiterals [1, -2, 3, -4]) = true := by
    decide
  exact ⟨hp, (solver_of_reports hp rfl rfl (hreports _)).1.2 ⟨hcomplete, by decide⟩,
    ((solver_of_reports hp rfl rfl (hreports _)).2.2 fun hv =>
      hfalse ((solver_of_reports hp rfl rfl (hreports _)).1.1 hv).2).1⟩

end EngineAccess

end SpectrumPacking
