import SpectrumPacking.Proofs.Packing.Extensions
import SpectrumPacking.Proofs.Solve.Deciders

/-!
# What Packing Around Fixed Stations Decides

The certifier that packs some stations around all others is more than sound: if the solver that it
calls finds a packing whenever there is one, the certifier finds a packing that leaves the others
where they were whenever there is one (`Certifier.decidesExtension_sat`).  When there is none, it
says nothing, since the problem may have other packings.
-/

namespace SpectrumPacking

/-! ## §1 Results That Can Be Kept -/

namespace SolveResult

variable {r : SolveResult} {d : Duration}

/-- More time can be charged to a result as long as clocks can keep the sum. -/
theorem kept_addTime (h : r.overflow = none) (hd : (r.addTime d).runtime ≤ .greatest) :
    (r.addTime d).kept = .ok (r.addTime d) := by
  have hsum : r.runtime + d ≤ .greatest := hd
  apply kept_eq_ok
  simp [addTime, mark, h, tooLong?, hsum]

/-! ## §2 Deciding About Extensions -/

/-- A result decides whether a problem has a packing that leaves every station outside a set on its
previous channel. -/
structure DecidesExtension (r : SolveResult) (p : Problem) (x : Interference)
    (t : SortedSet StationId) : Prop where
  /-- SAT is said exactly if the set belongs to the problem and there is such a packing. -/
  sat_iff : r.verdict = .sat ↔ (∀ s ∈ t, s ∈ p.stations) ∧ ∃ a, p.IsExtension x t a
  /-- The packing is then such a packing. -/
  sat : r.verdict = .sat → p.IsExtension x t r.assignment
  /-- Nothing else is said about the problem. -/
  inconclusive : ¬ r.verdict = .sat → r.verdict = .timeout ∧ r.assignment = SortedMap.empty
  /-- The result is returned, as long as clocks can keep its time. -/
  returned : r.runtime ≤ .greatest → r.kept = .ok r

variable {p : Problem} {x : Interference} {t : SortedSet StationId}

theorem decidesExtension_of_isExtension (hv : r.verdict = .sat) (ht : ∀ s ∈ t, s ∈ p.stations)
    (h : p.IsExtension x t r.assignment) (hkept : r.runtime ≤ .greatest → r.kept = .ok r) :
    r.DecidesExtension p x t where
  sat_iff := iff_of_true hv ⟨ht, _, h⟩
  sat _ := h
  inconclusive hnot := absurd hv hnot
  returned := hkept

theorem decidesExtension_of_timeout (hv : r.verdict = .timeout)
    (ha : r.assignment = SortedMap.empty)
    (h : (∀ s ∈ t, s ∈ p.stations) → ¬ ∃ a, p.IsExtension x t a)
    (hkept : r.runtime ≤ .greatest → r.kept = .ok r) : r.DecidesExtension p x t where
  sat_iff := iff_of_false (by simp [hv]) fun hex => h hex.1 hex.2
  sat hsat := absurd (hv.symm.trans hsat) (by decide)
  inconclusive _ := ⟨hv, ha⟩
  returned := hkept

end SolveResult

section Solvers

variable {σ : Type} [Timed σ] {I : σ → Prop} {x : Interference} {p : Problem}
  {criterion : Criterion σ} {seed : Nat}

/-- A solver says SAT of a problem that is no larger than `p` exactly if the problem has a packing,
and returns one, in a time that clocks can keep. -/
def Solver.FindsPackings (solver : Solver σ) (I : σ → Prop) (x : Interference) (p : Problem)
    (criterion : Criterion σ) (seed : Nat) : Prop :=
  ∀ q : Problem, q.IsWithin p → Yields I (solver.solve q criterion seed) fun r =>
    (q.Packable x → r.verdict = .sat) ∧ (r.verdict = .sat → q.IsPacking x r.assignment) ∧
      r.overflow = none

/-! ## §3 The Certifier -/

/-- Packing stations around all others decides whether all others can keep their previous channels,
whatever these are. -/
theorem Certifier.decidesExtension_sat (hclocks : KeptByClocks I) {solver : Solver σ}
    (h : solver.FindsPackings I x p criterion seed) (toPack : SortedSet StationId) :
    Yields I ((Certifier.sat x solver).certify p toPack criterion seed) fun r =>
      r.DecidesExtension p x toPack := by
  unfold Certifier.sat
  refine .seq hclocks.now fun start => ?_
  dsimp only
  split
  -- some station to pack is none of the problem, or some other station cannot stay
  · rename_i haround
    refine .seq hclocks.since fun d => .pure ?_
    apply SolveResult.decidesExtension_of_timeout rfl rfl
    · rintro hset ⟨a, ha⟩
      obtain ⟨r, fixed, hsome⟩ := Problem.exists_around? (x := x) hset fun s hs => ha.canStay hs
      rw [haround] at hsome
      cases hsome
    · exact fun _ => SolveResult.kept_eq_ok rfl
  rename_i reduced fixed haround
  refine .seq hclocks.since fun prepared => ?_
  refine .bind (h reduced (Problem.isWithin_around? haround)) ?_
  rintro result ⟨hfinds, hpacking, hkept⟩
  have hmark : ∀ r : SolveResult, r.overflow = none → (r.mark result.overflow).overflow = none := by
    intro r hr
    simp [SolveResult.mark, hr, hkept]
  split
  -- the stations cannot be packed around those that stay
  · rename_i hv
    refine .pure (SolveResult.decidesExtension_of_timeout rfl rfl ?_ ?_)
    · rintro - hextension
      exact hv (hfinds ((Problem.exists_isExtension_iff haround).1 hextension).1)
    · exact SolveResult.kept_addTime (hmark _ rfl)
  rename_i hv
  have hreduced := hpacking (Decidable.not_not.1 hv)
  split
  · rename_i haccepted
    refine .pure (SolveResult.decidesExtension_of_isExtension rfl ?_ ?_ ?_)
    · exact fun s => Problem.mem_stations_of_around? haround
    · exact Problem.isExtension_merge haround hreduced haccepted
    · exact SolveResult.kept_addTime (hmark _ rfl)
  -- the stations that stay interfere among themselves
  · rename_i hrefused
    refine .seq hclocks.since fun d => .pure ?_
    apply SolveResult.decidesExtension_of_timeout rfl rfl
    · rintro - hextension
      apply hrefused
      rw [Problem.isSatisfiedBy_merge_iff haround hreduced]
      exact ((Problem.exists_isExtension_iff haround).1 hextension).2
    · exact fun _ => SolveResult.kept_eq_ok (hmark _ rfl)

/-! ## §4 Exact Search Inside the Certifier -/

theorem Problem.overflow_resultOf {q : Problem} {d : Duration}
    {answer : Except EngineError Search.Answer} : (q.resultOf x d answer).overflow = none := by
  unfold resultOf
  split
  · rfl
  · split <;> rfl
  · rfl

/-- Exact search adds no times, so clocks can keep the time that it takes. -/
theorem EngineAccess.overflow_solver {engine : EngineAccess σ} {q : Problem} (s : σ) :
    ((engine.solver x).solve q criterion seed s).1.overflow = none := by
  -- the invariant is trivial; only the result matters
  have hkeeps : ∀ {α : Type} (program : StateM σ α), Keeps (fun _ => True) program :=
    fun _ _ _ => ⟨trivial, trivial⟩
  have hyields : Yields (fun _ => True) ((engine.solver x).solve q criterion seed)
      fun r => r.overflow = none := by
    unfold EngineAccess.solver
    refine .seq (hkeeps _) fun start => .seq (hkeeps _) fun stop => ?_
    split
    · exact .seq (hkeeps _) fun d => .pure rfl
    split
    · exact .seq (hkeeps _) fun d => .pure rfl
    dsimp only
    split
    · exact .seq (hkeeps _) fun d => .pure rfl
    refine .seq (hkeeps _) fun cutoff => .seq (hkeeps _) fun answer => ?_
    exact .seq (hkeeps _) fun d => .pure Problem.overflow_resultOf
  exact (hyields s trivial).1

/-- Exact search over an engine that decides every formula finds the packings that the certifier
relies on. -/
theorem EngineAccess.findsPackings_solver {T : Terms σ} {engine : EngineAccess σ}
    (hsound : engine.Sound T) (hdecides : engine.Decides T) (hT : T.NeverStop) (hU : T.trusts)
    (hcall : T.allowsCall criterion seed) (hp : (Numbering.ofProblem p).Fits) :
    (engine.solver x).FindsPackings T.invariant x p criterion seed := by
  intro q hq s hs
  have hfits := hq.fits hp
  obtain ⟨hright, hinvariant⟩ :=
    sound_solver (x := x) hsound q criterion seed hcall (fun _ => hfits) s hs
  have hsettled := (settles_solver (x := x) hdecides hT q criterion seed hcall hfits s hs).1
  refine ⟨⟨?_, hright.sat, overflow_solver s⟩, hinvariant⟩
  intro hpackable
  rcases hright.isRight hU hsettled with ⟨hv, -⟩ | ⟨-, hnot⟩
  · exact hv
  · exact absurd hpackable hnot

end Solvers

/-- Two stations with the same two channels, the first of which stood on the lower one. -/
def Problem.revisited : Problem :=
  ofDomains (SortedMap.ofList [(1, SortedSet.ofList [14, 15]), (2, SortedSet.ofList [14, 15])])
    (SortedMap.ofList [(1, 14)])

/-- The world in which an engine that tries all signs is at work. -/
def World.exhaustive : World ExhaustiveEngine :=
  { engines := [Session.start ⟨⟨0, []⟩⟩ 0 .zero 0] }

/-- The world is in order for the use of its engine. -/
theorem World.inOrder_exhaustive :
    (World.restingTerms 0 ⟨⟨0, []⟩⟩ 0 [] : Terms (World ExhaustiveEngine)).invariant
      World.exhaustive :=
  ⟨hasAtRest_append (l := []) Session.rests_start, rfl, by simp⟩

/-- The stations may not share a channel.  The second one can be packed around the first one, and
not the other way round, since it stood nowhere. -/
theorem Certifier.decidesExtension_sat_revisited :
    let x := Interference.none.addCo 1 2
    let solver := (World.engineAccess 0 : EngineAccess (World ExhaustiveEngine)).solver x
    let certify := fun t => ((Certifier.sat x solver).certify .revisited t .never 0
      World.exhaustive).1
    (certify (SortedSet.ofList [2])).verdict = .sat ∧
      (certify (SortedSet.ofList [2])).assignment.On 1 14 ∧
      (certify (SortedSet.ofList [1])).verdict = .timeout := by
  intro x solver certify
  have hp : (Numbering.ofProblem .revisited).Fits := by decide
  have hdecider := isDecider_exhaustive ⟨⟨0, []⟩⟩
  have hsolver : solver.FindsPackings
      (World.restingTerms 0 ⟨⟨0, []⟩⟩ 0 [] : Terms (World ExhaustiveEngine)).invariant x .revisited
        .never 0 :=
    EngineAccess.findsPackings_solver (World.sound_of_isDecider hdecider)
      (World.decides_engineAccess hdecider) World.neverStop_restingTerms trivial
      ⟨rfl, Criterion.neverFires_never⟩ hp
  have hdecides : ∀ t, (certify t).DecidesExtension .revisited x t := fun t =>
    (decidesExtension_sat World.keptByClocks hsolver t World.exhaustive World.inOrder_exhaustive).1
  -- the first station stays, and the second one takes the upper channel
  have hpacking : Problem.revisited.IsPacking x
      (Assignment.ofPlacement (SortedMap.ofList [(1, 14), (2, 15)])) := by
    apply Problem.isPacking_of_decode (l := [1, -2, -3, 4])
    · decide +kernel
    · decide
  have hstations : Problem.revisited.stations = [1, 2] := by decide
  have hextension : Problem.revisited.IsExtension x (SortedSet.ofList [2])
      (Assignment.ofPlacement (SortedMap.ofList [(1, 14), (2, 15)])) := by
    refine ⟨hpacking, ?_⟩
    simp only [hstations, List.forall_mem_cons, List.not_mem_nil, false_implies, implies_true,
      and_true]
    refine ⟨fun _ => ⟨14, by decide, SortedSet.ofList [1], by decide, by decide⟩, ?_⟩
    exact fun h => absurd (by decide) h
  have hsat : (certify (SortedSet.ofList [2])).verdict = .sat := by
    apply (hdecides _).sat_iff.2
    refine ⟨?_, _, hextension⟩
    decide
  refine ⟨hsat, ?_, ?_⟩
  · obtain ⟨c, hc, hon⟩ := ((hdecides _).sat hsat).kept 1 (by decide) (by decide)
    have hprevious : Problem.revisited.previous.get? 1 = some 14 := by decide
    cases hprevious.symm.trans hc
    exact hon
  · apply And.left ((hdecides _).inconclusive ?_)
    intro hv
    -- the second station would have to stay on a channel that it never had
    obtain ⟨c, hc, -⟩ := ((hdecides _).sat hv).kept 2 (by decide) (by decide)
    have hprevious : Problem.revisited.previous.get? 2 = none := by decide
    cases hprevious.symm.trans hc

end SpectrumPacking
