import SpectrumPacking.Proofs.Service.Bundles
import SpectrumPacking.Proofs.Solve.Deciders

/-!
# Verdicts Do Not Depend on How They Are Found

Packing around the missing stations, looking into a cache and learning from searches only save time.
With an engine that decides every formula and criteria that never fire, every bundle gives every
problem of every history the right verdict, hence the one that plain exact search gives
(`Bundle.isRight_verdicts`).  The invariant of a history is that the engine is at rest and that the
cache of the bundle holds only problems without a packing.
-/

namespace SpectrumPacking

variable {ε σ : Type}

/-- Builds the bundle of a dataset and has it attempt problems one after another, each under its own
criterion and all with the seed of the engine. -/
def Bundle.verdicts [Timed σ] [Host σ] (options : BundleOptions) (plan : CachePlan σ)
    (dataset : Dataset) (calls : List (Problem × Criterion σ)) :
    StateM σ (Except ManagerError (List Verdict)) := do
  match ← build options plan dataset with
  | .error e => return .error e
  | .ok b =>
    return .ok (← calls.mapM fun call => do
      return (← b.solver.solve call.1 call.2 options.seed).verdict)

section Verdicts

variable [SearchEngine ε] [HasWorld ε σ] [Timed σ] [LawfulWorld ε σ] {e₀ : ε} {seed : Nat}
  {owners : List (Option Interference)} {plan : CachePlan σ} {options : BundleOptions}
  {dataset : Dataset} {b : Bundle σ} {i : Nat}

/-- A bundle over a decider at rest gives a problem its right verdict and leaves the decider at
rest. -/
theorem Bundle.IsOver.isRight_solve (hb : b.IsOver options dataset i owners)
    (he₀ : IsDecider e₀) {p : Problem} (hp : (Numbering.ofProblem p).Fits)
    {criterion : Criterion σ} (hcriterion : criterion.NeverFires) :
    Yields (World.restingTerms i e₀ seed owners : Terms σ).invariant
      (b.solver.solve p criterion seed) fun r => r.verdict.IsRight p dataset.interference := by
  have hcall : (World.restingTerms i e₀ seed owners).allowsCall criterion seed := ⟨rfl, hcriterion⟩
  have hengine : (World.engineAccess i : EngineAccess σ).Sound
      (World.restingTerms i e₀ seed owners) := World.sound_of_isDecider he₀
  have hsound := hb.sound (List.prefix_refl _) rfl rfl hengine
  have hsettles := hb.settles (List.prefix_refl _) rfl rfl hengine
    (World.decides_engineAccess he₀) World.neverStop_restingTerms
  -- what is said is right, and something is said
  have hboth := (hsound p criterion seed hcall fun _ => hp).and (hsettles p criterion seed hcall hp)
  apply hboth.mono
  intro r hr
  exact hr.1.isRight trivial hr.2

/-- One problem after another gets its right verdict. -/
theorem Bundle.IsOver.isRight_mapM (hb : b.IsOver options dataset i owners) (he₀ : IsDecider e₀)
    {calls : List (Problem × Criterion σ)}
    (hcalls : ∀ call ∈ calls, (Numbering.ofProblem call.1).Fits ∧ call.2.NeverFires) :
    Yields (World.restingTerms i e₀ seed owners : Terms σ).invariant
      (calls.mapM fun call => do return (← b.solver.solve call.1 call.2 seed).verdict)
      (List.Forall₂ (fun call v => Verdict.IsRight v call.1 dataset.interference) calls) := by
  apply Yields.mapM
  intro call hcall
  obtain ⟨hp, hcriterion⟩ := hcalls call hcall
  exact (hb.isRight_solve he₀ hp hcriterion).bind fun r hr => .pure hr

variable [ConfiguredEngine ε]

/-- A history on a new bundle gets the right verdicts. -/
theorem Bundle.exists_verdicts (options : BundleOptions) (plan : CachePlan σ) (dataset : Dataset)
    (hplan : plan.IsPrivate)
    (hengine : ConfiguredEngine.ofConfig? options.engine = .ok e₀) (he₀ : IsDecider e₀)
    {calls : List (Problem × Criterion σ)}
    (hcalls : ∀ call ∈ calls, (Numbering.ofProblem call.1).Fits ∧ call.2.NeverFires) :
    Triple (Inside (World.InOrder (fun _ : List (Session ε) => True) owners True))
      (verdicts options plan dataset calls) fun r _ =>
        ∃ verdicts, r = .ok verdicts ∧
          List.Forall₂ (fun call v => Verdict.IsRight v call.1 dataset.interference) calls
            verdicts := by
  -- the new engine is a decider at rest
  have hnew : ∀ e : ε, ConfiguredEngine.ofConfig? options.engine = .ok e →
      ∀ (l : List (Session ε)) clock, True → HasAtRest l.length e₀ options.seed
        (l ++ [Session.start e options.seed options.grace clock]) := by
    intro e he l clock _
    rw [hengine] at he
    cases he
    exact hasAtRest_append Session.rests_start
  refine (inOrder_build (B := fun i => HasAtRest i e₀ options.seed) hplan hnew).bind fun r => ?_
  rintro s (⟨e, -, hconfig, -⟩ | ⟨b, i, owners', rfl, hover, -, hs⟩)
  · -- there is an engine with the configuration
    rw [hengine] at hconfig
    cases hconfig
  · exact ⟨_, rfl, (hover.isRight_mapM he₀ hcalls s hs).1⟩

omit [SearchEngine ε] [Timed σ] [LawfulWorld ε σ] [ConfiguredEngine ε] in
/-- In any world there may be caches that belong to nothing. -/
theorem World.inOrder_replicate (s : σ) :
    Inside (World.InOrder (fun _ : List (Session ε) => True)
      (List.replicate (HasWorld.world s).caches.length none) True) s := by
  refine ⟨trivial, by rw [List.length_replicate], ?_⟩
  intro i x hi
  rw [List.getElem?_replicate] at hi
  split at hi <;> cases hi

/-- With an engine that decides every formula and criteria that never fire, every problem gets the
right verdict, whatever the options of the bundle are, wherever it looks for problems without a
packing and whatever it was asked before.  So does plain exact search, at the same or any other
moment. -/
theorem Bundle.isRight_verdicts (options : BundleOptions) (plan : CachePlan σ) (dataset : Dataset)
    (calls : List (Problem × Criterion σ)) (s s' : σ) (hplan : plan.IsPrivate)
    (hengine : ConfiguredEngine.ofConfig? options.engine = .ok e₀) (he₀ : IsDecider e₀)
    (hcalls : ∀ call ∈ calls, (Numbering.ofProblem call.1).Fits ∧ call.2.NeverFires) :
    ∃ verdicts, (Bundle.verdicts options plan dataset calls s).1 = .ok verdicts ∧
      List.Forall₂ (fun call v => Verdict.IsRight v call.1 dataset.interference) calls verdicts ∧
      (Bundle.verdicts { options with presolve := false } .disabled dataset calls s').1 =
        .ok verdicts := by
  obtain ⟨verdicts, hverdicts, hright⟩ :=
    exists_verdicts options plan dataset hplan hengine he₀ hcalls s (World.inOrder_replicate s)
  have hplain : (CachePlan.disabled : CachePlan σ).IsPrivate := fun _ _ => nofun
  obtain ⟨verdicts', hverdicts', hright'⟩ :=
    exists_verdicts { options with presolve := false } .disabled dataset hplain hengine he₀ hcalls
      s' (World.inOrder_replicate s')
  -- there is one right verdict for each problem
  have hunique : Relator.RightUnique fun (call : Problem × Criterion σ) v =>
      Verdict.IsRight v call.1 dataset.interference := fun _ _ _ h h' => h.unique h'
  have hsame : verdicts = verdicts' := List.right_unique_forall₂' hunique hright hright'
  subst hsame
  exact ⟨verdicts, hverdicts, hright, hverdicts'⟩

end Verdicts

/-- Two stations that cannot be on one channel, with one channel for both. -/
def Problem.clash : Problem :=
  ofDomains (SortedMap.ofList [(1, SortedSet.ofList [14]), (2, SortedSet.ofList [14])])
    (SortedMap.ofList [(1, 14)])

/-- The two stations of these problems, which cannot be on one channel. -/
def Dataset.coPair : Dataset :=
  ⟨SortedMap.ofList [(1, SortedSet.ofList [14]), (2, SortedSet.ofList [14, 15])],
    Interference.none.addCo 1 2⟩

theorem Problem.not_packable_clash : ¬ clash.Packable Dataset.coPair.interference :=
  not_packable_of_clash (s := 1) (t := 2) rfl rfl (by decide)

theorem Problem.packable_pair : pair.Packable Dataset.coPair.interference := by
  have hfits : (Numbering.ofProblem pair).Fits := by decide
  rw [← satisfiable_encode_iff hfits]
  -- the first station takes the first channel, and the second one the second
  refine ⟨Valuation.ofLiterals [1, -2, -3, 4], ?_⟩
  decide +kernel

theorem Bundle.isRight_verdicts_clash :
    let calls : List (Problem × Criterion (World ExhaustiveEngine)) :=
      [(.clash, .never), (.pair, .never), (.clash, .never)]
    (Bundle.verdicts {} (.own true) .coPair calls {}).1 = .ok [.unsat, .sat, .unsat] ∧
      (Bundle.verdicts { presolve := false } .disabled .coPair calls {}).1 =
        .ok [.unsat, .sat, .unsat] := by
  intro calls
  have hcalls : ∀ call ∈ calls, (Numbering.ofProblem call.1).Fits ∧ call.2.NeverFires := by
    have hclash : (Numbering.ofProblem .clash).Fits := by decide
    have hpair : (Numbering.ofProblem .pair).Fits := by decide
    simp [calls, hclash, hpair, Criterion.neverFires_never]
  obtain ⟨verdicts, hverdicts, hright, hplain⟩ :=
    isRight_verdicts {} (.own true) .coPair calls {} {} (fun _ _ => nofun) rfl
      (isDecider_exhaustive _) hcalls
  have hclash : Verdict.unsat.IsRight .clash Dataset.coPair.interference :=
    Or.inr ⟨rfl, Problem.not_packable_clash⟩
  have hpair : Verdict.sat.IsRight .pair Dataset.coPair.interference :=
    Or.inl ⟨rfl, Problem.packable_pair⟩
  -- only one verdict is right for each problem
  have hexpected : verdicts = [.unsat, .sat, .unsat] :=
    List.right_unique_forall₂' (fun _ _ _ h h' => h.unique h') hright
      (.cons hclash (.cons hpair (.cons hclash .nil)))
  subst hexpected
  exact ⟨hverdicts, hplain⟩

end SpectrumPacking
