import SpectrumPacking.Proofs.Solve.Soundness

/-!
# Solvers That Settle Every Problem

A solver that says nothing wrong may still say nothing at all.  Exact search settles every problem
if its engine decides every formula (`EngineAccess.settles_solver`), and a pipeline settles every
problem if its last stage does and nothing stops it before (`Pipeline.settles_solver`).  The stages
before the last one need only be sound: what they settle is settled rightly, and the rest is left
to the last one.
-/

namespace SpectrumPacking

/-! ## §1 Right Verdicts -/

/-- The verdict says whether the problem has a packing. -/
def Verdict.IsRight (v : Verdict) (p : Problem) (x : Interference) : Prop :=
  (v = .sat ∧ p.Packable x) ∨ (v = .unsat ∧ ¬ p.Packable x)

namespace Verdict

variable {p : Problem} {x : Interference} {v v' : Verdict}

/-- There is only one right verdict. -/
theorem IsRight.unique (h : v.IsRight p x) (h' : v'.IsRight p x) : v = v' := by
  rcases h with ⟨rfl, hp⟩ | ⟨rfl, hp⟩
  · rcases h' with ⟨rfl, -⟩ | ⟨-, hp'⟩
    · rfl
    · exact absurd hp hp'
  · rcases h' with ⟨-, hp'⟩ | ⟨rfl, -⟩
    · exact absurd hp' hp
    · rfl

theorem isConclusive_iff : v.isConclusive = true ↔ v = .sat ∨ v = .unsat := by
  cases v <;> simp [isConclusive]

end Verdict

theorem SolveResult.Sound.isRight {r : SolveResult} {U : Prop} {p : Problem} {x : Interference}
    (h : r.Sound U p x) (hU : U) (hr : r.isConclusive = true) : r.verdict.IsRight p x := by
  rcases Verdict.isConclusive_iff.1 hr with hv | hv
  · exact Or.inl ⟨hv, _, h.sat hv⟩
  · exact Or.inr ⟨hv, h.unsat hU hv⟩

/-! ## §2 Models of Encodings -/

namespace Problem

variable {p : Problem} {x : Interference} {l : List Literal}

theorem numVariables_encode (h : ¬ (p.encode x).isContradiction = true) :
    (p.encode x).numVariables = (Numbering.ofProblem p).size := by
  unfold encode at h ⊢
  split
  · rename_i hempty
    rw [if_pos hempty] at h
    exact absurd (by decide) h
  · rfl

/-- A model that an engine returns decodes to a packing that passes the check. -/
theorem exists_packingOf? (hp : (Numbering.ofProblem p).Fits)
    (hcontradiction : ¬ (p.encode x).isContradiction = true) (hl : (p.encode x).IsModel l) :
    ∃ a, p.packingOf? x l = some a := by
  have hsigning : (Numbering.ofProblem p).IsSigning l := by
    rw [Numbering.IsSigning, ← numVariables_encode hcontradiction]
    exact hl.1
  obtain ⟨a, hdecode, haccepted⟩ := (holds_iff_decode hp hsigning).1 hl.2
  refine ⟨a, ?_⟩
  unfold packingOf?
  simp only [hdecode, haccepted, if_true]

end Problem

/-! ## §3 Terms without Limits -/

section Solvers

variable {σ : Type} [Timed σ] {T : Terms σ} {x : Interference} {p : Problem}
  {criterion : Criterion σ} {seed : Nat}

/-- Nothing that the terms allow ever says stop. -/
def Terms.NeverStop (T : Terms σ) : Prop :=
  ∀ (criterion : Criterion σ) (seed : Nat), T.allowsCall criterion seed →
    Yields T.invariant criterion.hasToStop fun stop => stop = false

/-- An engine answers every job that the terms allow: with a model, or that there is none. -/
def EngineAccess.Decides (engine : EngineAccess σ) (T : Terms σ) : Prop :=
  ∀ job, T.allowsJob job → Yields T.invariant (engine.solve job) fun r =>
    ∃ a, r = .ok a ∧ (a.verdict = .unsat ∨ (a.verdict = .sat ∧ job.formula.IsModel a.literals))

/-- A solver settles every problem whose variables can be numbered. -/
def Solver.Settles (solver : Solver σ) (T : Terms σ) : Prop :=
  ∀ (p : Problem) (criterion : Criterion σ) (seed : Nat), T.allowsCall criterion seed →
    (Numbering.ofProblem p).Fits →
      Yields T.invariant (solver.solve p criterion seed) fun r => r.isConclusive = true

/-! ## §4 Exact Search -/

theorem Problem.isConclusive_resultOf {d : Duration} {a : Search.Answer}
    (hp : (Numbering.ofProblem p).Fits) (hcontradiction : ¬ (p.encode x).isContradiction = true)
    (ha : a.verdict = .unsat ∨ (a.verdict = .sat ∧ (p.encode x).IsModel a.literals)) :
    (p.resultOf x d (.ok a)).isConclusive = true := by
  obtain ⟨verdict, literals⟩ := a
  rcases ha with hv | ⟨hv, hmodel⟩
  · have hv : verdict = .unsat := hv
    subst hv
    rfl
  · have hv : verdict = .sat := hv
    subst hv
    -- the branches that end in a crash are those in which decoding or the check fails
    obtain ⟨packing, hpacking⟩ := exists_packingOf? hp hcontradiction hmodel
    simp only [resultOf, hpacking]
    rfl

theorem EngineAccess.settles_solver {engine : EngineAccess σ} (h : engine.Decides T)
    (hT : T.NeverStop) : (engine.solver x).Settles T := by
  intro p criterion seed hcall hfits
  have hformula : (p.encode x).IsWellFormed := Problem.isWellFormed_encode hfits
  unfold EngineAccess.solver
  apply Yields.seq T.clocks.now
  intro start
  apply Yields.bind (hT criterion seed hcall)
  rintro stop rfl
  simp only [Bool.false_eq_true, if_false]
  -- without stations, or with an empty domain, the engine is not needed
  split
  · exact .seq T.clocks.since fun d => .pure rfl
  split
  · exact .seq T.clocks.since fun d => .pure rfl
  rename_i hcontradiction
  apply Yields.bind (T.remaining hcall)
  intro cutoff hcutoff
  apply Yields.bind (h ⟨p.encode x, cutoff, seed⟩ (hcutoff _ fun _ => hformula))
  rintro answer ⟨a, rfl, ha⟩
  exact .seq T.clocks.since fun d => .pure (Problem.isConclusive_resultOf hfits hcontradiction ha)

/-! ## §5 Pipelines -/

/-- A stage settles a problem, or the stages after it do. -/
theorem settles_stage {learner : Option (CacheAccess σ)} {start : Duration} {stage : Stage σ}
    {rest : List (Stage σ)} (hlearner : ∀ cache ∈ learner, cache.Sound T x) (hT : T.NeverStop)
    (hcall : T.allowsCall criterion seed)
    (h : Yields T.invariant (stage.solver.solve p criterion seed) fun r =>
      r.Sound T.trusts p x ∧ (r.isConclusive = true ∨ ∀ past, Yields T.invariant
        (Pipeline.tryStages learner p criterion seed start past rest) fun r =>
          r.isConclusive = true)) {past : SolveResult} :
    Yields T.invariant (Pipeline.tryStages learner p criterion seed start past (stage :: rest))
      fun r => r.isConclusive = true := by
  unfold Pipeline.tryStages
  apply Yields.bind (hT criterion seed hcall)
  rintro stop rfl
  simp only [Bool.false_eq_true, if_false]
  apply Yields.bind h
  rintro result ⟨hsound, hresult⟩
  split
  · rename_i hconclusive
    -- time is charged to the result, which does not change the verdict
    apply Yields.seq (keeps_learn hlearner hsound)
    intro _
    exact .seq T.clocks.since fun d => .pure hconclusive
  · rename_i hinconclusive
    rcases hresult with hconclusive | hrest
    · exact absurd hconclusive hinconclusive
    · exact hrest _

theorem settles_tryStages {learner : Option (CacheAccess σ)} {start : Duration}
    (hlearner : ∀ cache ∈ learner, cache.Sound T x) (hT : T.NeverStop)
    (hcall : T.allowsCall criterion seed) (hfits : (Numbering.ofProblem p).Fits)
    {stages : List (Stage σ)} {last : Stage σ}
    (h : ∀ stage ∈ stages ++ [last], stage.solver.Sound T x) (hlast : last.solver.Settles T)
    {past : SolveResult} :
    Yields T.invariant (Pipeline.tryStages learner p criterion seed start past (stages ++ [last]))
      fun r => r.isConclusive = true := by
  -- the last stage settles, and the stages before it need not
  induction stages generalizing past with
  | nil =>
    have hsound := h last (by simp) p criterion seed hcall fun _ => hfits
    apply settles_stage hlearner hT hcall
    apply (hsound.and (hlast p criterion seed hcall hfits)).mono
    intro r hr
    exact ⟨hr.1, Or.inl hr.2⟩
  | cons stage rest ih =>
    have hsound := h stage (by simp) p criterion seed hcall fun _ => hfits
    apply settles_stage hlearner hT hcall
    apply hsound.mono
    intro r hr
    refine ⟨hr, Or.inr fun past => ?_⟩
    exact ih fun stage' hstage' => h stage' (List.mem_cons_of_mem _ hstage')

theorem Pipeline.settles_solver {pipeline : Pipeline σ} {stages : List (Stage σ)} {last : Stage σ}
    (hstages : pipeline.stages = stages ++ [last])
    (h : ∀ stage ∈ pipeline.stages, stage.solver.Sound T x) (hlast : last.solver.Settles T)
    (hlearner : ∀ cache ∈ pipeline.learner, cache.Sound T x) (hT : T.NeverStop) :
    pipeline.solver.Settles T := by
  intro p criterion seed hcall hfits
  unfold Pipeline.solver
  rw [hstages] at h ⊢
  exact .seq T.clocks.now fun start => settles_tryStages hlearner hT hcall hfits h hlast

end Solvers

end SpectrumPacking
