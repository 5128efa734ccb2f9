import SpectrumPacking.Proofs.Encoding.Decoding
import SpectrumPacking.Proofs.Packing.SubProblems
import SpectrumPacking.Proofs.Solve.Programs
import SpectrumPacking.Solve.World

/-!
# Solvers Say Nothing Wrong

A result is sound if its packing is one, and if there is no packing when it says so.  The first part
is checked before a result is returned, so it never depends on an engine.  The second part rests on
the answers of the engine and on what the cache holds: it is claimed only if these are trusted.

Solvers are sound whatever criterion stops them (`EngineAccess.sound_solver`,
`CacheAccess.sound_solver`, `sound_presolver`, `Pipeline.sound_solver`), and they pass on to the
engine only what they are called with: a solver keeps to the terms on which it is used.
-/

namespace SpectrumPacking

/-! ## §1 Sound Results -/

/-- What a result says of a problem is right.  That there is no packing is right under `U`. -/
structure SolveResult.Sound (r : SolveResult) (U : Prop) (p : Problem) (x : Interference) :
    Prop where
  sat : r.verdict = .sat → p.IsPacking x r.assignment
  unsat : U → r.verdict = .unsat → ¬ p.Packable x

namespace SolveResult

variable {U : Prop} {p q : Problem} {x : Interference} {r : SolveResult}

/-- A result that settles nothing says nothing wrong. -/
theorem sound_of_not_isConclusive (h : r.isConclusive = false) : r.Sound U p x := by
  refine ⟨fun hv => ?_, fun _ hv => ?_⟩ <;> simp [isConclusive, hv, Verdict.isConclusive] at h

theorem sound_timeout {d : Duration} : (timeout d).Sound U p x := sound_of_not_isConclusive rfl

theorem sound_crashed {d : Duration} : (crashed d).Sound U p x := sound_of_not_isConclusive rfl

theorem sound_sat {a : Assignment} {d : Duration} (h : p.IsPacking x a) : (sat a d).Sound U p x :=
  ⟨fun _ => h, nofun⟩

theorem sound_unsat {d : Duration} (h : U → ¬ p.Packable x) : (unsat d).Sound U p x :=
  ⟨nofun, fun hU _ => h hU⟩

/-- Times have nothing to do with soundness. -/
theorem Sound.of_eq {r' : SolveResult} (h : r.Sound U p x) (hverdict : r'.verdict = r.verdict)
    (hassignment : r'.assignment = r.assignment) : r'.Sound U p x := by
  refine ⟨fun hv => ?_, fun hU hv => ?_⟩
  · rw [hassignment]
    exact h.sat (hverdict ▸ hv)
  · exact h.unsat hU (hverdict ▸ hv)

theorem Sound.addTime (h : r.Sound U p x) {d : Duration} : (r.addTime d).Sound U p x :=
  h.of_eq rfl rfl

theorem Sound.mark (h : r.Sound U p x) {e : Option TimeError} : (r.mark e).Sound U p x :=
  h.of_eq rfl rfl

theorem Sound.combine {l : List SolveResult} (h : ∀ r ∈ l, r.Sound U p x) :
    (combine l).Sound U p x := by
  unfold SolveResult.combine
  split
  · rename_i r hr
    have hmem := List.mem_of_find?_eq_some hr
    exact (h r (List.mem_reverse.1 hmem)).of_eq rfl rfl
  · exact sound_of_not_isConclusive rfl

end SolveResult

namespace Problem

variable {U : Prop} {p : Problem} {x : Interference}

/-- A problem without stations has a packing without stations. -/
theorem isPacking_of_isEmpty (h : p.isEmpty = true) :
    p.IsPacking x SortedMap.empty := by
  have hdomain : ∀ s D, p.domain? s ≠ some D := by
    intro s D hD
    rw [isEmpty, SortedMap.isEmpty, List.isEmpty_iff] at h
    rw [domain?, SortedMap.get?_eq_some_iff, h] at hD
    cases hD
  refine ⟨⟨Assignment.isNormal_empty, ?_, ?_⟩, ?_⟩
  · intro s D hD
    exact absurd hD (hdomain s D)
  · intro s c hc
    exact absurd hc Assignment.not_on_empty
  · rw [Interference.isSatisfiedBy_iff_on]
    exact ⟨fun _ _ _ hs => absurd hs Assignment.not_on_empty,
      fun _ _ _ hs => absurd hs Assignment.not_on_empty⟩

/-- Whatever literals an engine returns, only a packing is taken for one. -/
theorem sound_resultOf {d : Duration}
    {answer : Except EngineError Search.Answer} (hfits : U → (Numbering.ofProblem p).Fits)
    (h : ∀ a, answer = .ok a → U → a.verdict = .unsat → ¬ (p.encode x).Satisfiable) :
    (p.resultOf x d answer).Sound U p x := by
  unfold resultOf
  split
  · exact SolveResult.sound_crashed
  · rename_i literals
    split
    · rename_i a ha
      apply SolveResult.sound_sat
      unfold packingOf? at ha
      split at ha
      · rename_i b hdecode
        split at ha
        · rename_i haccepted
          cases ha
          -- what decodes and passes the check is a packing, whoever made it
          exact isPacking_of_decode hdecode haccepted
        · cases ha
      · cases ha
    · exact SolveResult.sound_crashed
  · rename_i verdict literals hsat
    refine ⟨fun hv => absurd hv hsat, fun hU hv hpack => ?_⟩
    exact h _ rfl hU hv ((satisfiable_encode_iff (hfits hU)).2 hpack)

end Problem

/-! ## §2 Terms of Use -/

/-- The terms on which solvers are used: what holds of the state at all times, whether answers of
engines and caches are trusted, which jobs engines are given, and with which criteria and seeds
solvers are called. -/
structure Terms (σ : Type) [Timed σ] where
  invariant : σ → Prop
  trusts : Prop
  allowsJob : Search.Job → Prop
  allowsCall : Criterion σ → Nat → Prop
  clocks : KeptByClocks invariant
  hasToStop : ∀ {criterion seed}, allowsCall criterion seed → Keeps invariant criterion.hasToStop
  remaining : ∀ {criterion seed}, allowsCall criterion seed →
    Yields invariant criterion.remaining fun cutoff =>
      ∀ f : Cnf, (trusts → f.IsWellFormed) → allowsJob ⟨f, cutoff, seed⟩

section Solvers

variable {σ : Type} [Timed σ] {T : Terms σ} {x : Interference} {p : Problem}
  {criterion : Criterion σ} {seed : Nat}

/-- A solver that keeps to the terms and says nothing wrong. -/
def Solver.Sound (solver : Solver σ) (T : Terms σ) (x : Interference) : Prop :=
  ∀ (p : Problem) (criterion : Criterion σ) (seed : Nat), T.allowsCall criterion seed →
    (T.trusts → (Numbering.ofProblem p).Fits) →
      Yields T.invariant (solver.solve p criterion seed) fun r => r.Sound T.trusts p x

/-- A certifier that keeps to the terms and says nothing wrong. -/
def Certifier.Sound (certifier : Certifier σ) (T : Terms σ) (x : Interference) : Prop :=
  ∀ (p : Problem) (toPack : SortedSet StationId) (criterion : Criterion σ) (seed : Nat),
    T.allowsCall criterion seed → (T.trusts → (Numbering.ofProblem p).Fits) →
      Yields T.invariant (certifier.certify p toPack criterion seed) fun r => r.Sound T.trusts p x

/-- An engine that says UNSAT only of formulas without a model, if it is trusted. -/
def EngineAccess.Sound (engine : EngineAccess σ) (T : Terms σ) : Prop :=
  ∀ job, T.allowsJob job → Yields T.invariant (engine.solve job) fun r =>
    ∀ a, r = .ok a → T.trusts → job.formula.IsWellFormed → a.verdict = .unsat →
      ¬ job.formula.Satisfiable

/-- A cache that settles only problems without a packing, if it is trusted and only such problems
are added. -/
structure CacheAccess.Sound (cache : CacheAccess σ) (T : Terms σ) (x : Interference) : Prop where
  prove : ∀ p, Yields T.invariant (cache.prove? p) fun o =>
    T.trusts → ∀ key, o = some key → ¬ p.Packable x
  insert : ∀ p, (T.trusts → ¬ p.Packable x) → Keeps T.invariant (cache.insert p)

/-! ## §3 Engines and Caches -/

theorem keeps_learn {learner : Option (CacheAccess σ)} {r : SolveResult}
    (h : ∀ cache ∈ learner, cache.Sound T x) (hr : r.Sound T.trusts p x) :
    Keeps T.invariant (Pipeline.learn learner p r) := by
  unfold Pipeline.learn
  split
  · exact .pure trivial
  · rename_i cache
    split
    · rename_i hv
      exact (h cache rfl).insert p fun hU => hr.unsat hU hv.1
    · exact .pure trivial

theorem EngineAccess.sound_solver {engine : EngineAccess σ} (h : engine.Sound T) :
    (engine.solver x).Sound T x := by
  intro p criterion seed hcall hfits
  have hformula : T.trusts → (p.encode x).IsWellFormed :=
    fun hU => Problem.isWellFormed_encode (hfits hU)
  unfold EngineAccess.solver
  refine .seq T.clocks.now fun start => ?_
  refine .seq (T.hasToStop hcall) fun stop => ?_
  split
  · exact .seq T.clocks.since fun d => .pure SolveResult.sound_timeout
  split
  · rename_i hempty
    refine .seq T.clocks.since fun d => .pure ?_
    exact SolveResult.sound_sat (Problem.isPacking_of_isEmpty hempty)
  dsimp only
  split
  -- the formula is the fixed contradiction, so there is no packing to find
  · rename_i hcontradiction
    refine .seq T.clocks.since fun d => .pure ?_
    apply SolveResult.sound_unsat
    intro hU hpack
    rw [Cnf.isContradiction, beq_iff_eq] at hcontradiction
    apply Cnf.not_satisfiable_contradiction
    rw [← hcontradiction]
    exact (Problem.satisfiable_encode_iff (hfits hU)).2 hpack
  refine .bind (T.remaining hcall) fun cutoff hcutoff => ?_
  refine .bind (h ⟨p.encode x, cutoff, seed⟩ (hcutoff _ hformula)) fun answer hanswer => ?_
  refine .seq T.clocks.since fun d => .pure (Problem.sound_resultOf hfits ?_)
  intro a ha hU
  exact hanswer a ha hU (hformula hU)

theorem CacheAccess.sound_solver {cache : CacheAccess σ} (h : cache.Sound T x) :
    cache.solver.Sound T x := by
  intro p criterion seed _ _
  unfold CacheAccess.solver
  refine .seq T.clocks.now fun start => ?_
  refine .bind (h.prove p) fun key hkey => ?_
  split
  · rename_i key
    refine .seq T.clocks.since fun d => .pure ?_
    have hunsat : (SolveResult.unsat d).Sound T.trusts p x :=
      SolveResult.sound_unsat fun hU => hkey hU key rfl
    exact hunsat.of_eq rfl rfl
  · exact .seq T.clocks.since fun d => .pure SolveResult.sound_timeout

/-! ## §4 Sound Certifiers -/

theorem Certifier.sound_unsat {solver : Solver σ} (h : solver.Sound T x) :
    (Certifier.unsat solver).Sound T x := by
  intro p toPack criterion seed hcall hfits
  unfold Certifier.unsat
  refine .seq T.clocks.now fun start => ?_
  refine .seq T.clocks.since fun prepared => ?_
  -- fewer stations need no more variables
  have hfits' : T.trusts → (Numbering.ofProblem (p.restrictedTo toPack)).Fits :=
    fun hU => Problem.isWithin_restrictedTo.fits (hfits hU)
  refine .bind (h _ criterion seed hcall hfits') fun result hresult => .pure ?_
  split
  · rename_i hv
    have hunsat : (SolveResult.bare .unsat result.runtime).Sound T.trusts p x := by
      apply SolveResult.sound_unsat
      intro hU
      exact Problem.not_packable_of_provesUnsat Problem.provesUnsat_restrictedTo
        (hresult.unsat hU hv)
    exact hunsat.mark.addTime
  · exact SolveResult.sound_timeout.mark.addTime

theorem Certifier.sound_sat {solver : Solver σ} (h : solver.Sound T x) :
    (Certifier.sat x solver).Sound T x := by
  intro p toPack criterion seed hcall hfits
  unfold Certifier.sat
  refine .seq T.clocks.now fun start => ?_
  dsimp only
  split
  · exact .seq T.clocks.since fun d => .pure SolveResult.sound_timeout
  rename_i reduced fixed haround
  refine .seq T.clocks.since fun prepared => ?_
  have hfits' : T.trusts → (Numbering.ofProblem reduced).Fits :=
    fun hU => (Problem.isWithin_around? haround).fits (hfits hU)
  refine .bind (h reduced criterion seed hcall hfits') fun result hresult => ?_
  split
  · exact .pure SolveResult.sound_timeout.mark.addTime
  -- the packing found counts only if it passes the check together with the stations that stay
  rename_i hv
  split
  · rename_i haccepted
    refine .pure (SolveResult.Sound.addTime (SolveResult.Sound.mark ?_))
    apply SolveResult.sound_sat
    exact Problem.isPacking_merge haround (hresult.sat (Decidable.not_not.1 hv)) haccepted
  · exact .seq T.clocks.since fun d => .pure SolveResult.sound_timeout.mark

/-! ## §5 Sound Stages -/

theorem sound_tryCertifiers {certifiers : List (Certifier σ)} (h : ∀ c ∈ certifiers, c.Sound T x)
    {toPack : SortedSet StationId} (hcall : T.allowsCall criterion seed)
    (hfits : T.trusts → (Numbering.ofProblem p).Fits) :
    Yields T.invariant (tryCertifiers p toPack criterion seed certifiers) fun l =>
      ∀ r ∈ l.1, r.Sound T.trusts p x := by
  induction certifiers with
  | nil => exact .pure nofun
  | cons c rest ih =>
    unfold tryCertifiers
    refine .seq (T.hasToStop hcall) fun stop => ?_
    split
    · exact .pure nofun
    refine .seq T.clocks.now fun start => ?_
    refine .bind (h c List.mem_cons_self p toPack criterion seed hcall hfits) ?_
    intro result hresult
    refine .seq T.clocks.since fun spent => ?_
    split
    · exact .pure (List.forall_mem_singleton.2 hresult)
    · refine .bind (ih fun c' hc' => h c' (List.mem_cons_of_mem _ hc')) ?_
      rintro ⟨results, more⟩ hresults
      -- an inconclusive result is kept with those of the others
      exact .pure (List.forall_mem_cons.2 ⟨hresult, hresults⟩)

theorem sound_presolver {certifiers : List (Certifier σ)} (h : ∀ c ∈ certifiers, c.Sound T x)
    {bounds : NeighborhoodBounds} : (presolver x certifiers bounds).Sound T x := by
  intro p criterion seed hcall hfits
  unfold presolver
  refine .seq T.clocks.now fun start => ?_
  dsimp only
  split
  · exact .seq T.clocks.since fun d => .pure SolveResult.sound_timeout
  rename_i toPack _
  refine .bind (sound_tryCertifiers h hcall hfits) ?_
  rintro ⟨results, certifying⟩ hresults
  exact .seq T.clocks.since fun total => .pure (SolveResult.Sound.combine hresults).addTime

/-! ## §6 Sound Pipelines -/

theorem sound_giveUp {start : Duration} {past : SolveResult} :
    Yields T.invariant (Pipeline.tryStages.giveUp start past) fun r => r.Sound T.trusts p x := by
  unfold Pipeline.tryStages.giveUp
  exact .seq T.clocks.since fun d => .pure SolveResult.sound_timeout.mark

theorem sound_tryStages {learner : Option (CacheAccess σ)} {start : Duration}
    (hlearner : ∀ cache ∈ learner, cache.Sound T x) (hcall : T.allowsCall criterion seed)
    (hfits : T.trusts → (Numbering.ofProblem p).Fits) {stages : List (Stage σ)}
    (h : ∀ stage ∈ stages, stage.solver.Sound T x) {past : SolveResult} :
    Yields T.invariant (Pipeline.tryStages learner p criterion seed start past stages) fun r =>
      r.Sound T.trusts p x := by
  induction stages generalizing past with
  | nil => exact sound_giveUp
  | cons stage rest ih =>
    unfold Pipeline.tryStages
    refine .seq (T.hasToStop hcall) fun stop => ?_
    split
    · exact sound_giveUp
    refine .bind (h stage List.mem_cons_self p criterion seed hcall hfits) ?_
    intro result hresult
    dsimp only
    -- the time charged to a result does not change what it says
    have hcharged : (Pipeline.charge past result).Sound T.trusts p x :=
      hresult.of_eq rfl rfl
    split
    · refine .seq (keeps_learn hlearner hresult) fun _ => ?_
      exact .seq T.clocks.since fun d => .pure hcharged.addTime
    · exact ih fun stage' hstage' => h stage' (List.mem_cons_of_mem _ hstage')

theorem Pipeline.sound_solver {pipeline : Pipeline σ}
    (hstages : ∀ stage ∈ pipeline.stages, stage.solver.Sound T x)
    (hlearner : ∀ cache ∈ pipeline.learner, cache.Sound T x) : pipeline.solver.Sound T x := by
  intro p criterion seed hcall hfits
  unfold Pipeline.solver
  exact .seq T.clocks.now fun start => sound_tryStages hlearner hcall hfits hstages

end Solvers

end SpectrumPacking
