import SpectrumPacking.Proofs.Search.Settling
import SpectrumPacking.Proofs.Solve.Conclusions
import SpectrumPacking.Proofs.Solve.Worlds

/-!
# Engines That Decide

An engine that is sound and complete and never gives up decides every formula (`IsDecider`).  In a
world in which such an engine is at rest, and under criteria that never fire, access to the engine
answers every job rightly and leaves the engine at rest (`World.decides_engineAccess`).

The simplest engine that decides every formula tries all signs of all variables
(`isDecider_exhaustive`).
-/

namespace SpectrumPacking

open Search

variable {ε σ : Type}

/-! ## §1 Deciders -/

section Deciders

variable [SearchEngine ε]

/-- Whatever an engine has worked on before, every search that is not stopped comes to an end, and
every end is right: a model, or that there is none. -/
structure IsDecider (e₀ : ε) : Prop where
  sat : ∀ (job : Job) (l : List Literal), job.formula.IsWellFormed → Concludes e₀ job (.sat l) →
    job.formula.IsModel l
  unsat : UnsatCorrect e₀
  ends : ∀ (job : Job) (o : Option Job) (e : ε), job.formula.IsWellFormed → RunsFrom e₀ o e →
    ∃ status e', EndsSearch (SearchEngine.start e job) status e' ∧ status ≠ .unknown

/-- The right answers about a formula. -/
def Search.Answer.IsRight (a : Answer) (f : Cnf) : Prop :=
  (a.verdict = .sat ∧ f.IsModel a.literals) ∨ (a.verdict = .unsat ∧ ¬ f.Satisfiable)

variable {e₀ : ε} {s : Session ε} {job : Job} {seed : Nat}

/-- A decider at rest answers a job rightly and is at rest again. -/
theorem Session.Rests.isRight_solve (h : s.Rests e₀ seed) (he₀ : IsDecider e₀)
    (hseed : job.seed = seed) (hcutoff : clockSpan ≤ job.cutoff.nanos)
    (hjob : job.formula.IsWellFormed) :
    (∃ a, (s.solve job none).1 = .ok a ∧ a.IsRight job.formula) ∧
      (s.solve job none).2.Rests e₀ seed := by
  obtain ⟨o, hruns⟩ := h.isRunOf.sound.sources.runs
  obtain ⟨status, e, hends, hstatus⟩ := he₀.ends job o s.driver.engine hjob hruns
  obtain ⟨hanswer, hrests⟩ := h.solve hseed hcutoff hends
  refine ⟨⟨_, hanswer, ?_⟩, hrests⟩
  -- the answer is how the engine ended its search, so it is as right as the engine
  obtain ⟨hsat, hunsat⟩ := concludes_of_solve h.isRunOf hanswer
  cases status with
  | sat l => exact Or.inl ⟨rfl, he₀.sat job l hjob (hsat rfl)⟩
  | unsat => exact Or.inr ⟨rfl, he₀.unsat job hjob (hunsat rfl)⟩
  | unknown => exact absurd rfl hstatus

/-- The engine at a place is at rest. -/
def HasAtRest (i : Nat) (e₀ : ε) (seed : Nat) (l : List (Session ε)) : Prop :=
  ∃ s, l[i]? = some s ∧ s.Rests e₀ seed

theorem hasAtRest_append {l : List (Session ε)} (h : s.Rests e₀ seed) :
    HasAtRest l.length e₀ seed (l ++ [s]) :=
  ⟨s, List.getElem?_concat_length, h⟩

end Deciders

/-! ## §2 Criteria That Never Fire -/

/-- A criterion that never says stop and always leaves more time than clocks can show.  It may
change the state, but not the engines and the caches. -/
structure Criterion.NeverFires [HasWorld ε σ] (c : Criterion σ) : Prop where
  hasToStop : LeavesWorld c.hasToStop
  goesOn : ∀ s, (c.hasToStop s).1 = false
  remaining : LeavesWorld c.remaining
  leavesTime : ∀ s, Session.clockSpan ≤ (c.remaining s).1.nanos

theorem Criterion.neverFires_never [HasWorld ε σ] : (never : Criterion σ).NeverFires where
  hasToStop _ := ⟨rfl, rfl⟩
  goesOn _ := rfl
  remaining _ := ⟨rfl, rfl⟩
  leavesTime _ := by
    show Session.clockSpan ≤ Duration.greatest.nanos
    decide

/-! ## §3 Worlds with a Decider -/

section Worlds

variable [SearchEngine ε] [HasWorld ε σ] [Timed σ] [LawfulWorld ε σ] {e₀ : ε} {i seed : Nat}
  {owners : List (Option Interference)}

/-- Solvers may be used with the seed of an engine at rest and with criteria that never fire. -/
def World.restingTerms (i : Nat) (e₀ : ε) (seed : Nat) (owners : List (Option Interference)) :
    Terms σ where
  invariant := Inside (World.InOrder (HasAtRest i e₀ seed) owners True)
  trusts := True
  allowsJob job :=
    job.seed = seed ∧ Session.clockSpan ≤ job.cutoff.nanos ∧ job.formula.IsWellFormed
  allowsCall criterion seed' := seed' = seed ∧ criterion.NeverFires
  clocks := World.keptByClocks
  hasToStop h := World.inOrder_of_leavesWorld h.2.hasToStop
  remaining h := by
    intro s hs
    refine ⟨?_, (World.inOrder_of_leavesWorld h.2.remaining s hs).2⟩
    intro f hf
    exact ⟨h.1, h.2.leavesTime s, hf trivial⟩

theorem World.neverStop_restingTerms :
    (World.restingTerms i e₀ seed owners : Terms σ).NeverStop := by
  intro criterion seed' hcall s hs
  exact ⟨hcall.2.goesOn s, (World.inOrder_of_leavesWorld hcall.2.hasToStop s hs).2⟩

/-- A decider in a world answers jobs rightly. -/
theorem World.isRight_engineAccess (he₀ : IsDecider e₀) {job : Job}
    (hjob : (World.restingTerms i e₀ seed owners : Terms σ).allowsJob job) :
    Yields (World.restingTerms i e₀ seed owners : Terms σ).invariant
      ((World.engineAccess i : EngineAccess σ).solve job) fun r =>
        ∃ a, r = .ok a ∧ a.IsRight job.formula := by
  obtain ⟨hseed, hcutoff, hformula⟩ := hjob
  have huse : Yields (World.InOrder (HasAtRest i e₀ seed) owners True)
      (World.useEngine i (.error .workerTerminated) fun s : Session ε => s.solve job none)
      fun r => ∃ a, r = .ok a ∧ a.IsRight job.formula := by
    apply World.yields_useEngine
    · -- there is an engine at this place
      rintro l ⟨s, hs, -⟩ hnone
      rw [hnone] at hs
      cases hs
    · rintro l s clock ⟨s', hs', hrests⟩ hs
      rw [hs] at hs'
      cases hs'
      -- the clock has moved on, but the engine is where it was left
      have hrests : Session.Rests { s with clock := clock } e₀ seed := hrests.withClock
      obtain ⟨hanswer, hrests'⟩ := hrests.isRight_solve he₀ hseed hcutoff hformula
      refine ⟨hanswer, _, ?_, hrests'⟩
      exact List.getElem?_set_self (List.getElem?_eq_some_iff.1 hs).1
  exact yields_inside huse

theorem World.decides_engineAccess (he₀ : IsDecider e₀) :
    (World.engineAccess i : EngineAccess σ).Decides (World.restingTerms i e₀ seed owners) := by
  intro job hjob
  apply (World.isRight_engineAccess he₀ hjob).mono
  rintro r ⟨a, ha, hright⟩
  refine ⟨a, ha, ?_⟩
  rcases hright with hsat | hunsat
  · exact Or.inr hsat
  · exact Or.inl hunsat.1

theorem World.sound_of_isDecider (he₀ : IsDecider e₀) :
    (World.engineAccess i : EngineAccess σ).Sound (World.restingTerms i e₀ seed owners) := by
  intro job hjob
  apply (World.isRight_engineAccess he₀ hjob).mono
  rintro r ⟨a, rfl, hright⟩ b hb - - hv
  cases hb
  rcases hright with hsat | hunsat
  · rw [hsat.1] at hv
    cases hv
  · exact hunsat.2

end Worlds

/-! ## §4 All Signs -/

/-- The lists that give every variable from 1 to a number a sign. -/
def signings : Nat → List (List Literal)
  | 0 => [[]]
  | n + 1 =>
    (signings n).flatMap fun l => [l ++ [((n + 1 : Nat) : Int)], l ++ [-((n + 1 : Nat) : Int)]]

theorem natAbs_of_mem_signings {n : Nat} {l : List Literal} (h : l ∈ signings n) :
    l.map Int.natAbs = List.range' 1 n := by
  induction n generalizing l with
  | zero =>
    rw [signings, List.mem_singleton] at h
    subst h
    rfl
  | succ n ih =>
    rw [signings, List.mem_flatMap] at h
    obtain ⟨l', hl', hl⟩ := h
    rw [List.range'_1_concat, ← ih hl']
    rcases List.mem_cons.1 hl with rfl | hl
    · simp [Nat.add_comm]
      omega
    · rw [List.mem_singleton.1 hl]
      simp [Nat.add_comm]
      omega

theorem literals_mem_signings (v : Valuation) (n : Nat) : v.literals n ∈ signings n := by
  induction n with
  | zero => exact List.mem_singleton_self _
  | succ n ih =>
    rw [signings, List.mem_flatMap]
    refine ⟨v.literals n, ih, ?_⟩
    rw [Valuation.literals_succ]
    cases v (n + 1) <;> simp

namespace Cnf

/-- The status of a formula, found by trying all signs. -/
def exhaust (f : Cnf) : Status :=
  match (signings f.numVariables).find? fun l => f.holds (.ofLiterals l) with
  | some l => .sat l
  | none => .unsat

variable {f : Cnf}

theorem isModel_of_exhaust {l : List Literal} (h : f.exhaust = .sat l) : f.IsModel l := by
  unfold exhaust at h
  split at h
  · rename_i l' hfind
    cases h
    refine ⟨?_, by simpa using List.find?_some hfind⟩
    rw [natAbs_of_mem_signings (List.mem_of_find?_eq_some hfind)]
  · cases h

theorem not_satisfiable_of_exhaust (hf : f.IsWellFormed) (h : f.exhaust = .unsat) :
    ¬ f.Satisfiable := by
  unfold exhaust at h
  split at h
  · cases h
  · rename_i hnone
    rintro ⟨v, hv⟩
    -- the signs of the valuation were tried
    have htried := List.find?_eq_none.1 hnone _ (literals_mem_signings v f.numVariables)
    rw [holds_ofLiterals_literals hf, hv] at htried
    exact htried rfl

theorem exhaust_ne_unknown : f.exhaust ≠ .unknown := by
  unfold exhaust
  split <;> nofun

end Cnf

/-! ## §5 The Exhaustive Engine -/

/-- An engine that tries all signs at once, unless it is told to stop. -/
structure ExhaustiveEngine where
  /-- The formula that the engine works on. -/
  formula : Cnf

instance : SearchEngine ExhaustiveEngine where
  start _ job := ⟨job.formula⟩
  poll e stop := (e, some (if stop then .unknown else e.formula.exhaust))

instance : ConfiguredEngine ExhaustiveEngine := ⟨fun _ => .ok ⟨⟨0, []⟩⟩⟩

theorem ExhaustiveEngine.formula_of_runsFrom {e₀ e : ExhaustiveEngine} {o : Option Search.Job}
    (h : RunsFrom e₀ o e) : ∀ job, o = some job → e.formula = job.formula := by
  cases h with
  | built => nofun
  | start job _ =>
    rintro _ ⟨⟩
    rfl
  | poll _ hpoll => cases hpoll
  | finish _ _ => nofun

theorem ExhaustiveEngine.exhaust_of_concludes {e₀ : ExhaustiveEngine} {job : Search.Job}
    {status : Status} (h : Concludes e₀ job status) (hstatus : status ≠ .unknown) :
    job.formula.exhaust = status := by
  obtain ⟨e, e', stop, hruns, hpoll⟩ := h
  cases hpoll
  rw [formula_of_runsFrom hruns job rfl] at hstatus ⊢
  cases stop
  · rfl
  · exact absurd rfl hstatus

theorem isDecider_exhaustive (e₀ : ExhaustiveEngine) : IsDecider e₀ where
  sat _ _ _ h := Cnf.isModel_of_exhaust (ExhaustiveEngine.exhaust_of_concludes h nofun)
  unsat _ hf h :=
    Cnf.not_satisfiable_of_exhaust hf (ExhaustiveEngine.exhaust_of_concludes h nofun)
  ends job _ _ _ _ := ⟨job.formula.exhaust, _, .now rfl, Cnf.exhaust_ne_unknown⟩

end SpectrumPacking
