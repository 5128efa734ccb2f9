import SpectrumPacking.Solve.Solver

/-!
# Pipelines and Caches

A cache of problems without a packing settles every problem that contains the stations of a cached
one with domains no wider than the cached ones.  A problem that an entry settles already is not
added.

In a pipeline solvers are tried one after another until one settles the problem.  The time of every
stage is charged to the result, and problems that a search found to have no packing are learnt.
-/

namespace SpectrumPacking

/-! ## §1 Problems Known to Have No Packing -/

/-- Whether a problem without a packing settles another one: the other has all its stations, with
domains that are no wider. -/
def Problem.provesUnsat (cached query : Problem) : Bool :=
  cached.domains.toList.all fun e =>
    match query.domain? e.1 with
    | some domain => domain.isSubset e.2
    | none => false

theorem Problem.provesUnsat_iff {cached query : Problem} :
    cached.provesUnsat query = true ↔
      ∀ s D, cached.domain? s = some D → ∃ E, query.domain? s = some E ∧ ∀ c ∈ E, c ∈ D := by
  have hentry : ∀ (o : Option (SortedSet Channel)) (D : SortedSet Channel),
      (match o with
        | some domain => domain.isSubset D
        | none => false) = true ↔ ∃ E, o = some E ∧ ∀ c ∈ E, c ∈ D := by
    intro o D
    cases o <;> simp
  rw [Problem.provesUnsat, List.all_eq_true]
  constructor
  · intro h s D hs
    exact (hentry _ _).1 (h (s, D) (SortedMap.get?_eq_some_iff.1 hs))
  · intro h e he
    exact (hentry _ _).2 (h e.1 e.2 (SortedMap.get?_eq_some_iff.2 he))

/-- A list of problems without a packing, each under its name. -/
structure UnsatCache where
  /-- The entries, the oldest first. -/
  entries : List (String × Problem)
  deriving Inhabited

namespace UnsatCache

/-- The cache without entries. -/
def empty : UnsatCache := ⟨[]⟩

/-- The number of entries. -/
def size (c : UnsatCache) : Nat := c.entries.length

/-- Whether there are no entries. -/
def isEmpty (c : UnsatCache) : Bool := c.entries.isEmpty

/-- The name of the oldest entry that settles a problem. -/
def prove? (c : UnsatCache) (p : Problem) : Option String :=
  (c.entries.find? fun e => e.2.provesUnsat p).map (·.1)

/-- Adds a problem, unless an entry settles it. -/
def insert (c : UnsatCache) (p : Problem) : UnsatCache :=
  if c.entries.any fun e => e.2.provesUnsat p then c else ⟨c.entries ++ [(p.name, p)]⟩

end UnsatCache

/-- Access to a cache in a world of states `σ`. -/
structure CacheAccess (σ : Type) where
  /-- The name of an entry that settles a problem. -/
  prove? : Problem → StateM σ (Option String)
  /-- Adds a problem without a packing. -/
  insert : Problem → StateM σ Unit

/-- The solver that settles what a cache settles. -/
def CacheAccess.solver {σ : Type} [Timed σ] (cache : CacheAccess σ) : Solver σ where
  solve p _ _ := do
    let start ← Timed.now
    match ← cache.prove? p with
    | some key => return { SolveResult.unsat (← Timed.since start) with justification := some key }
    | none => return .timeout (← Timed.since start)
  interrupt := pure ()
  shutdown := pure ()

/-! ## §2 Pipelines -/

variable {σ : Type}

/-- A solver with a name. -/
structure Stage (σ : Type) where
  name : String
  solver : Solver σ

/-- Stages in the order in which they are tried. -/
structure Pipeline (σ : Type) where
  stages : List (Stage σ)
  /-- The cache that learns problems without a packing. -/
  learner : Option (CacheAccess σ)

namespace Pipeline

/-- The pipeline without stages. -/
def empty : Pipeline σ := ⟨[], none⟩

/-- The pipeline with one more stage at its end. -/
def andThen (l : Pipeline σ) (s : Stage σ) : Pipeline σ := { l with stages := l.stages ++ [s] }

/-- The names of the stages. -/
def stageNames (l : Pipeline σ) : List String := l.stages.map Stage.name

/-- Learns a problem that a search found to have no packing. -/
def learn (learner : Option (CacheAccess σ)) (p : Problem) (r : SolveResult) : StateM σ Unit :=
  match learner with
  | none => pure ()
  | some cache =>
    if r.verdict = .unsat ∧ r.justification = none then cache.insert p else pure ()

/-- The time spent once a result has come in: the verdict is that of the result, and the time goes
on from the time `spent` before it. -/
def charge (spent : SolveResult) (result : SolveResult) : SolveResult :=
  { result with overflow := spent.overflow <|> result.overflow, runtime := spent.runtime }.addTime
    result.runtime

/-- Tries stages since the moment `start`, after others that came to the result `past`. -/
def tryStages [Timed σ] (learner : Option (CacheAccess σ)) (p : Problem) (criterion : Criterion σ)
    (seed : Nat) (start : Duration) : SolveResult → List (Stage σ) → StateM σ SolveResult
  | past, [] => giveUp past
  | past, stage :: rest => do
    if ← criterion.hasToStop then giveUp past
    else
      let result ← stage.solver.solve p criterion seed
      let charged := charge past result
      if result.isConclusive then
        learn learner p result
        return charged.addTime ((← Timed.since start) - charged.runtime)
      else tryStages learner p criterion seed start charged rest
where
  giveUp (past : SolveResult) : StateM σ SolveResult := do
    return (SolveResult.timeout (past.runtime.max (← Timed.since start))).mark past.overflow

/-- The solver that tries the stages. -/
def solver [Timed σ] (l : Pipeline σ) : Solver σ where
  solve p criterion seed := do
    let start ← Timed.now
    tryStages l.learner p criterion seed start default l.stages
  interrupt := l.stages.forM fun s => s.solver.interrupt
  shutdown := l.stages.forM fun s => s.solver.shutdown

end Pipeline

end SpectrumPacking
