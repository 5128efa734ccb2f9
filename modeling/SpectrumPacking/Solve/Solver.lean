import SpectrumPacking.Solve.Result

/-!
# Criteria and Solvers

A solver attempts packing problems in a world of states `σ`.  It can be asked to give up the attempt
under way, and to release what it holds.

A criterion tells a solver whether it has to stop and how much time it has left; asking it may take
time or leave a trace.  Limits are the criteria that depend on clocks alone: a limit of wall-clock
time, of processor time, none at all, or whichever of several comes first.
-/

namespace SpectrumPacking

/-! ## §1 Clocks -/

/-- The two clocks at one moment. -/
structure Reading where
  /-- The wall clock. -/
  wall : Duration
  /-- The processor time used so far. -/
  cpu : Duration
  deriving DecidableEq, Repr, Inhabited

/-- A world with clocks. -/
class Timed (σ : Type) where
  /-- Reads the clocks. -/
  read : StateM σ Reading

/-- Reads the wall clock. -/
def Timed.now {σ : Type} [Timed σ] : StateM σ Duration := do return (← Timed.read).wall

/-- The time since a moment. -/
def Timed.since {σ : Type} [Timed σ] (start : Duration) : StateM σ Duration := do
  return (← Timed.now) - start

/-! ## §2 Limits -/

/-- A bound on the time that clocks show. -/
inductive Limit where
  /-- No bound. -/
  | never
  /-- A budget of wall-clock time from a moment on. -/
  | wall (start budget : Duration)
  /-- A budget of processor time from a moment on. -/
  | cpu (start budget : Duration)
  /-- Several bounds, each of which counts. -/
  | any (limits : List Limit)
  deriving Inhabited

namespace Limit

mutual

/-- Whether a limit is reached at a reading of the clocks. -/
def hasToStop (r : Reading) : Limit → Bool
  | never => false
  | wall start budget => budget ≤ r.wall - start
  | cpu start budget => budget ≤ r.cpu - start
  | any limits => anyHasToStop r limits

/-- Whether one of several limits is reached. -/
def anyHasToStop (r : Reading) : List Limit → Bool
  | [] => false
  | l :: rest => hasToStop r l || anyHasToStop r rest

end

mutual

/-- The time left at a reading of the clocks. -/
def remaining (r : Reading) : Limit → Duration
  | never => .greatest
  | wall start budget => budget - (r.wall - start)
  | cpu start budget => budget - (r.cpu - start)
  | any limits => leastRemaining r limits

/-- The least time that one of several limits leaves. -/
def leastRemaining (r : Reading) : List Limit → Duration
  | [] => .greatest
  | l :: rest => (remaining r l).min (leastRemaining r rest)

end

/-- The limit that ends with the first of a budget of processor time and one of wall-clock time,
both from a moment on. -/
def cutoff (r : Reading) (budget : Duration) : Limit := any [cpu r.cpu budget, wall r.wall budget]

end Limit

/-! ## §3 Criteria -/

/-- What a solver can ask about its time. -/
structure Criterion (σ : Type) where
  hasToStop : StateM σ Bool
  /-- How much time is left. -/
  remaining : StateM σ Duration

namespace Criterion

variable {σ : Type}

/-- The criterion that never stops a solver. -/
def never : Criterion σ := ⟨pure false, pure .greatest⟩

instance : Inhabited (Criterion σ) := ⟨never⟩

/-- A limit, looked at with the clocks of the moment. -/
def ofLimit [Timed σ] (l : Limit) : Criterion σ where
  hasToStop := do return l.hasToStop (← Timed.read)
  remaining := do return l.remaining (← Timed.read)

/-- Asks criteria one after another until one says stop. -/
def anyHasToStop : List (Criterion σ) → StateM σ Bool
  | [] => pure false
  | c :: rest => do if ← c.hasToStop then return true else anyHasToStop rest

/-- The least time that criteria leave. -/
def leastRemaining : List (Criterion σ) → StateM σ Duration
  | [] => pure .greatest
  | c :: rest => do
    let d ← c.remaining
    return d.min (← leastRemaining rest)

/-- Several criteria, each of which counts. -/
def any (l : List (Criterion σ)) : Criterion σ := ⟨anyHasToStop l, leastRemaining l⟩

end Criterion

/-! ## §4 Solvers -/

/-- A way to attempt packing problems. -/
structure Solver (σ : Type) where
  /-- Attempts a problem under a criterion, with a seed. -/
  solve : Problem → Criterion σ → Nat → StateM σ SolveResult
  /-- Asks for an early end of the attempt under way. -/
  interrupt : StateM σ Unit
  /-- Releases what the solver holds. -/
  shutdown : StateM σ Unit
  deriving Inhabited

/-- A way to attempt a problem by looking at some of its stations only. -/
structure Certifier (σ : Type) where
  /-- Attempts a problem by packing the given stations. -/
  certify : Problem → SortedSet StationId → Criterion σ → Nat → StateM σ SolveResult
  /-- Asks for an early end of the attempt under way. -/
  interrupt : StateM σ Unit
  /-- Releases what the certifier holds. -/
  shutdown : StateM σ Unit

end SpectrumPacking
