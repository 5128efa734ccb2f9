import SpectrumPacking.Encoding.Decode
import SpectrumPacking.Search.Session
import SpectrumPacking.Solve.Pipeline

/-!
# What Solvers Share

Exact search encodes a problem as a formula, has an engine search it and decodes the model.  A model
counts only if it decodes to a packing that violates no constraint.

Solvers work side by side on the same engines and caches, and look at the same clocks.  A world
holds the three: engines and caches are reached by their place in it, so that two solvers that use
one engine see what the other did to it.  Looking at the clocks takes time, too.
-/

namespace SpectrumPacking

/-! ## §1 Exact Search -/

/-- Access to an engine in a world of states `σ`. -/
structure EngineAccess (σ : Type) where
  /-- Solves a job and waits for the answer. -/
  solve : Search.Job → StateM σ (Except EngineError Search.Answer)
  /-- Stops the job in flight. -/
  interrupt : StateM σ Unit
  /-- Ends the work of the engine. -/
  shutdown : StateM σ Unit

/-- The packing that a model describes, if it violates no constraint. -/
def Problem.packingOf? (p : Problem) (x : Interference) (literals : List Literal) :
    Option Assignment :=
  match p.decode literals with
  | .ok a => if x.isSatisfiedBy a then some a else none
  | .error _ => none

/-- The result that an engine's answer amounts to. -/
def Problem.resultOf (p : Problem) (x : Interference) (runtime : Duration) :
    Except EngineError Search.Answer → SolveResult
  | .error _ => .crashed runtime
  | .ok ⟨.sat, literals⟩ =>
    match p.packingOf? x literals with
    | some a => .sat a runtime
    | none => .crashed runtime
  | .ok ⟨verdict, _⟩ => .bare verdict runtime

/-- The solver that searches exactly. -/
def EngineAccess.solver {σ : Type} [Timed σ] (engine : EngineAccess σ) (x : Interference) :
    Solver σ where
  solve p criterion seed := do
    let start ← Timed.now
    if ← criterion.hasToStop then return .timeout (← Timed.since start)
    if p.isEmpty then return .sat SortedMap.empty (← Timed.since start)
    let f := p.encode x
    if f.isContradiction then return .unsat (← Timed.since start)
    let answer ← engine.solve ⟨f, ← criterion.remaining, seed⟩
    return p.resultOf x (← Timed.since start) answer
  interrupt := engine.interrupt
  shutdown := engine.shutdown

variable {ε σ α : Type}

/-- The clocks, the engines at work, and the caches. -/
structure World (ε : Type) where
  /-- What the clocks show. -/
  clock : Reading := ⟨.zero, .zero⟩
  /-- The engines, in the order in which they were put to work. -/
  engines : List (Session ε) := []
  /-- The caches, in the order in which they were set up. -/
  caches : List UnsatCache := []

/-- A state that contains a world. -/
class HasWorld (ε : outParam Type) (σ : Type) where
  world : σ → World ε
  /-- The state with another world in it. -/
  withWorld : σ → World ε → σ

instance : HasWorld ε (World ε) := ⟨id, fun _ w => w⟩

/-- Does in the world of a state what is done in a world. -/
def HasWorld.inside [HasWorld ε σ] (f : StateM (World ε) α) : StateM σ α := fun s =>
  let (a, w) := f (world s)
  (a, withWorld s w)

namespace World

/-! ## §2 Clocks -/

/-- The world some time later, all of which was spent at work. -/
def later (w : World ε) (d : Duration) : World ε :=
  { w with clock := ⟨w.clock.wall + d, w.clock.cpu + d⟩ }

/-- The world after some time of rest, which only the wall clock shows. -/
def afterRest (w : World ε) (d : Duration) : World ε :=
  { w with clock := { w.clock with wall := w.clock.wall + d } }

/-- The time that it takes to look at the clocks. -/
def glance : Duration := ⟨1⟩

/-- Looks at the clocks. -/
def read : StateM (World ε) Reading := fun w => (w.clock, w.later glance)

instance [HasWorld ε σ] : Timed σ := ⟨HasWorld.inside read⟩

/-! ## §3 Engines -/

variable [SearchEngine ε]

/-- Has an engine do something, if it is there; the clocks show how long it took. -/
def useEngine (i : Nat) (missing : α) (f : Session ε → α × Session ε) :
    StateM (World ε) α := fun w =>
  match w.engines[i]? with
  | none => (missing, w)
  | some s =>
    let (a, s) := f { s with clock := w.clock.wall.nanos }
    let w := w.later (⟨s.clock⟩ - w.clock.wall)
    (a, { w with engines := w.engines.set i s })

/-- Access to the engine at a place. -/
def engineAccess [HasWorld ε σ] (i : Nat) : EngineAccess σ where
  solve job := HasWorld.inside <|
    useEngine i (.error .workerTerminated) fun s => s.solve job none
  interrupt := HasWorld.inside <| useEngine i () fun s => ((), s.interrupt)
  shutdown := HasWorld.inside <| useEngine i () fun s => ((), s.shutdown)

/-- Puts an engine to work. -/
def addEngine [HasWorld ε σ] (engine : ε) (seed : Nat) (grace : Duration) :
    StateM σ (EngineAccess σ) := fun s =>
  let w : World ε := HasWorld.world s
  let session := Session.start engine seed grace w.clock.wall.nanos
  (engineAccess w.engines.length,
    HasWorld.withWorld s { w with engines := w.engines ++ [session] })

/-! ## §4 Caches -/

omit [SearchEngine ε]

/-- The cache at a place; there is nothing in a cache that was not set up. -/
def cache (w : World ε) (i : Nat) : UnsatCache := w.caches.getD i .empty

/-- Access to the cache at a place. -/
def cacheAccess [HasWorld ε σ] (i : Nat) : CacheAccess σ where
  prove? p := HasWorld.inside fun w => ((w.cache i).prove? p, w)
  insert p := HasWorld.inside fun w => ((), { w with caches := w.caches.modify i (·.insert p) })

/-- Sets up an empty cache. -/
def addCache [HasWorld ε σ] : StateM σ (CacheAccess σ) := fun s =>
  let w : World ε := HasWorld.world s
  (cacheAccess w.caches.length, HasWorld.withWorld s { w with caches := w.caches ++ [.empty] })

end World

end SpectrumPacking
