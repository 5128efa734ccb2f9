import SpectrumPacking.Search.Complete
import SpectrumPacking.Service.Manager
import SpectrumPacking.Solve.Neighborhood
import SpectrumPacking.Solve.World

/-!
# Solver Bundles

The bundle of a dataset is a pipeline of up to three stages: packing around the missing stations,
looking into a cache of problems without a packing, and exact search.  The certifiers of the first
stage search with the engine of the last one.
-/

namespace SpectrumPacking

/-! ## §1 Plans -/

/-- How the pipeline of a bundle is put together. -/
structure BundleOptions where
  /-- The configuration of the engine. -/
  engine : String := CompleteEngine.defaultConfig
  /-- The seed of the engine. -/
  seed : Nat := 0
  /-- How long a timer may take to acknowledge its cancellation. -/
  grace : Duration := .ofParts 3 0
  /-- Whether there is a stage that packs around the missing stations. -/
  presolve : Bool := true
  /-- The bounds of that stage. -/
  bounds : NeighborhoodBounds := .standard
  deriving Repr

/-- Where a bundle looks for problems without a packing. -/
inductive CachePlan (σ : Type) where
  /-- Nowhere. -/
  | disabled
  /-- In a cache that all bundles share; this is right only if they share the interference. -/
  | shared (cache : CacheAccess σ) (learns : Bool)
  /-- In a cache of its own. -/
  | own (learns : Bool)

/-- A world in which engines can be built and caches set up. -/
class Host (σ : Type) where
  /-- Builds an engine from its configuration, seed and grace period, and puts it to work. -/
  addEngine : String → Nat → Duration → StateM σ (Except EngineError (EngineAccess σ))
  /-- Sets up an empty cache. -/
  addCache : StateM σ (CacheAccess σ)

/-- Engines that are built from the name of a configuration. -/
class ConfiguredEngine (ε : Type) where
  /-- The engine with a configuration. -/
  ofConfig? : String → Except EngineError ε

instance : ConfiguredEngine CompleteEngine := ⟨CompleteEngine.ofConfig?⟩

instance {ε σ : Type} [SearchEngine ε] [ConfiguredEngine ε] [HasWorld ε σ] : Host σ where
  addEngine config seed grace := do
    match (ConfiguredEngine.ofConfig? config : Except EngineError ε) with
    | .error e => return .error e
    | .ok engine => return .ok (← World.addEngine engine seed grace)
  addCache := World.addCache

/-- A monad in which solvers can work on states of type `σ`. -/
class SolverMonad (σ : outParam Type) (m : Type → Type) where
  /-- Does what is done to a state. -/
  within {α : Type} : StateM σ α → m α

instance {σ : Type} : SolverMonad σ (StateM σ) := ⟨id⟩

/-! ## §2 Building -/

/-- A dataset with a solver for the problems over it. -/
structure Bundle (σ : Type) where
  dataset : Dataset
  solver : Solver σ

namespace Bundle

variable {σ : Type}

/-- The stage that packs around the missing stations. -/
def neighborhoodStage [Timed σ] (x : Interference) (exact : Solver σ)
    (bounds : NeighborhoodBounds) : Stage σ :=
  ⟨"neighborhood", presolver x [.unsat exact, .sat x exact] bounds⟩

/-- The stage that looks into a cache. -/
def cacheStage [Timed σ] (cache : CacheAccess σ) : Stage σ := ⟨"unsat-cache", cache.solver⟩

/-- The pipeline over an exact solver.  The flag of the cache says whether it learns. -/
def pipeline [Timed σ] (options : BundleOptions) (x : Interference) (exact : Solver σ)
    (cache : Option (CacheAccess σ × Bool)) : Pipeline σ where
  stages :=
    (if options.presolve then [neighborhoodStage x exact options.bounds] else []) ++
      (cache.map fun c => cacheStage c.1).toList ++ [⟨"exact", exact⟩]
  learner := cache.bind fun c => if c.2 then some c.1 else none

/-- The cache that a plan provides for one more bundle. -/
def cacheOf [Host σ] : CachePlan σ → StateM σ (Option (CacheAccess σ × Bool))
  | .disabled => return none
  | .shared cache learns => return some (cache, learns)
  | .own learns => return some (← Host.addCache, learns)

/-- Builds the bundle of a dataset, with an engine of its own. -/
def build [Timed σ] [Host σ] (options : BundleOptions) (plan : CachePlan σ) (dataset : Dataset) :
    StateM σ (Except ManagerError (Bundle σ)) := do
  match ← Host.addEngine options.engine options.seed options.grace with
  | .error e => return .error (.engine e)
  | .ok engine =>
    let exact := engine.solver dataset.interference
    let l := pipeline options dataset.interference exact (← cacheOf plan)
    return .ok ⟨dataset, l.solver⟩

end Bundle

end SpectrumPacking
