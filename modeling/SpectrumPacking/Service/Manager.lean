import SpectrumPacking.Dataset.Basic
import SpectrumPacking.Search.Engine

/-!
# One Bundle per Dataset

A bundle is what is built from a dataset to work with it.  The manager loads a dataset and builds
its bundle when its key is first asked for, keeps the bundle, and releases all bundles together.
A key whose dataset cannot be loaded, or whose bundle cannot be built, leaves no trace.
-/

namespace SpectrumPacking

/-- Why there is no bundle for a key. -/
inductive ManagerError where
  /-- The dataset cannot be loaded. -/
  | data (e : DataError)
  /-- The engine of the bundle cannot be built. -/
  | engine (e : EngineError)
  /-- There is no bundle for a key. -/
  | missing (key : String)
  deriving DecidableEq, Repr

/-- The wording of a fault. -/
def ManagerError.message : ManagerError → String
  | data e => e.message
  | engine e => e.message
  | missing key => "no bundle for dataset '" ++ key ++ "'"

/-- Where bundles of type `β` come from and how they end. -/
structure BundleSource (m : Type → Type) (β : Type) where
  /-- Loads the dataset of a key. -/
  load : String → m (Except DataError Dataset)
  /-- Builds the bundle of a dataset. -/
  build : Dataset → m (Except ManagerError β)
  /-- Releases a bundle. -/
  release : β → m Unit

/-- The bundles that were built and not yet released. -/
structure Manager (β : Type) where
  /-- The bundle of each key. -/
  bundles : SortedMap String β := SortedMap.empty

namespace Manager

variable {m : Type → Type} [Monad m] {β : Type}

/-- The manager without bundles. -/
def empty : Manager β := {}

/-- Whether there is a bundle for a key. -/
def has (g : Manager β) (key : String) : Bool := g.bundles.contains key

/-- The keys with a bundle. -/
def keys (g : Manager β) : List String := g.bundles.keys

/-- Loads the dataset of a key and builds its bundle. -/
def make (source : BundleSource m β) (key : String) : m (Except ManagerError β) := do
  match ← source.load key with
  | .error e => return .error (.data e)
  | .ok dataset => source.build dataset

/-- Makes sure that there is a bundle for a key, and says whether it had to be built. -/
def add (source : BundleSource m β) (g : Manager β) (key : String) :
    m (Except ManagerError Bool × Manager β) := do
  if g.has key then return (.ok false, g)
  match ← make source key with
  | .error e => return (.error e, g)
  | .ok bundle => return (.ok true, ⟨g.bundles.insert key bundle⟩)

/-- The bundle of a key, which is built if there is none. -/
def get (source : BundleSource m β) (g : Manager β) (key : String) :
    m (Except ManagerError β × Manager β) := do
  let (added, g) ← add source g key
  match added, g.bundles.get? key with
  | .error e, _ => return (.error e, g)
  | .ok _, some bundle => return (.ok bundle, g)
  | .ok _, none => return (.error (.missing key), g)

/-- Releases every bundle. -/
def shutdown (source : BundleSource m β) (g : Manager β) : m (Manager β) := do
  g.bundles.values.forM source.release
  return empty

end Manager

end SpectrumPacking
