import SpectrumPacking.Report.Outcome

/-!
# Settings

What a user can choose: how long and with what to search, where the files are, and how to report.
-/

namespace SpectrumPacking

open Text

/-! ## §1 The Type -/

/-- Settings. -/
structure Settings where
  /-- The seed of the engine. -/
  seed : Nat := 0
  /-- The time limit of a search, in seconds. -/
  cutoffSeconds : Binary64 := .ofNat 60
  /-- The configuration of the engine. -/
  engine : String := CompleteEngine.defaultConfig
  /-- How long a timer may take to acknowledge its cancellation, in seconds. -/
  graceSeconds : Binary64 := .ofNat 3
  /-- Whether to try packing around the missing stations first. -/
  presolve : Bool := true
  bounds : NeighborhoodBounds := .standard
  /-- Whether to look for problems without a packing in a cache. -/
  useCache : Bool := true
  /-- Whether the cache learns. -/
  learn : Bool := true
  /-- The directory of the datasets. -/
  dataRoot : Path := ⟨"data"⟩
  /-- The form of reports. -/
  format : ReportFormat := .text
  /-- The directory for formulas. -/
  cnfDirectory : Path := ⟨"output/cnfs"⟩
  /-- How much to log. -/
  logLevel : String := "info"

instance : Inhabited Settings := ⟨{}⟩

namespace Settings

/-! ## §2 Validity -/

/-- What is wrong with settings. -/
inductive Fault where
  /-- The time limit is not positive. -/
  | cutoff
  /-- The grace period of timers is not positive. -/
  | grace
  /-- The engine has no configuration. -/
  | engine
  /-- Nothing may be packed around missing stations. -/
  | bound
  /-- There is no such log level. -/
  | logLevel (level : String)
  deriving DecidableEq, Repr

/-- The wording of a fault. -/
def Fault.message : Fault → String
  | cutoff => "Cutoff must be strictly positive"
  | grace => "Timer grace period must be strictly positive"
  | engine => "Engine configuration must not be empty"
  | bound => "Presolver neighborhood bound must be positive"
  | logLevel level => "Unknown log level: " ++ level

/-- The log levels, in capital letters. -/
def logLevels : List String := ["OFF", "ERROR", "WARN", "INFO", "DEBUG", "TRACE"]

/-- Whether there is a log level with a name, in letters of either case. -/
def isLogLevel (name : String) : Bool := logLevels.contains (String.ofList (upper name.toList))

/-- The first thing that is wrong with settings. -/
def fault? (s : Settings) : Option Fault :=
  if !s.cutoffSeconds.isPositive then some .cutoff
  else if !s.graceSeconds.isPositive then some .grace
  else if (trim s.engine.toList).isEmpty then some .engine
  else if s.bounds.maxToPack = 0 then some .bound
  else if !isLogLevel s.logLevel then some (.logLevel s.logLevel)
  else none

/-- Accepts settings with which nothing is wrong. -/
def validate (s : Settings) : Except Fault Unit :=
  match s.fault? with
  | some e => .error e
  | none => .ok ()

/-! ## §3 What Follows from Settings -/

/-- The time limit; zero if the seconds are no duration. -/
def cutoff (s : Settings) : Duration := (Duration.ofBinary64? s.cutoffSeconds).getD .zero

/-- The grace period of timers; three seconds if the seconds are no duration. -/
def grace (s : Settings) : Duration := (Duration.ofBinary64? s.graceSeconds).getD (.ofParts 3 0)

/-- How bundles are put together. -/
def bundleOptions (s : Settings) : BundleOptions :=
  ⟨s.engine, s.seed, s.grace, s.presolve, s.bounds⟩

/-- Where bundles look for problems without a packing. -/
def cachePlan {σ : Type} (s : Settings) : CachePlan σ :=
  if s.useCache then .own s.learn else .disabled

/-- The bundles of the datasets below the data root. -/
def bundleSource {σ : Type} [Timed σ] [Host σ] {m : Type → Type} [Monad m]
    [SolverMonad σ m] (s : Settings) (load : String → m (Except DataError Dataset)) :
    BundleSource m (Bundle σ) where
  load := load
  build dataset := SolverMonad.within (Bundle.build s.bundleOptions s.cachePlan dataset)
  release b := SolverMonad.within b.solver.shutdown

/-! ## §4 Overrides -/

/-- Choices that take the place of settings. -/
structure Overrides where
  /-- Another time limit. -/
  cutoffSeconds : Option Binary64 := none
  /-- Another seed. -/
  seed : Option Nat := none
  /-- Another directory of datasets. -/
  dataRoot : Option Path := none
  /-- Another directory for formulas. -/
  cnfDirectory : Option Path := none
  /-- Another form of reports. -/
  format : Option ReportFormat := none
  /-- Not to try packing around the missing stations. -/
  noPresolve : Bool := false
  /-- To log and report more. -/
  verbose : Bool := false

/-- The settings with the choices of overrides in place. -/
def override (s : Settings) (o : Overrides) : Settings :=
  { s with
    cutoffSeconds := o.cutoffSeconds.getD s.cutoffSeconds
    seed := o.seed.getD s.seed
    dataRoot := o.dataRoot.getD s.dataRoot
    cnfDirectory := o.cnfDirectory.getD s.cnfDirectory
    format := o.format.getD s.format
    presolve := s.presolve && !o.noPresolve
    logLevel := if o.verbose then "debug" else s.logLevel }

end Settings

end SpectrumPacking
