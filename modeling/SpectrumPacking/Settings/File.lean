import SpectrumPacking.Settings.Basic
import SpectrumPacking.Yaml.Printer
import SpectrumPacking.Yaml.Reader

/-!
# Settings in Files

Settings are kept as a YAML document with a section for each part of the program.
-/

namespace SpectrumPacking.Settings

/-! ## §1 Documents -/

/-- The document of settings. -/
def toYaml (s : Settings) : Yaml :=
  let part (name : String) (l : List (String × Yaml)) : Yaml × Yaml :=
    (.ofText name.toList, .mapping (l.map fun e => (.ofText e.1.toList, e.2)))
  .mapping [
    part "solver" [("seed", .ofNat s.seed), ("cutoff_seconds", .ofBinary64 s.cutoffSeconds),
      ("engine_config", .ofText s.engine.toList),
      ("timer_grace_seconds", .ofBinary64 s.graceSeconds)],
    part "presolver" [("enabled", .ofBool s.presolve),
      ("max_missing_stations", .ofNat s.bounds.maxMissing),
      ("max_to_pack", .ofNat s.bounds.maxToPack)],
    part "cache" [("enabled", .ofBool s.useCache), ("learn", .ofBool s.learn)],
    part "data" [("root", .ofText s.dataRoot.text.toList)],
    part "output" [("format", .ofText s.format.name.toList),
      ("cnf_directory", .ofText s.cnfDirectory.text.toList)],
    part "logging" [("level", .ofText s.logLevel.toList)]]

/-- Reads the settings in a document. -/
def ofYaml? (d : Yaml.Document) : Option Settings := do
  let [solver, presolver, cache, data, output, logging] ←
    d.fields? ["solver", "presolver", "cache", "data", "output", "logging"] d.root | none
  let [seed, cutoff, engine, grace] ←
    d.fields? ["seed", "cutoff_seconds", "engine_config", "timer_grace_seconds"] solver | none
  let [presolve, maxMissing, maxToPack] ←
    d.fields? ["enabled", "max_missing_stations", "max_to_pack"] presolver | none
  let [useCache, learn] ← d.fields? ["enabled", "learn"] cache | none
  let [root] ← d.fields? ["root"] data | none
  let [format, cnfDirectory] ← d.fields? ["format", "cnf_directory"] output | none
  let [level] ← d.fields? ["level"] logging | none
  return {
    seed := ← seed.word?
    cutoffSeconds := ← cutoff.binary64?
    engine := ← engine.string?
    graceSeconds := ← grace.binary64?
    presolve := ← presolve.bool?
    bounds := ⟨← maxMissing.word?, ← maxToPack.word?⟩
    useCache := ← useCache.bool?
    learn := ← learn.bool?
    dataRoot := ⟨← root.string?⟩
    format := ← format.choice?.bind ReportFormat.ofName?
    cnfDirectory := ⟨← cnfDirectory.string?⟩
    logLevel := ← level.string? }

/-! ## §2 Files -/

/-- Why settings cannot be loaded or saved. -/
inductive FileError where
  /-- The file cannot be read. -/
  | unreadable (path : Path) (cause : FileFault)
  /-- The file holds no settings. -/
  | malformed (path : Path)
  /-- Something is wrong with the settings. -/
  | invalid (e : Fault)
  /-- The directory of the file cannot be made. -/
  | noDirectory (path : Path) (cause : FileFault)
  /-- The file cannot be written. -/
  | unwritable (path : Path) (cause : FileFault)
  deriving DecidableEq

/-- The wording of a fault. -/
def FileError.message : FileError → String
  | unreadable path _ => "Failed to read config file: " ++ path.text
  | malformed path => "Failed to parse config file: " ++ path.text
  | invalid e => e.message
  | noDirectory path _ => "Failed to create directory: " ++ path.text
  | unwritable path _ => "Failed to write config file: " ++ path.text

/-- The fault and what caused it, in words. -/
def FileError.chain (e : FileError) : List String :=
  match e with
  | unreadable _ cause => [e.message, cause.message]
  | noDirectory _ cause => [e.message, cause.message]
  | unwritable _ cause => [e.message, cause.message]
  | _ => [e.message]

variable {m : Type → Type} [Monad m] [FileAccess m]

/-- Loads the settings in a file. -/
def load (p : Path) : m (Except FileError Settings) := do
  match ← FileAccess.read p with
  | .error cause => return .error (.unreadable p cause)
  | .ok t =>
    match (Yaml.ofText? t.toList).bind ofYaml? with
    | none => return .error (.malformed p)
    | some s =>
      match s.validate with
      | .error e => return .error (.invalid e)
      | .ok () => return .ok s

/-- Makes the directory that the file of a path is in, if the path names one. -/
def provideDirectory (p : Path) : m (Except FileError Unit) := do
  match p.parent? with
  | none => return .ok ()
  | some directory =>
    return (← FileAccess.makeDirectories directory).mapError (.noDirectory directory)

/-- Saves settings in a file, in a directory that is made if it is missing. -/
def save (s : Settings) (p : Path) : m (Except FileError Unit) := do
  match ← provideDirectory p with
  | .error e => return .error e
  | .ok () =>
    return (← FileAccess.write p (String.ofList s.toYaml.toText)).mapError (.unwritable p)

end SpectrumPacking.Settings
