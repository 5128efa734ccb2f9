import SpectrumPacking.Files.Path
import SpectrumPacking.Packing.Interference

/-!
# Datasets

A dataset holds the channels that each of its stations may ever take and the interference among
them.  What can be wrong with the files of a dataset or a question has a wording of its own.
-/

namespace SpectrumPacking

/-! ## §1 Faults -/

/-- What is wrong with one line of a text. -/
inductive LineFault where
  /-- A field that should be a number is none, or is out of range. -/
  | notANumber (field : List Char)
  /-- A domain line names no station. -/
  | missingStation
  /-- An interference line has fewer than three fields. -/
  | tooFewFields
  /-- An interference line is of no known kind. -/
  | unknownRelation (tag : List Char)
  /-- A question asks for no known band. -/
  | unknownBand (name : List Char)
  /-- A field that should be a channel is none. -/
  | notAChannel (field : List Char)
  /-- A question names no dataset. -/
  | missingDataset
  /-- A question names no band. -/
  | missingBand
  /-- A fault that a reader of another format puts into its own words. -/
  | described (text : String)
  deriving DecidableEq, Repr

/-- The wording of a fault. -/
def LineFault.message : LineFault → String
  | notANumber field => "'" ++ String.ofList field ++ "' is not a number"
  | missingStation => "missing station id"
  | tooFewFields => "expected <type>,<subject>,<target>,..."
  | unknownRelation tag => "unknown constraint type '" ++ String.ofList tag ++ "'"
  | unknownBand name => "unrecognized band '" ++ String.ofList name ++ "'"
  | notAChannel field => "'" ++ String.ofList field ++ "' is not a channel"
  | missingDataset => "no STATION_CONFIG entry"
  | missingBand => "no BAND entry"
  | described text => text

/-- Why a dataset or a question cannot be used. -/
inductive DataError where
  /-- There is no dataset at a path. -/
  | notFound (path : Path)
  /-- A line of a file is malformed; line zero stands for the file as a whole. -/
  | malformed (file : Path) (line : Nat) (fault : LineFault)
  /-- A station is not in the dataset. -/
  | unknownStation (s : StationId)
  /-- A file cannot be read as text. -/
  | unreadable (path : Path) (cause : FileFault)
  deriving DecidableEq, Repr

/-- The wording of a fault. -/
def DataError.message : DataError → String
  | notFound path => "dataset not found: " ++ path.text
  | malformed file line fault => file.text ++ ":" ++ toString line ++ ": " ++ fault.message
  | unknownStation s => "unknown station " ++ toString s
  | unreadable path _ => "failed to read " ++ path.text

/-- The fault and what caused it, in words. -/
def DataError.chain (e : DataError) : List String :=
  match e with
  | unreadable _ cause => [e.message, cause.message]
  | _ => [e.message]

/-! ## §2 Stations -/

/-- A station with every channel that it may ever take. -/
structure Station where
  /-- The number of the station. -/
  id : StationId
  /-- The channels that it may take. -/
  domain : SortedSet Channel
  deriving DecidableEq

namespace Station

/-- The JSON text of a station. -/
def json (s : Station) : String :=
  "\x7b\"id\":" ++ toString s.id ++ ",\"domain\":[" ++
    ",".intercalate (s.domain.toList.map toString) ++ "]\x7d"

end Station

/-! ## §3 Stations by Number -/

namespace Domains

/-- The domains of a list of stations; of several with one number the last counts. -/
def ofStations (l : List Station) : Domains :=
  SortedMap.ofList (l.map fun s => (s.id, s.domain))

/-- The domain of a station, or the fault that the station is unknown. -/
def lookup (d : Domains) (s : StationId) : Except DataError (SortedSet Channel) :=
  match d.get? s with
  | some domain => .ok domain
  | none => .error (.unknownStation s)

theorem lookup_eq_ok_iff {d : Domains} {s : StationId} {domain : SortedSet Channel} :
    d.lookup s = .ok domain ↔ d.get? s = some domain := by
  rw [lookup]
  cases d.get? s <;> simp

theorem lookup_eq_error_iff {d : Domains} {s : StationId} {e : DataError} :
    d.lookup s = .error e ↔ d.get? s = none ∧ e = .unknownStation s := by
  rw [lookup]
  cases d.get? s <;> simp [eq_comm]

end Domains

/-- The stations of a dataset and the interference among them. -/
structure Dataset where
  /-- The channels that each station may take. -/
  domains : Domains
  /-- The interference among the stations. -/
  interference : Interference
  deriving Inhabited

end SpectrumPacking
