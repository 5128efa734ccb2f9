import SpectrumPacking.Dataset.Basic
import SpectrumPacking.Files.Store

/-!
# Dataset Texts

A dataset is written as two texts.  A line `DOMAIN,<station>,<channel>,...` of the first gives the
channels of a station; the tag may be left out.  A line `CO,<subject>,<target>,...` or
`ADJ+1,<subject>,<target>,...` of the second gives constraints among stations of the first.  Tags
are read in any letter case, blank lines and lines that start with a number sign are skipped, and
empty fields do not count.

The two texts are files in the directory of the dataset.
-/

namespace SpectrumPacking

open Text

/-! ## §1 Numbers -/

/-- Reads the number of a station. -/
def StationId.ofText? (t : List Char) : Option StationId := Numeral.natWithin? 32 t

/-- Reads a channel. -/
def Channel.ofText? (t : List Char) : Option Channel := Numeral.intWithin? 32 t

/-- Reads the number of a station, or says that the field holds no number. -/
def stationField (t : List Char) : Except LineFault StationId :=
  match StationId.ofText? t with
  | some s => .ok s
  | none => .error (.notANumber t)

/-- Reads a list of channels, or says which field is the first that holds no number. -/
def channelFields : List (List Char) → Except LineFault (List Channel)
  | [] => .ok []
  | t :: rest =>
    match Channel.ofText? t with
    | none => .error (.notANumber t)
    | some c => (channelFields rest).map (c :: ·)

/-! ## §2 Domains -/

/-- The fields of a domain line without its tag. -/
def untagged : List (List Char) → List (List Char)
  | [] => []
  | tag :: rest => if upper tag == "DOMAIN".toList then rest else tag :: rest

/-- Reads a domain line. -/
def Station.ofLine (line : List Char) : Except LineFault Station :=
  match untagged (filledFields (trim line)) with
  | [] => .error .missingStation
  | id :: channels =>
    match stationField id with
    | .error e => .error e
    | .ok s => (channelFields channels).map fun cs => ⟨s, SortedSet.ofList cs⟩

/-- Reads one line into the domains read so far; a later line replaces an earlier one. -/
def Domains.readLine (file : Path) (n : Nat) (d : Domains) (line : List Char) :
    Except DataError Domains :=
  if isRemark line then .ok d
  else
    match Station.ofLine line with
    | .error e => .error (.malformed file n e)
    | .ok s => .ok (d.insert s.id s.domain)

/-- Reads the domain text of a dataset. -/
def Domains.ofText (file : Path) (text : List Char) : Except DataError Domains :=
  foldLines (readLine file) 1 SortedMap.empty (lines text)

/-! ## §3 Interference -/

/-- The two kinds of constraint. -/
inductive Relation where
  /-- The stations may not share a channel. -/
  | co
  /-- The subject keeps the target off the channel above its own. -/
  | adjacent
  deriving DecidableEq, Repr

/-- Reads the tag of an interference line. -/
def Relation.ofTag (tag : List Char) : Except LineFault Relation :=
  if upper tag == "CO".toList then .ok .co
  else if upper tag == "ADJ+1".toList then .ok .adjacent
  else .error (.unknownRelation (upper tag))

namespace Interference

/-- Records one constraint. -/
def add (x : Interference) (r : Relation) (subject target : StationId) : Interference :=
  match r with
  | .co => x.addCo subject target
  | .adjacent => x.addAdjacent subject target

/-- Reads the number of a station of the dataset. -/
def knownStation (d : Domains) (file : Path) (n : Nat) (t : List Char) :
    Except DataError StationId :=
  match stationField t with
  | .error e => .error (.malformed file n e)
  | .ok s => (d.lookup s).map fun _ => s

/-- Reads the targets of a line one after another; a wrong tag shows at the first of them. -/
def readTargets (d : Domains) (file : Path) (n : Nat) (tag : List Char) (subject : StationId)
    (x : Interference) : List (List Char) → Except DataError Interference
  | [] => .ok x
  | t :: rest =>
    match knownStation d file n t with
    | .error e => .error e
    | .ok target =>
      match Relation.ofTag tag with
      | .error e => .error (.malformed file n e)
      | .ok r => readTargets d file n tag subject (x.add r subject target) rest

/-- Reads one line into the constraints read so far. -/
def readLine (d : Domains) (file : Path) (n : Nat) (x : Interference) (line : List Char) :
    Except DataError Interference :=
  if isRemark line then .ok x
  else
    match filledFields (trim line) with
    | tag :: subject :: target :: rest =>
      match knownStation d file n subject with
      | .error e => .error e
      | .ok s => readTargets d file n tag s x (target :: rest)
    | _ => .error (.malformed file n .tooFewFields)

/-- Reads the interference text of a dataset with the given domains. -/
def ofText (d : Domains) (file : Path) (text : List Char) : Except DataError Interference :=
  foldLines (readLine d file) 1 none (lines text)

end Interference

/-- Reads the two texts of a dataset. -/
def Dataset.ofTexts (domainFile : Path) (domainText : List Char) (interferenceFile : Path)
    (interferenceText : List Char) : Except DataError Dataset :=
  match Domains.ofText domainFile domainText with
  | .error e => .error e
  | .ok d => (Interference.ofText d interferenceFile interferenceText).map fun x => ⟨d, x⟩

/-! ## §4 Loading -/

variable {m : Type → Type} [Monad m] [FileAccess m]

/-- The name of the file of domains. -/
def Dataset.domainFile : Path := ⟨"domains.csv"⟩

/-- The name of the file of interference. -/
def Dataset.interferenceFile : Path := ⟨"interferences.csv"⟩

/-- Reads one file of a dataset. -/
def Dataset.readFile (p : Path) : m (Except DataError (List Char)) := do
  if !(← FileAccess.isFile p) then return .error (.notFound p)
  match ← FileAccess.read p with
  | .ok t => return .ok t.toList
  | .error cause => return .error (.unreadable p cause)

/-- The directory of the dataset with a key. -/
def Dataset.directory (root : Option Path) (key : String) : Path :=
  match root with
  | some p => p.join ⟨key⟩
  | none => ⟨key⟩

/-- Loads the dataset with a key. -/
def Dataset.load (root : Option Path) (key : String) : m (Except DataError Dataset) := do
  let directory := Dataset.directory root key
  if !(← FileAccess.isDirectory directory) then return .error (.notFound directory)
  let file := directory.join domainFile
  match (← readFile file).bind (Domains.ofText file) with
  | .error e => return .error e
  | .ok domains =>
    let file := directory.join interferenceFile
    match (← readFile file).bind (Interference.ofText domains file) with
    | .error e => return .error e
    | .ok interference => return .ok ⟨domains, interference⟩

end SpectrumPacking
