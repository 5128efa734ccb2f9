import SpectrumPacking.Dataset.Text

/-!
# Questions

A question text names a dataset, a band and the stations to pack:

    STATION_CONFIG,<dataset>
    BAND,UHF
    HIGHEST,36
    <station>[,<previous channel>]

Lines may come in any order.  A line whose first field is neither a keyword nor the number of a
station says nothing.  Questions are kept in files, one a file; a directory of questions holds
nothing but them.
-/

namespace SpectrumPacking

open Text

/-! ## §1 Bands -/

/-- A frequency band. -/
inductive Band where
  | lowVhf
  | highVhf
  | uhf
  deriving DecidableEq, Repr

namespace Band

/-- Reads the name of a band in any letter case. -/
def ofText? (t : List Char) : Option Band :=
  match String.ofList (Text.upper (Text.trim t)) with
  | "LVHF" => some .lowVhf
  | "HVHF" => some .highVhf
  | "UVHF" => some .highVhf
  | "UHF" => some .uhf
  | "3" => some .uhf
  | _ => none

/-- The channels from `low` to `low + n - 1`. -/
def run (low : Channel) (n : Nat) : List Channel := (List.range n).map fun (i : Nat) => low + i

/-- The channels of a band: 2 to 6, 7 to 13, and 14 to 51 without 37, which radio astronomy
keeps. -/
def channels : Band → SortedSet Channel
  | lowVhf => SortedSet.ofList (run 2 5)
  | highVhf => SortedSet.ofList (run 7 7)
  | uhf => SortedSet.ofList ((run 14 38).filter (· != 37))

end Band

/-! ## §2 Questions -/

/-- Which stations of a dataset to pack into which channels. -/
structure Question where
  /-- The key of the dataset. -/
  dataset : String
  /-- The band to pack into. -/
  band : Band
  /-- The highest channel to use. -/
  highest : Option Channel
  /-- The stations to pack. -/
  stations : SortedSet StationId
  /-- Channels of an earlier packing. -/
  previous : Placement
  deriving DecidableEq

namespace Question

/-- The channels of the band up to the highest one allowed. -/
def channels (q : Question) : SortedSet Channel :=
  match q.highest with
  | none => q.band.channels
  | some h => q.band.channels.filter fun c => decide (c ≤ h)

/-- Gives each station of a list its domain within some channels, until a station is unknown. -/
def domainsWithin (d : Domains) (channels : SortedSet Channel) :
    List StationId → Except DataError (List (StationId × SortedSet Channel))
  | [] => .ok []
  | s :: rest =>
    match d.lookup s with
    | .error e => .error e
    | .ok domain => (domainsWithin d channels rest).map ((s, domain.inter channels) :: ·)

/-- The packing problem of a question over the stations of a dataset. -/
def problem (q : Question) (d : Domains) : Except DataError Problem :=
  (domainsWithin d q.channels q.stations.toList).map fun l =>
    Problem.ofDomains (SortedMap.ofList l) q.previous

/-! ## §3 Reading -/

/-- What the lines read so far say. -/
structure Draft where
  /-- The key of the dataset. -/
  dataset : Option (List Char) := none
  /-- The band to pack into. -/
  band : Option Band := none
  /-- The highest channel to use. -/
  highest : Option Channel := none
  /-- The stations to pack. -/
  stations : SortedSet StationId := SortedSet.empty
  /-- Channels of an earlier packing. -/
  previous : Placement := SortedMap.empty

/-- Reads a channel, or says that the field holds none. -/
def channelField (t : List Char) : Except LineFault Channel :=
  match Channel.ofText? t with
  | some c => .ok c
  | none => .error (.notAChannel t)

/-- Reads a line with the key and the value given. -/
def Draft.readEntry (q : Draft) (key value : List Char) : Except LineFault Draft :=
  if key == "STATION_CONFIG".toList then
    .ok { q with dataset := some value }
  else if key == "BAND".toList then
    match Band.ofText? value with
    | some band => .ok { q with band := some band }
    | none => .error (.unknownBand value)
  else if key == "HIGHEST".toList then
    (channelField value).map fun c => { q with highest := some c }
  else
    match StationId.ofText? key with
    | none => .ok q
    | some s =>
      if value.isEmpty then .ok { q with stations := q.stations.insert s }
      else
        (channelField value).map fun c =>
          { q with stations := q.stations.insert s, previous := q.previous.insert s c }

/-- The first field of a line and the second, which is empty when it is missing. -/
def keyAndValue (line : List Char) : List Char × List Char :=
  match fields line with
  | [] => ([], [])
  | [key] => (key, [])
  | key :: value :: _ => (key, value)

/-- Reads one line. -/
def Draft.readLine (file : Path) (n : Nat) (q : Draft) (line : List Char) :
    Except DataError Draft :=
  let (key, value) := keyAndValue line
  if key.isEmpty || key.head? == some '#' then .ok q
  else
    match q.readEntry key value with
    | .error e => .error (.malformed file n e)
    | .ok r => .ok r

/-- The question that a draft amounts to; a dataset and a band are needed. -/
def Draft.finish (file : Path) (q : Draft) : Except DataError Question :=
  match q.dataset, q.band with
  | none, _ => .error (.malformed file 0 .missingDataset)
  | some _, none => .error (.malformed file 0 .missingBand)
  | some dataset, some band =>
    .ok ⟨String.ofList dataset, band, q.highest, q.stations, q.previous⟩

/-- Reads a question text. -/
def ofText (file : Path) (text : List Char) : Except DataError Question :=
  (foldLines (Draft.readLine file) 1 {} (lines text)).bind (Draft.finish file)

end Question

/-! ## §4 Loading -/

variable {m : Type → Type} [Monad m] [FileAccess m]

/-- Reads the question in a file. -/
def Question.load (p : Path) : m (Except DataError Question) := do
  match ← FileAccess.read p with
  | .ok t => return Question.ofText p t.toList
  | .error cause => return .error (.unreadable p cause)

/-- The files of a list of paths. -/
def filesAmong : List Path → m (List Path)
  | [] => return []
  | p :: rest => do
    if ← FileAccess.isFile p then return p :: (← filesAmong rest) else filesAmong rest

/-- The files directly in a directory, by name; a file stands for itself. -/
def questionFiles (p : Path) : m (Except FileFault (List Path)) := do
  if ← FileAccess.isFile p then return .ok [p]
  match ← FileAccess.names p with
  | .error e => return .error e
  | .ok names =>
    let sorted := names.mergeSort fun a b => decide (a ≤ b)
    return .ok (← filesAmong (sorted.map fun name => p.join ⟨name⟩))

end SpectrumPacking
