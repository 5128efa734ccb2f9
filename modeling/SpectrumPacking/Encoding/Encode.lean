import SpectrumPacking.Formula.Cnf
import SpectrumPacking.Packing.Interference

/-!
# Encoding Packing Problems

Variable `x(s, c)` says that station `s` stands on channel `c`.  Stations and channels are ranked in
increasing order, and the variables are numbered from 1 on, row by row.  Numbers are kept in 32 bits
of two's complement, so the numbering is faithful while there are fewer than `2 ^ 31` pairs.

For each station there are clauses that put it on at most one channel and on at least one, and those
that respect the constraints on shared and on adjacent channels.  The models of all of them together
are the packings of the problem.
-/

namespace SpectrumPacking

/-! ## §1 Numbering -/

/-- The stations and the channels that variables speak of. -/
structure Numbering where
  /-- The stations, one row of variables each. -/
  stations : SortedSet StationId
  /-- The channels, one column of variables each. -/
  channels : SortedSet Channel
  deriving DecidableEq

namespace Numbering

/-- The numbering of a problem: its stations by all channels of its domains. -/
def ofProblem (p : Problem) : Numbering := ⟨p.stationSet, p.channels⟩

/-- The number of channels. -/
def numChannels (n : Numbering) : Nat := n.channels.size

/-- The number of variables. -/
def size (n : Numbering) : Nat := n.stations.size * n.channels.size

/-- The position of a station. -/
def stationRank? (n : Numbering) (s : StationId) : Option Nat := n.stations.toList.idxOf? s

/-- The position of a channel. -/
def channelRank? (n : Numbering) (c : Channel) : Option Nat := n.channels.toList.idxOf? c

/-- The variable in a row and a column, in 32 bits of two's complement. -/
def variableAt (n : Numbering) (row column : Nat) : Literal :=
  Int.bmod (row * n.numChannels + column + 1 : Nat) (2 ^ 32)

/-- The variable that says that a station stands on a channel, if both are numbered. -/
def literal? (n : Numbering) (s : StationId) (c : Channel) : Option Literal :=
  match n.stationRank? s, n.channelRank? c with
  | some row, some column => some (n.variableAt row column)
  | _, _ => none

/-- The station and the channel of a variable. -/
def meaning? (n : Numbering) (x : Literal) : Option (StationId × Channel) :=
  if 0 < x ∧ x.toNat ≤ n.size then
    match n.stations.toList[(x.toNat - 1) / n.numChannels]?,
      n.channels.toList[(x.toNat - 1) % n.numChannels]? with
    | some s, some c => some (s, c)
    | _, _ => none
  else none

end Numbering

/-! ## §2 Clause Families -/

namespace Numbering

/-- The pairs of a list, each element with every later one. -/
def laterPairs {α : Type} : List α → List (α × α)
  | [] => []
  | a :: rest => rest.map (fun b => (a, b)) ++ laterPairs rest

/-- The clause that excludes two variables together. -/
def notBoth (a b : Literal) : Clause := [-a, -b]

/-- The clauses that exclude two channels at once for the station in a row. -/
def atMostOne (n : Numbering) (row : Nat) : List Clause :=
  (laterPairs (List.range n.numChannels)).map fun (i, j) =>
    notBoth (n.variableAt row i) (n.variableAt row j)

/-- The clause that puts a station on some channel of a domain. -/
def atLeastOne (n : Numbering) (s : StationId) (domain : SortedSet Channel) : Clause :=
  domain.toList.filterMap (n.literal? s)

/-- The clause that excludes station `s` on channel `c` together with station `t` on channel `d`,
if all four are numbered. -/
def exclusion (n : Numbering) (s : StationId) (c : Channel) (t : StationId) (d : Channel) :
    Option Clause :=
  match n.literal? s c, n.literal? t d with
  | some a, some b => some (notBoth a b)
  | _, _ => none

/-- The clauses that keep a station off the channels of the stations in front of it that may not
share one with it; only channels open to both matter. -/
def coChannel (n : Numbering) (x : Interference) (p : Problem) (s : StationId) : List Clause :=
  match n.stationRank? s, p.domain? s with
  | some row, some domain =>
    (x.coStations s).toList.flatMap fun t =>
      match n.stationRank? t, p.domain? t with
      | some row', some domain' =>
        if row' < row then (domain.inter domain').toList.filterMap fun c => n.exclusion s c t c
        else []
      | _, _ => []
  | _, _ => []

/-- The clauses that keep other stations off the channel above a station. -/
def adjacentChannel (n : Numbering) (x : Interference) (p : Problem) (s : StationId) :
    List Clause :=
  match p.domain? s with
  | none => []
  | some domain =>
    (x.adjacentStations s).toList.flatMap fun t =>
      match p.domain? t with
      | none => []
      | some domain' =>
        (domain.toList.filter fun c => domain'.contains (c + 1)).filterMap fun c =>
          n.exclusion s c t (c + 1)

end Numbering

/-! ## §3 Formulas -/

namespace Problem

/-- The clauses of one station, which stands in a row and has a domain. -/
def stationClauses (p : Problem) (x : Interference) (row : Nat) (s : StationId)
    (domain : SortedSet Channel) : List Clause :=
  let n := Numbering.ofProblem p
  n.atMostOne row ++ n.atLeastOne s domain :: n.coChannel x p s ++ n.adjacentChannel x p s

/-- The formula of a problem.  An empty domain makes it the fixed contradiction. -/
def encode (p : Problem) (x : Interference) : Cnf :=
  if p.hasEmptyDomain then .contradiction
  else
    { numVariables := (Numbering.ofProblem p).size
      clauses := p.domains.toList.zipIdx.flatMap fun (e, row) =>
        p.stationClauses x row e.1 e.2 }

/-- The comments that name a problem. -/
def comments (p : Problem) : List (List Char) :=
  ["FCC Station Packing Instance".toList,
    "Stations: ".toList ++ [' '].intercalate (p.stations.map Text.Numeral.ofNat),
    "Channels: ".toList ++ [' '].intercalate (p.channels.toList.map Text.Numeral.ofInt)]

end Problem

/-- The size of an encoding. -/
structure EncodingSize where
  /-- The number of stations. -/
  stations : Nat
  /-- The number of channels. -/
  channels : Nat
  /-- The number of variables. -/
  «variables» : Nat
  /-- The number of clauses. -/
  clauses : Nat
  /-- Whether an empty domain made the formula the fixed contradiction. -/
  isContradiction : Bool
  deriving DecidableEq, Repr

namespace EncodingSize

/-- The size of the formula of a problem. -/
def ofFormula (p : Problem) (f : Cnf) : EncodingSize :=
  ⟨p.size, p.channels.size, f.numVariables, f.numClauses, f.isContradiction⟩

/-- The size in words. -/
def report (z : EncodingSize) : String :=
  "SAT Encoding Statistics:\n" ++
  "  Stations: " ++ toString z.stations ++ "\n" ++
  "  Channels: " ++ toString z.channels ++ "\n" ++
  "  Total variables: " ++ toString z.variables ++ "\n" ++
  "  Total clauses: " ++ toString z.clauses ++ "\n" ++
  if z.isContradiction then "  Trivially UNSAT (empty domain)\n" else ""

end EncodingSize

end SpectrumPacking
