import SpectrumPacking.Packing.Interference
import SpectrumPacking.Solve.Solver

/-!
# Packing Around Missing Stations

There are two ways to settle a problem by solving a smaller one.  If some stations alone cannot be
packed, the problem cannot be packed.  If they can be packed around all other stations, which keep
their previous channels, then so can the problem.

When an earlier packing covers most of a problem, only the stations missing from it and their
neighbours in the interference graph may have to move.  The presolver has both certifiers attempt
the problem with these stations.
-/

namespace SpectrumPacking

/-! ## §1 The Reduced Problem -/

namespace Problem

/-- The previous channel of each station of a list, if it is in the station's domain. -/
def keptChannels? (p : Problem) : List StationId → Option (List (StationId × Channel))
  | [] => some []
  | s :: rest =>
    match p.previous.get? s, p.domain? s with
    | some c, some domain =>
      if domain.contains c then (p.keptChannels? rest).map ((s, c) :: ·) else none
    | _, _ => none

/-- The stations outside a set on their previous channels, if all of them can stay there. -/
def fixed? (p : Problem) (toPack : SortedSet StationId) : Option Placement :=
  (p.keptChannels? (p.stations.filter fun s => !toPack.contains s)).map SortedMap.ofList

/-- The channels of a domain that no fixed station closes to `s`. -/
def prune (x : Interference) (fixed : Placement) (s : StationId) (domain : SortedSet Channel) :
    SortedSet Channel :=
  fixed.toList.foldl (fun d e => (x.forbidden s e.1 e.2).foldl SortedSet.erase d) domain

/-- The pruned domain of each station of a list, if all of them belong to the problem. -/
def prunedDomains? (p : Problem) (x : Interference) (fixed : Placement) :
    List StationId → Option (List (StationId × SortedSet Channel))
  | [] => some []
  | s :: rest =>
    match p.domain? s with
    | none => none
    | some domain => (p.prunedDomains? x fixed rest).map ((s, prune x fixed s domain) :: ·)

/-- The problem of packing the stations of a set around all others, with the places of the
others. -/
def around? (p : Problem) (x : Interference) (toPack : SortedSet StationId) :
    Option (Problem × Placement) :=
  match p.fixed? toPack with
  | none => none
  | some fixed =>
    (p.prunedDomains? x fixed toPack.toList).map fun l =>
      (ofDomains (SortedMap.ofList l) p.previous, fixed)

end Problem

/-- An assignment with more stations put on their channels. -/
def Assignment.merge (a : Assignment) (fixed : Placement) : Assignment :=
  fixed.toList.foldl (fun a e => a.put e.1 e.2) a

/-! ## §2 The Certifiers -/

/-- Packs the given stations around all others, which keep their previous channels. -/
def Certifier.sat {σ : Type} [Timed σ] (x : Interference) (solver : Solver σ) : Certifier σ where
  certify p toPack criterion seed := do
    let start ← Timed.now
    match p.around? x toPack with
    | none => return .timeout (← Timed.since start)
    | some (reduced, fixed) =>
      let prepared ← Timed.since start
      let result ← solver.solve reduced criterion seed
      if result.verdict ≠ .sat then
        return (SolveResult.timeout result.runtime).mark result.overflow |>.addTime prepared
      let merged := result.assignment.merge fixed
      if x.isSatisfiedBy merged then
        return (SolveResult.sat merged result.runtime).mark result.overflow |>.addTime prepared
      else return (SolveResult.timeout (← Timed.since start)).mark result.overflow
  interrupt := solver.interrupt
  shutdown := solver.shutdown

/-- Packs the given stations alone. -/
def Certifier.unsat {σ : Type} [Timed σ] (solver : Solver σ) : Certifier σ where
  certify p toPack criterion seed := do
    let start ← Timed.now
    let prepared ← Timed.since start
    let result ← solver.solve (p.restrictedTo toPack) criterion seed
    let verdict : Verdict := if result.verdict = .unsat then .unsat else .timeout
    return (SolveResult.bare verdict result.runtime).mark result.overflow |>.addTime prepared
  interrupt := solver.interrupt
  shutdown := solver.shutdown

/-! ## §3 The Presolver -/

/-- Some stations and their neighbours in the interference graph of a problem. -/
def Interference.neighborhood (x : Interference) (p : Problem) (missing : SortedSet StationId) :
    SortedSet StationId :=
  missing.toList.foldl (fun set s => set.union (neighbours (x.graph p) s)) missing

/-- The stations of a problem without a previous channel. -/
def Problem.missing (p : Problem) : SortedSet StationId :=
  p.stationSet.filter fun s => !p.previous.contains s

/-- How many stations may be missing, and how many may be packed. -/
structure NeighborhoodBounds where
  /-- The greatest number of missing stations. -/
  maxMissing : Nat
  /-- The greatest number of stations to pack. -/
  maxToPack : Nat
  deriving DecidableEq, Repr

/-- The bounds that hold unless others are given. -/
def NeighborhoodBounds.standard : NeighborhoodBounds := ⟨20, 100⟩

instance : Inhabited NeighborhoodBounds := ⟨.standard⟩

section Presolver

variable {σ : Type} [Timed σ]

/-- Has certifiers attempt a problem one after another until one settles it or the time is up: their
results and the time spent with them. -/
def tryCertifiers (p : Problem) (toPack : SortedSet StationId) (criterion : Criterion σ)
    (seed : Nat) : List (Certifier σ) → StateM σ (List SolveResult × Duration)
  | [] => return ([], .zero)
  | c :: rest => do
    if ← criterion.hasToStop then return ([], .zero)
    let start ← Timed.now
    let result ← c.certify p toPack criterion seed
    let spent ← Timed.since start
    if result.isConclusive then return ([result], spent)
    let (results, more) ← tryCertifiers p toPack criterion seed rest
    return (result :: results, spent + more)

/-- The stations to pack around an earlier packing, if there is one and the bounds are kept. -/
def Problem.toPack? (p : Problem) (x : Interference) (bounds : NeighborhoodBounds) :
    Option (SortedSet StationId) :=
  if p.previous.isEmpty || bounds.maxMissing < p.missing.size then none
  else
    let toPack := x.neighborhood p p.missing
    if bounds.maxToPack < toPack.size then none else some toPack

/-- The solver that packs only around the missing stations. -/
def presolver (x : Interference) (certifiers : List (Certifier σ)) (bounds : NeighborhoodBounds) :
    Solver σ where
  solve p criterion seed := do
    let start ← Timed.now
    match p.toPack? x bounds with
    | none => return .timeout (← Timed.since start)
    | some toPack =>
      let (results, certifying) ← tryCertifiers p toPack criterion seed certifiers
      let total ← Timed.since start
      return (SolveResult.combine results).addTime (total - certifying)
  interrupt := certifiers.forM fun c => c.interrupt
  shutdown := certifiers.forM fun c => c.shutdown

end Presolver

end SpectrumPacking
