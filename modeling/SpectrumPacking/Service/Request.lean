import SpectrumPacking.Question.Basic
import SpectrumPacking.Service.Bundle

/-!
# Requests

A request asks for a packing of some stations of a dataset into some channels, within a time
limit.  It is answered by the bundle of its dataset.
-/

namespace SpectrumPacking

/-! ## §1 The Types -/

/-- Which stations to pack into which channels, and how long to try. -/
structure Request where
  stations : SortedSet StationId
  channels : SortedSet Channel
  /-- Stations that may take some channels only; an empty set stands for no restriction. -/
  reduced : Domains
  /-- Channels of an earlier packing. -/
  previous : Placement
  /-- The time limit. -/
  cutoff : Duration
  seed : Nat
  /-- The key of the dataset. -/
  dataset : String

/-- Why a request has no answer. -/
inductive RequestError where
  /-- The time limit is zero. -/
  | invalidCutoff (cutoff : Duration)
  /-- There is no bundle for the dataset. -/
  | manager (e : ManagerError)
  /-- The request does not fit the dataset. -/
  | data (e : DataError)
  deriving DecidableEq

/-- The wording of a fault. -/
def RequestError.message : RequestError → String
  | invalidCutoff cutoff => "cutoff must be strictly positive, got " ++ cutoff.text
  | manager e => e.message
  | data e => e.message

/-- The fault and what caused it, in words. -/
def RequestError.chain (e : RequestError) : List String :=
  match e with
  | manager (.data fault) => fault.chain
  | data fault => fault.chain
  | _ => [e.message]

/-- The answer to a request. -/
structure Outcome where
  verdict : Verdict
  /-- The time that it took, in seconds. -/
  seconds : Binary64
  /-- The channel of each station that was packed. -/
  witness : Placement
  deriving DecidableEq

namespace Request

/-! ## §2 The Problem of a Request -/

/-- The request that a question makes. -/
def ofQuestion (q : Question) (cutoff : Duration) (seed : Nat) : Request where
  stations := q.stations
  channels := q.channels
  reduced := SortedMap.empty
  previous := q.previous
  cutoff := cutoff
  seed := seed
  dataset := q.dataset

/-- The part of a domain that a request leaves to a station. -/
def admitted (r : Request) (s : StationId) (domain : SortedSet Channel) : SortedSet Channel :=
  match r.reduced.get? s with
  | some reduced =>
    if reduced.isEmpty then domain.inter r.channels else (domain.inter r.channels).inter reduced
  | none => domain.inter r.channels

/-- The channels left to each station of a list, until a station is unknown. -/
def admittedDomains (r : Request) (d : Domains) :
    List StationId → Except DataError (List (StationId × SortedSet Channel))
  | [] => .ok []
  | s :: rest =>
    match d.lookup s with
    | .error e => .error e
    | .ok domain => (r.admittedDomains d rest).map ((s, r.admitted s domain) :: ·)

/-- The packing problem of a request over the stations of a dataset. -/
def problem (r : Request) (d : Domains) : Except DataError Problem :=
  (r.admittedDomains d r.stations.toList).map fun l =>
    Problem.ofDomains (SortedMap.ofList l) r.previous

/-! ## §3 Answers -/

variable {σ : Type}

/-- Has a solver attempt a problem for a request, within its time limit on either clock. -/
def attempt [Timed σ] (r : Request) (p : Problem) (solver : Solver σ) : StateM σ Outcome := do
  let criterion := Criterion.ofLimit (.cutoff (← Timed.read) r.cutoff)
  let result ← solver.solve p criterion r.seed
  return ⟨result.verdict, result.runtime.toBinary64, result.assignment.placement⟩

/-- Answers a request with the bundles of a manager. -/
def answer [Timed σ] {m : Type → Type} [Monad m] [SolverMonad σ m]
    (source : BundleSource m (Bundle σ)) (g : Manager (Bundle σ)) (r : Request) :
    m (Except RequestError Outcome × Manager (Bundle σ)) := do
  if r.stations.isEmpty then return (.ok ⟨.sat, .zero, SortedMap.empty⟩, g)
  if r.cutoff = .zero then return (.error (.invalidCutoff r.cutoff), g)
  let (bundle, g) ← g.get source r.dataset
  match bundle with
  | .error e => return (.error (.manager e), g)
  | .ok bundle =>
    match r.problem bundle.dataset.domains with
    | .error e => return (.error (.data e), g)
    | .ok p => return (.ok (← SolverMonad.within (r.attempt p bundle.solver)), g)

/-- Answers requests one after another. -/
def answerAll [Timed σ] {m : Type → Type} [Monad m] [SolverMonad σ m]
    (source : BundleSource m (Bundle σ)) (g : Manager (Bundle σ)) :
    List Request → m (List (Except RequestError Outcome) × Manager (Bundle σ))
  | [] => return ([], g)
  | r :: rest => do
    let (outcome, g) ← answer source g r
    let (outcomes, g) ← answerAll source g rest
    return (outcome :: outcomes, g)

end Request

end SpectrumPacking
