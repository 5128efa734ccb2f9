import SpectrumPacking.Duration
import SpectrumPacking.Formula.Cnf

/-!
# Search Engines

A search engine works on one job at a time.  It is asked again and again whether it has come to an
end, and learns each time whether it has to stop; an engine that gives up says so by the status
`unknown`.
-/

namespace SpectrumPacking

universe u v

/-! ## §1 Jobs, Answers, Faults -/

/-- One unit of work for an engine. -/
structure Search.Job where
  /-- The formula to search. -/
  formula : Cnf
  /-- How long the search may take. -/
  cutoff : Duration
  /-- The seed that the engine has to be configured with. -/
  seed : Nat
  deriving DecidableEq, Repr, Inhabited

/-- What an engine itself concludes about a formula. -/
inductive Status where
  /-- The formula has a model, given as signed variables. -/
  | sat (literals : List Literal)
  /-- The formula has no model. -/
  | unsat
  /-- The engine gave up. -/
  | unknown
  deriving DecidableEq, Repr, Inhabited

/-- Why an engine gives no answer at all; each of these ends its work. -/
inductive EngineError where
  /-- The engine cannot be built. -/
  | configuration (reason : String)
  /-- A problem carries another seed than the engine. -/
  | seedMismatch (configured requested : Nat)
  /-- A timer did not acknowledge its cancellation in time. -/
  | timerCancellation (grace : Duration)
  /-- The engine does not work any more. -/
  | workerTerminated
  /-- A thread of the engine cannot be started. -/
  | spawn (reason : String)
  deriving DecidableEq, Repr, Inhabited

/-- The wording of a fault. -/
def EngineError.message : EngineError → String
  | configuration reason => "invalid engine configuration: " ++ reason
  | seedMismatch configured requested =>
    s!"problem seed {requested} does not match the engine seed {configured}"
  | timerCancellation grace => "cutoff timer did not stop within " ++ grace.text
  | workerTerminated => "engine worker has terminated"
  | spawn reason => "failed to spawn engine thread: " ++ reason

/-! ## §2 The Interface -/

/-- An engine with states of type `ε`. -/
class SearchEngine (ε : Type u) where
  /-- Turns to a job. -/
  start : ε → Search.Job → ε
  /-- Works on for a moment, told whether the stop signal is up; the status comes at the end. -/
  poll : ε → Bool → ε × Option Status

/-- Asks an engine at most `fuel` times under one state of the stop signal. -/
def pollUntil {ε : Type u} [SearchEngine ε] (stop : Bool) : Nat → ε → Status × ε
  | 0, e => (.unknown, e)
  | fuel + 1, e =>
    match SearchEngine.poll e stop with
    | (e', some status) => (status, e')
    | (e', none) => pollUntil stop fuel e'

/-- How often an engine is asked before it counts as given up. -/
def pollLimit : Nat := 4000000

/-- The status of an engine on a job, and the engine afterwards. -/
def conclude {ε : Type u} [SearchEngine ε] (stop : Bool) (e : ε) (job : Search.Job) : Status × ε :=
  pollUntil stop pollLimit (SearchEngine.start e job)

/-! ## §3 The Loop over Problems -/

/-- What a loop over problems of type `π` has done. -/
structure LoopOutcome (ε : Type u) (π : Type v) where
  /-- The statuses that were reported, in order. -/
  statuses : List Status
  /-- The problems that were not taken. -/
  left : List π
  /-- The engine afterwards. -/
  engine : ε

/-- Takes problems from the front and reports a status for each, until a report is refused or no
problem is left.  A report that the list of acceptances does not mention is accepted. -/
def runLoop {ε : Type u} {π : Type v} (solve : ε → π → Status × ε) :
    ε → List π → List Bool → LoopOutcome ε π
  | e, [], _ => ⟨[], [], e⟩
  | e, p :: rest, accepts =>
    let (status, e') := solve e p
    if accepts.headD true then
      let o := runLoop solve e' rest accepts.tail
      { o with statuses := status :: o.statuses }
    else ⟨[status], rest, e'⟩

end SpectrumPacking
