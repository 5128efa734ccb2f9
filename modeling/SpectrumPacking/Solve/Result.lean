import SpectrumPacking.Duration
import SpectrumPacking.Packing.Problem

/-!
# Verdicts and Results

What a solver reports: a verdict, the time it took, the packing it found, and what proved the
verdict when that was no search.  `SolveResult.combine` merges the results of attempts that were
made one after another.  Times add up exactly; a result is marked when a sum behind its time is
longer than what clocks keep, and `SolveResult.kept` refuses such a result.
-/

namespace SpectrumPacking

/-! ## §1 Verdicts -/

/-- What an answer says about a problem. -/
inductive Verdict where
  /-- There is a packing. -/
  | sat
  /-- There is no packing. -/
  | unsat
  /-- The time ran out, or the search was stopped. -/
  | timeout
  /-- The search failed. -/
  | crashed
  deriving DecidableEq, Repr, Inhabited

/-- The name of a verdict. -/
def Verdict.name : Verdict → String
  | sat => "SAT"
  | unsat => "UNSAT"
  | timeout => "TIMEOUT"
  | crashed => "CRASHED"

/-- Whether a verdict settles a problem. -/
def Verdict.isConclusive : Verdict → Bool
  | sat => true
  | unsat => true
  | _ => false

/-- The verdict with a name. -/
def Verdict.ofName? (name : String) : Option Verdict :=
  [Verdict.sat, .unsat, .timeout, .crashed].find? fun v => v.name == name

/-! ## §2 Faults of Clocks -/

/-- A sum of durations that cannot be kept. -/
inductive TimeError where
  /-- A list of durations has no sum. -/
  | sum
  /-- Two durations have no sum. -/
  | addition
  deriving DecidableEq, Repr

/-- The wording of a fault. -/
def TimeError.message : TimeError → String
  | sum => "overflow in iter::sum over durations"
  | addition => "overflow when adding durations"

/-! ## §3 Results -/

/-- The report of a solver. -/
structure SolveResult where
  verdict : Verdict
  /-- The time that it took. -/
  runtime : Duration
  /-- The packing; only a satisfiable problem has one. -/
  assignment : Assignment
  /-- What proved the verdict when no search did. -/
  justification : Option String
  /-- The first sum of durations behind the time that clocks cannot keep. -/
  overflow : Option TimeError := none
  deriving DecidableEq

namespace SolveResult

/-- A verdict without packing and justification. -/
def bare (verdict : Verdict) (runtime : Duration) : SolveResult where
  verdict := verdict
  runtime := runtime
  assignment := SortedMap.empty
  justification := none

/-- A packing was found. -/
def sat (a : Assignment) (runtime : Duration) : SolveResult :=
  { bare .sat runtime with assignment := a }

/-- There is no packing. -/
def unsat (runtime : Duration) : SolveResult := bare .unsat runtime

/-- Nothing was settled in the time given. -/
def timeout (runtime : Duration) : SolveResult := bare .timeout runtime

/-- The search failed. -/
def crashed (runtime : Duration) : SolveResult := bare .crashed runtime

instance : Inhabited SolveResult := ⟨timeout .zero⟩

/-- Whether the problem is settled. -/
def isConclusive (r : SolveResult) : Bool := r.verdict.isConclusive

/-- Marks a result with a fault, unless it is marked with another one that came first. -/
def mark (r : SolveResult) (e : Option TimeError) : SolveResult :=
  { r with overflow := r.overflow <|> e }

/-- The result, if clocks can keep all sums behind its time. -/
def kept (r : SolveResult) : Except TimeError SolveResult :=
  match r.overflow with
  | none => .ok r
  | some e => .error e

/-- The fault of a sum that comes to `d`, if clocks cannot keep it. -/
def tooLong? (e : TimeError) (d : Duration) : Option TimeError :=
  if d ≤ .greatest then none else some e

/-- Charges more time to a result. -/
def addTime (r : SolveResult) (d : Duration) : SolveResult :=
  { r with runtime := r.runtime + d }.mark (tooLong? .addition (r.runtime + d))

/-- The time that a list of attempts took together. -/
def totalTime (l : List SolveResult) : Duration :=
  l.foldl (fun d r => d + r.runtime) .zero

/-- The last attempt that settled the problem, if there is one. -/
def lastConclusive? (l : List SolveResult) : Option SolveResult := l.reverse.find? isConclusive

/-- The first fault among the times of attempts, or that of their sum. -/
def totalOverflow? (l : List SolveResult) : Option TimeError :=
  l.findSome? overflow <|> tooLong? .sum (totalTime l)

/-- The result of attempts made one after another: the last one that settled the problem counts,
and every attempt is charged for. -/
def combine (l : List SolveResult) : SolveResult :=
  match lastConclusive? l with
  | some r => { r with runtime := totalTime l, overflow := totalOverflow? l }
  | none => { timeout (totalTime l) with overflow := totalOverflow? l }

/-- The result in words. -/
def summary (r : SolveResult) : String :=
  r.verdict.name ++ " in " ++ String.ofList (Decimal.threePlaces r.runtime.toBinary64) ++ "s" ++
    (match r.justification with
      | some why => " (" ++ why ++ ")"
      | none => "") ++
    if r.verdict = .sat then s!", {r.assignment.placement.size} stations packed" else ""

theorem kept_eq_ok {r : SolveResult} (h : r.overflow = none) : r.kept = .ok r := by
  simp [kept, h]

end SolveResult

end SpectrumPacking
