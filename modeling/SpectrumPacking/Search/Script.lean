import SpectrumPacking.Search.Complete

/-!
# Small and Scripted Engines

A complete engine for small formulas keeps a stack of branches, each with the literals made true and
the clauses that are left to satisfy.  Unit clauses come first; otherwise the smallest variable that
is left is split on, and true is tried before false, so the model found is the first one in the
order in which true comes before false and small variables weigh more.

A scripted engine answers formula after formula from a list, whatever the formulas say.  It serves
to try out what stands around an engine.
-/

namespace SpectrumPacking

/-! ## §1 Branches -/

/-- A part of the search space. -/
structure Branch where
  /-- The literals made true, the latest first. -/
  trail : List Literal
  /-- The clauses left to satisfy, without literals that are false. -/
  rest : List Clause
  deriving Inhabited

namespace Branch

/-- The clauses left after a literal is made true. -/
def reduce (x : Literal) (l : List Clause) : List Clause :=
  l.filterMap fun c =>
    if c.contains x then none
    else if c.contains (-x) then some (c.filter (· != -x)) else some c

/-- The branch with one more literal made true. -/
def assign (b : Branch) (x : Literal) : Branch := ⟨x :: b.trail, reduce x b.rest⟩

/-- A literal that stands alone in a clause. -/
def unit? (l : List Clause) : Option Literal :=
  l.findSome? fun c =>
    match c with
    | [x] => some x
    | _ => none

/-- The smallest variable of some clauses. -/
def smallest? (l : List Clause) : Option Nat :=
  l.foldl (fun m c => c.foldl (fun m x =>
    match m with
    | none => some x.natAbs
    | some n => some (if x.natAbs < n then x.natAbs else n)) m) none

/-- The model of a branch with nothing left to satisfy: every variable up to `n` with its sign,
and true if it is free. -/
def model (n : Nat) (b : Branch) : List Literal :=
  (List.range n).map fun (i : Nat) =>
    let v : Literal := (i + 1 : Nat)
    if b.trail.contains (-v) then -v else v

end Branch

/-! ## §2 Steps -/

/-- How far a search is. -/
inductive Splitting where
  /-- Branches are left to look at. -/
  | running (numVariables : Nat) (stack : List Branch)
  /-- The search is over. -/
  | finished (status : Status)
  deriving Inhabited

namespace Splitting

/-- The clauses of a formula over its declared variables: any other variable is false. -/
def declaredClauses (f : Cnf) : List Clause :=
  (f.clauses.filter fun c => !c.any fun x => x = 0 ∨ (x < 0 ∧ f.numVariables < x.natAbs)).map
    fun c => c.filter fun x => x.natAbs ≤ f.numVariables

/-- The search in front of its first step. -/
def ofFormula (f : Cnf) : Splitting := .running f.numVariables [⟨[], declaredClauses f⟩]

/-- Makes the literal of a unit clause true, splits a branch, drops it or ends the search. -/
def step : Splitting → Splitting
  | finished status => finished status
  | running _ [] => finished .unsat
  | running n (b :: stack) =>
    if b.rest.any List.isEmpty then running n stack
    else
      match Branch.unit? b.rest with
      | some x => running n (b.assign x :: stack)
      | none =>
        match Branch.smallest? b.rest with
        | none => finished (.sat (b.model n))
        | some v =>
          running n (b.assign (v : Int) :: b.assign (-(v : Int)) :: stack)

end Splitting

/-! ## §3 The Splitting Engine -/

/-- The stop signal does not matter to a search by splitting, which always comes to an end. -/
instance : SearchEngine Splitting where
  start _ job := .ofFormula job.formula
  poll s _ :=
    match s.step with
    | .finished status => (.finished status, some status)
    | next => (next, none)

/-! ## §4 Scripted Engines -/

/-- A scripted answer. -/
inductive Reply where
  /-- Answers at once. -/
  | status (s : Status)
  /-- Waits until the stop signal is up and then gives another answer. -/
  | spin (r : Reply)
  deriving Inhabited

/-- The status that a reply ends with. -/
def Reply.final : Reply → Status
  | status s => s
  | spin r => r.final

/-- An engine with a list of answers; when the list is used up it gives up on every formula. -/
structure ScriptedEngine where
  /-- The answers for the formulas to come. -/
  replies : List Reply
  /-- The answer for the formula under way. -/
  current : Reply

namespace ScriptedEngine

/-- The engine in front of its first formula. -/
def ofReplies (l : List Reply) : ScriptedEngine := ⟨l, .status .unknown⟩

instance : SearchEngine ScriptedEngine where
  start e _ :=
    match e.replies with
    | [] => ⟨[], .status .unknown⟩
    | r :: rest => ⟨rest, r⟩
  poll e stop :=
    match e.current with
    | .status s => (e, some s)
    | .spin r => if stop then (e, some r.final) else (e, none)

end ScriptedEngine

/-- An engine of any kind. -/
inductive Engine where
  | complete (e : CompleteEngine)
  /-- An engine that finds the first model. -/
  | splitting (e : Splitting)
  | scripted (e : ScriptedEngine)

instance : SearchEngine Engine where
  start
    | .complete e, job => .complete (SearchEngine.start e job)
    | .splitting e, job => .splitting (SearchEngine.start e job)
    | .scripted e, job => .scripted (SearchEngine.start e job)
  poll
    | .complete e, stop => (SearchEngine.poll e stop).map .complete id
    | .splitting e, stop => (SearchEngine.poll e stop).map .splitting id
    | .scripted e, stop => (SearchEngine.poll e stop).map .scripted id

end SpectrumPacking
