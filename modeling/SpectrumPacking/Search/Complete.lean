import Std.Data.HashMap
import SpectrumPacking.Search.Engine

/-!
# Search by Learning

A complete search that learns a clause from every conflict.  Literals are made true one after
another on a trail: by decision, which opens a level, or because a clause leaves no other choice.
When all literals of a clause are false, the clauses behind them are resolved down to one literal of
the level of the conflict; the clause found that way holds of the formula, and it sends the search
back to the level where it leaves one choice.

Every clause is watched by its first two literals: as long as neither is false, or one is true, it
cannot force anything.

The engine that answers problems decides every formula in this way, unless it is stopped, and keeps
statistics of its last search.
-/

namespace SpectrumPacking

/-! ## §1 Literals and Their Values -/

namespace Learning

/-- A literal of a search: the variable numbered `i` has the literals `2 * i`, which is true with
it, and `2 * i + 1`, which is true without it. -/
abbrev Code := Nat

/-- The number of the variable of a literal. -/
def Code.index (p : Code) : Nat := p / 2

/-- The opposite literal. -/
def Code.negate (p : Code) : Code := if p % 2 = 0 then p + 1 else p - 1

/-- What is known about a literal. -/
inductive Value where
  /-- It is neither true nor false so far. -/
  | undecided
  /-- It is true. -/
  | holds
  /-- It is false. -/
  | fails
  deriving DecidableEq, Repr, Inhabited

end Learning

open Learning

/-- The state of a search. -/
structure Learning where
  /-- The declared number of variables of the formula. -/
  numVariables : Nat := 0
  /-- The number of each variable that occurs. -/
  indices : Std.HashMap Nat Nat := {}
  /-- The clauses of more than one literal; the first two literals of each are its watchers. -/
  clauses : Array (Array Code) := #[]
  /-- How many levels each clause spanned when it was learned, and 0 for a clause of the
  formula. -/
  spans : Array Nat := #[]
  /-- The numbers of the clauses that each literal watches. -/
  watches : Array (Array Nat) := #[]
  /-- The value of each literal. -/
  values : Array Value := #[]
  /-- The level at which each variable got its value. -/
  levels : Array Nat := #[]
  /-- The clause that left no choice for each variable, if it was not decided. -/
  reasons : Array (Option Nat) := #[]
  /-- The literal of each variable that was true last. -/
  phases : Array Code := #[]
  /-- How much each variable took part in the latest conflicts. -/
  scores : Array Nat := #[]
  /-- The true literals, in the order in which they became true. -/
  trail : Array Code := #[]
  /-- The length of the trail at each decision. -/
  decisions : Array Nat := #[]
  /-- How much of the trail has been brought to its consequences. -/
  head : Nat := 0
  /-- Whether the formula is known to have no model. -/
  isRefuted : Bool := false
  /-- The number of conflicts. -/
  conflicts : Nat := 0
  /-- What a part in the next conflict adds to a score. -/
  worth : Nat := 2 ^ 16
  /-- The place in the sequence of restarts. -/
  restart : Nat × Nat := (1, 1)
  /-- The number of conflicts at which the search starts over. -/
  restartAt : Nat := 64
  /-- How many clauses are kept at most when the search starts over. -/
  capacity : Nat := 0
  deriving Inhabited

namespace Learning

/-- The value of a literal. -/
def value (s : Learning) (p : Code) : Value := s.values.getD p .undecided

/-- The number of decisions on the trail. -/
def level (s : Learning) : Nat := s.decisions.size

/-- The literals of a clause. -/
def clause (s : Learning) (i : Nat) : Array Code := s.clauses.getD i #[]

/-- Makes a literal true, for the sake of a clause or by decision. -/
def assign (s : Learning) (p : Code) (reason : Option Nat) : Learning :=
  { s with
    values := (s.values.setIfInBounds p .holds).setIfInBounds p.negate .fails
    levels := s.levels.setIfInBounds p.index s.decisions.size
    reasons := s.reasons.setIfInBounds p.index reason
    trail := s.trail.push p }

/-- Takes the last literals back from the trail. -/
def unassign : Nat → Learning → Learning
  | 0, s => s
  | n + 1, s =>
    match s.trail.back? with
    | none => s
    | some p => unassign n { s with
        values := (s.values.setIfInBounds p .undecided).setIfInBounds p.negate .undecided
        phases := s.phases.setIfInBounds p.index p
        trail := s.trail.pop }

/-- Goes back to a level. -/
def backtrack (s : Learning) (level : Nat) : Learning :=
  match s.decisions[level]? with
  | none => s
  | some size =>
    let s := unassign (s.trail.size - size) s
    { s with decisions := s.decisions.take level, head := size }

/-! ## §2 Clauses -/

/-- Takes up a clause whose literals have no value or are false at once; a clause without a choice
is dealt with instead. -/
def addClause (s : Learning) (span : Nat) (clause : Array Code) : Learning :=
  match clause[0]?, clause[1]? with
  | none, _ => { s with isRefuted := true }
  | some p, none =>
    match s.value p with
    | .holds => s
    | .fails => { s with isRefuted := true }
    | .undecided => s.assign p none
  | some p, some q =>
    let i := s.clauses.size
    { s with
      clauses := s.clauses.push clause
      spans := s.spans.push span
      watches := (s.watches.modify p (·.push i)).modify q (·.push i) }

/-- Takes up clauses in place of the present ones. -/
def installClauses (s : Learning) (l : List (Nat × Array Code)) : Learning :=
  l.foldl (fun s (span, c) => s.addClause span c)
    { s with clauses := #[], spans := #[], watches := .replicate s.values.size #[] }

/-- A clause without repetitions; none for a clause that holds anyway. -/
def normalClause? (c : List Code) : Option (Array Code) :=
  c.foldl (fun r p => r.bind fun c =>
    if c.contains p.negate then none else some (if c.contains p then c else c.push p)) (some #[])

/-- The search in front of its first step. -/
def ofFormula (f : Cnf) : Learning :=
  let indices := f.clauses.foldl (fun m c => c.foldl (fun (m : Std.HashMap Nat Nat) x =>
    if m.contains x.natAbs then m else m.insert x.natAbs m.size) m) (∅ : Std.HashMap Nat Nat)
  let n := indices.size
  let code (x : Literal) : Code := 2 * indices.getD x.natAbs 0 + if 0 < x then 0 else 1
  let s : Learning := {
    numVariables := f.numVariables
    indices := indices
    values := .replicate (2 * n) .undecided
    levels := .replicate n 0
    reasons := .replicate n none
    phases := (Array.range n).map (2 * ·)
    scores := .replicate n 0
    capacity := f.clauses.length + 2000 }
  s.installClauses (f.clauses.filterMap fun c => (normalClause? (c.map code)).map ((0, ·)))

/-- The model of a search in which every variable has a value: each declared variable with its
sign, and false if it does not occur. -/
def model (s : Learning) : List Literal :=
  (List.range s.numVariables).map fun (i : Nat) =>
    let x : Literal := (i + 1 : Nat)
    match s.indices[i + 1]? with
    | none => -x
    | some j => if s.value (2 * j) = .holds then x else -x

/-! ## §3 Consequences -/

/-- Goes through the clauses `visited` that a false literal `p` watched, from the `k`-th one on:
each gets another watcher, or makes its other watcher true, or is in conflict.  The clauses that
`p` goes on watching are `kept`. -/
def visit (p : Code) (visited : Array Nat) (k : Nat) (kept : Array Nat) (s : Learning) :
    Learning × Option Nat :=
  if h : k < visited.size then
    let i := visited[k]
    let c := s.clause i
    let first := c.getD 0 0
    let other := if first = p then c.getD 1 0 else first
    -- a clause with a true watcher is satisfied
    match s.value other with
    | .holds => visit p visited (k + 1) (kept.push i) s
    | v =>
      -- another literal that is not false takes the place of `p`
      match c.findIdx? fun q => q != p && q != other && s.value q != .fails with
      | some j =>
        let q := c.getD j 0
        visit p visited (k + 1) kept { s with
          clauses := s.clauses.modify i fun c =>
            ((c.setIfInBounds j p).setIfInBounds 0 other).setIfInBounds 1 q
          watches := s.watches.modify q (·.push i) }
      | none =>
        let kept := kept.push i
        -- no other literal is left, so the clause forces `other` or is in conflict
        if v = .fails then
          let kept := kept ++ visited.extract (k + 1) visited.size
          ({ s with watches := s.watches.setIfInBounds p kept }, some i)
        else visit p visited (k + 1) kept (s.assign other (some i))
  else ({ s with watches := s.watches.setIfInBounds p kept }, none)
termination_by visited.size - k

/-- Brings the trail to its consequences, as far as `fuel` literals; the clause in conflict, if
there is one. -/
def propagate : Nat → Learning → Learning × Option Nat
  | 0, s => (s, none)
  | fuel + 1, s =>
    match s.trail[s.head]? with
    | none => (s, none)
    | some q =>
      let p := q.negate
      let visited := s.watches.getD p #[]
      let s := { s with watches := s.watches.setIfInBounds p #[], head := s.head + 1 }
      match visit p visited 0 #[] s with
      | (s, some i) => (s, some i)
      | (s, none) => propagate fuel s

/-! ## §4 Conflicts -/

/-- How far a conflict has been resolved. -/
structure Resolution where
  /-- The variables met so far. -/
  isMet : Array Bool
  /-- The variables met so far, as a list. -/
  met : List Nat := []
  /-- How many literals of the level of the conflict are left. -/
  pending : Nat := 0
  /-- The literals of lower levels. -/
  lower : List Code := []

/-- Adds the literals of a clause; those of level 0 are false for good. -/
def Resolution.gather (s : Learning) (r : Resolution) (c : Array Code) : Resolution :=
  c.foldl (fun r p =>
    let v := p.index
    let level := s.levels.getD v 0
    if level = 0 || r.isMet.getD v true then r
    else
      let isMet := r.isMet.setIfInBounds v true
      if level = s.level then
        { r with isMet := isMet, met := v :: r.met, pending := r.pending + 1 }
      else { r with isMet := isMet, met := v :: r.met, lower := p :: r.lower }) r

/-- Walks back over the first `n` literals of the trail and resolves with the clause behind each
one met, until one literal of the level is left. -/
def Resolution.resolve (s : Learning) : Nat → Resolution → Resolution × Code
  | 0, r => (r, 0)
  | n + 1, r =>
    let p := s.trail.getD n 0
    if !r.isMet.getD p.index false then resolve s n r
    else if r.pending = 1 then (r, p)
    else
      let c := (s.reasons.getD p.index none).elim #[] s.clause
      resolve s n (gather s { r with pending := r.pending - 1 } c)

/-- Whether a literal of a learned clause follows from the others by the clause behind it. -/
def Resolution.isRedundant (s : Learning) (r : Resolution) (p : Code) : Bool :=
  match s.reasons.getD p.index none with
  | none => false
  | some i => (s.clause i).all fun q =>
    s.levels.getD q.index 0 = 0 || r.isMet.getD q.index false

/-- Counts a conflict, and raises the scores of the variables that took part in it.  A part in the
next one is worth a twentieth more; once it is worth a lot, all is counted in larger units. -/
def raiseScores (s : Learning) (met : List Nat) : Learning :=
  let scores := met.foldl (fun a v => a.modify v (· + s.worth)) s.scores
  let worth := s.worth + s.worth / 20
  if worth < 2 ^ 55 then { s with conflicts := s.conflicts + 1, scores, worth }
  else { s with
    conflicts := s.conflicts + 1
    scores := scores.map (· / 2 ^ 39)
    worth := worth / 2 ^ 39 }

/-- Learns from the clause in conflict: goes back to the level where the learned clause leaves one
choice and takes it. -/
def learn (s : Learning) (conflict : Nat) : Learning :=
  let r : Resolution := { isMet := .replicate s.levels.size false }
  let (r, p) := (r.gather s (s.clause conflict)).resolve s s.trail.size
  let p := p.negate
  let lower := r.lower.filter fun q => !r.isRedundant s q
  let levels := lower.map fun q => s.levels.getD q.index 0
  let target := levels.foldl max 0
  let (latest, rest) := lower.partition fun q => s.levels.getD q.index 0 = target
  let c := (p :: latest ++ rest).toArray
  let s := (s.backtrack target).raiseScores r.met
  if lower.isEmpty then s.addClause 0 c
  else
    let i := s.clauses.size
    (s.addClause (levels.eraseDups.length + 1) c).assign p (some i)

/-! ## §5 Starting Over -/

/-- The next place in the sequence 1, 1, 2, 1, 1, 2, 4, 1, …, whose terms are the second
components. -/
def nextRestart : Nat × Nat → Nat × Nat
  | (u, v) => if u % (2 * v) = v then (u + 1, 1) else (u, 2 * v)

/-- A clause as it is left at level 0: none if it holds, and without its false literals. -/
def remains? (s : Learning) (c : Array Code) : Option (Array Code) :=
  if c.any fun p => s.value p = .holds then none
  else some (c.filter fun p => s.value p != .fails)

/-- Forgets learned clauses, if there are too many of them: those that spanned more levels go
first. -/
def forget (s : Learning) : Learning :=
  if s.clauses.size ≤ s.capacity then s
  else
    let left := (s.spans.zip s.clauses).toList.filterMap fun (span, c) =>
      (s.remains? c).map ((span, ·))
    let (short, long) := left.partition fun (span, _) => span ≤ 2
    let long := (long.mergeSort fun a b => a.1 ≤ b.1).take (long.length / 2)
    { s.installClauses (short ++ long) with capacity := s.capacity + 500 }

/-- Goes back to level 0, and forgets some of what was learned. -/
def startOver (s : Learning) : Learning :=
  let next := nextRestart s.restart
  { (s.backtrack 0).forget with restart := next, restartAt := s.conflicts + 64 * next.2 }

/-! ## §6 Steps -/

/-- The variable without a value that took part most in the latest conflicts. -/
def candidate? (s : Learning) : Option Nat :=
  let best := s.scores.foldl (fun ((i, best) : Nat × Nat × Nat) x =>
    (i + 1, if best.2 ≤ x && s.value (2 * i) = .undecided then (i, x + 1) else best))
    (0, s.scores.size, 0)
  if best.2.2 = 0 then none else some best.2.1

/-- Whether every variable up to the greatest one that occurs has a value. -/
def isComplete (s : Learning) : Bool :=
  s.trail.size = s.indices.size && s.indices.all fun v _ => v ≤ s.indices.size

/-- Takes up to `fuel` steps, each of which ends with a conflict, a decision or a model. -/
def run : Nat → Learning → Learning × Option Status
  | 0, s => (s, none)
  | fuel + 1, s =>
    if s.isRefuted then (s, some .unsat)
    else
      match s.propagate (s.levels.size + 1) with
      | (s, some i) =>
        if s.level = 0 then ({ s with isRefuted := true }, some .unsat) else run fuel (s.learn i)
      | (s, none) =>
        if s.restartAt ≤ s.conflicts && 0 < s.level then run fuel s.startOver
        else
          match s.candidate? with
          | none => (s, some (.sat s.model))
          | some v =>
            let p := s.phases.getD v 0
            run fuel ({ s with decisions := s.decisions.push s.trail.size }.assign p none)

/-- Brings the trail to its consequences and stops there: what they settle is known, and else
nothing. -/
def halt (s : Learning) : Status :=
  if s.isRefuted then .unsat
  else
    match s.propagate (s.levels.size + 1) with
    | (s, some _) => if s.level = 0 then .unsat else .unknown
    | (s, none) => if s.isComplete then .sat s.model else .unknown

/-- How many steps a search takes before it looks at the stop signal. -/
def stepsPerPoll : Nat := 50

/-- Some steps under a stop signal. -/
def poll (s : Learning) (stop : Bool) : Learning × Option Status :=
  if stop then (s, some s.halt) else s.run stepsPerPoll

end Learning

/-! ## §7 Statistics -/

/-- What is known about the last search of an engine. -/
structure SearchStatistics where
  /-- The declared number of variables. -/
  «variables» : Nat
  /-- The number of clauses. -/
  clauses : Nat
  /-- How the search ended. -/
  status : Status

namespace SearchStatistics

/-- The name of an end. -/
def outcome (s : SearchStatistics) : String :=
  match s.status with
  | .sat _ => "Satisfiable"
  | .unsat => "Unsatisfiable"
  | .unknown => "Interrupted"

/-- The statistics in words, without the time. -/
def summary (s : SearchStatistics) : String :=
  s!"CaDiCaL: {s.variables} variables, {s.clauses} clauses, {s.outcome}"

end SearchStatistics

/-! ## §8 The Engine -/

/-- A complete engine with the name of its configuration. -/
structure CompleteEngine where
  /-- The name of the configuration. -/
  config : String
  /-- The formula and the search under way. -/
  current : Cnf × Learning
  /-- The statistics of the last search, if there was one. -/
  statistics : Option SearchStatistics

namespace CompleteEngine

/-- The names of the configurations that can be asked for. -/
def configurations : List String := ["default", "plain", "sat", "unsat"]

/-- The name of the configuration that is used unless another is asked for. -/
def defaultConfig : String := "default"

/-- The engine with a configuration, before any search. -/
def ofConfig (config : String) : CompleteEngine := ⟨config, default, none⟩

/-- The engine with a configuration that has to be a known one. -/
def ofConfig? (config : String) : Except EngineError CompleteEngine :=
  if configurations.contains config then .ok (ofConfig config)
  else .error (.configuration ("unknown CaDiCaL configuration '" ++ config ++ "'"))

instance : SearchEngine CompleteEngine where
  start e job := { e with current := (job.formula, .ofFormula job.formula) }
  poll
    | ⟨config, (f, s), statistics⟩, stop =>
      match s.poll stop with
      | (s, none) => (⟨config, (f, s), statistics⟩, none)
      | (s, some status) =>
        (⟨config, (f, s), some ⟨f.numVariables, f.numClauses, status⟩⟩, some status)

end CompleteEngine

end SpectrumPacking
