import SpectrumPacking.Search.Driver

/-!
# Sessions

A session uses a driver from one place: one call is made at a time, and the steps that follow are
taken in a fixed order until nothing is left to do.  A clock goes along, which every step moves on
a little and every moment of search moves on more; the timer of a job runs out when the clock
passes its cutoff.  An engine that searches on forever keeps a session from ever settling.
-/

namespace SpectrumPacking

open Search

/-- A driver with a clock. -/
structure Session (ε : Type) where
  driver : Driver ε
  /-- The time, in nanoseconds. -/
  clock : Nat := 0
  /-- When the time of the job in flight runs out, if that ever happens. -/
  deadline : Option Nat := none

namespace Session

variable {ε : Type}

/-! ## §1 Scheduling -/

/-- The nanoseconds that pass while an engine searches for a moment. -/
def searchMoment : Nat := 100000

/-- The nanoseconds that clocks can count. -/
def clockSpan : Nat := 2 ^ 63 * 10 ^ 9

/-- When a cutoff runs out that begins at a moment.  If clocks cannot show when, it never does. -/
def deadlineOf? (clock : Nat) (cutoff : Duration) : Option Nat :=
  if clock + cutoff.nanos < clockSpan then some (clock + cutoff.nanos) else none

/-- The job whose timer is at work. -/
def timedTicket? (d : Driver ε) : Option Ticket :=
  match d.worker with
  | .search t _ => some t
  | .enterFinish t _ => some t
  | .clearSolving t _ => some t
  | .leaveFinish t _ => some t
  | .announceProcessing t _ => some t
  | .cancel t _ => some t
  | .awaitTimer t _ => some t
  | _ => none

/-- A step of the timer of the job in flight, if it has one to take now. -/
def timerMove? (s : Session ε) : Option (Driver ε) :=
  match timedTicket? s.driver with
  | none => none
  | some t =>
    match s.driver.timerStep t with
    | some d => some d
    | none =>
      match s.deadline with
      | some moment => if moment ≤ s.clock then s.driver.cutoffStep t else none
      | none => none

/-- One step in the fixed order: the callers first, then the timer, then the worker. -/
def advance? [SearchEngine ε] (s : Session ε) : Option (Session ε) :=
  match s.driver.callStep 1 with
  | some d => some { s with driver := d, clock := s.clock + 1 }
  | none =>
    match s.driver.callStep 0 with
    | some d => some { s with driver := d, clock := s.clock + 1 }
    | none =>
      match s.timerMove? with
      | some d => some { s with driver := d, clock := s.clock + 1 }
      | none =>
        match s.driver.workerStep with
        | none => none
        | some d =>
          match s.driver.worker with
          | .search _ _ => some { s with driver := d, clock := s.clock + searchMoment }
          | .arm _ job => some ⟨d, s.clock + 1, deadlineOf? (s.clock + 1) job.cutoff⟩
          | _ => some { s with driver := d, clock := s.clock + 1 }

/-- One step more.  A second call that is held back is made once the worker is in the engine. -/
def next? [SearchEngine ε] (second : Option Request) (s : Session ε) :
    Option (Option Request × Session ε) :=
  match second, s.driver.phase with
  | some r, .solving => (s.driver.begin? 1 r).map fun d => (none, { s with driver := d })
  | _, _ => s.advance?.map fun s => (second, s)

/-- Takes steps until none is left; there is no outcome if that never happens. -/
def settle [SearchEngine ε] (second : Option Request) (s : Session ε) : Option (Session ε) :=
  match s.next? second with
  | none => some s
  | some (second, s) => s |>.settle second
partial_fixpoint

/-! ## §2 Calls -/

/-- The session of a new driver, with the worker waiting for its first problem. -/
def start [SearchEngine ε] (engine : ε) (seed : Nat) (grace : Duration) (clock : Nat) : Session ε :=
  let s : Session ε := { driver := Driver.spawn engine seed grace, clock := clock }
  (s.settle none).getD s

/-- Makes a call, and a second one once the engine is at work. -/
def call? [SearchEngine ε] (s : Session ε) (r : Request) (second : Option Request) :
    Option (Session ε) :=
  match s.driver.begin? 0 r with
  | some d => { s with driver := d }.settle second
  | none => some s

/-- What the last call returned; a call that is held up counts as one of an engine that does not
work any more. -/
def answer (s : Session ε) : Except EngineError Answer :=
  match s.driver.calls 0 with
  | .returned (.answer a) => a
  | _ => .error .workerTerminated

/-- Solves a job.  An engine that never comes to an end gives no answer. -/
def solve [SearchEngine ε] (s : Session ε) (job : Job) (second : Option Request) :
    Except EngineError Answer × Session ε :=
  match s.call? (.solve job) second with
  | some s => (s.answer, s)
  | none => (.error .workerTerminated, s)

/-- Stops the job in flight. -/
def interrupt [SearchEngine ε] (s : Session ε) : Session ε := (s.call? .interrupt none).getD s

/-- Ends the work of the engine. -/
def shutdown [SearchEngine ε] (s : Session ε) : Session ε := (s.call? .shutdown none).getD s

end Session

end SpectrumPacking
