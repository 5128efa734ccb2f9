import SpectrumPacking.Search.Engine
import SpectrumPacking.Solve.Result

/-!
# The Engine Driver

One worker owns a search engine.  Callers hand it problems over one queue and wait for answers on
another; a timer of its own bounds each problem.  Callers, worker and timers run side by side and
share flags, so the driver is given as a state and the smallest steps that each of them can take:
one access to a flag, a lock or a queue at a time.  `Driver.step` says what a step does, and that
it has to wait (`none`); a run is any sequence of steps.

The gate is a lock that the worker holds while it starts or finishes a problem, and that an
interrupt holds while it looks for a problem in flight and stops it.
-/

namespace SpectrumPacking

/-! ## §1 Answers, Requests -/

namespace Search

/-- The classified answer to a job. -/
structure Answer where
  /-- What the answer says. -/
  verdict : Verdict
  /-- The model, for a satisfiable formula. -/
  literals : List Literal
  deriving DecidableEq, Repr, Inhabited

/-- What a caller can ask for. -/
inductive Request where
  /-- Solve a job and wait for its answer. -/
  | solve (job : Job)
  /-- Stop the job in flight. -/
  | interrupt
  /-- End the work of the engine and wait for the end. -/
  | shutdown
  deriving DecidableEq, Repr

/-- What a call returns. -/
inductive Return where
  /-- The answer to a job, or why there is none. -/
  | answer (a : Except EngineError Answer)
  /-- Whether an interrupt met a job in flight. -/
  | interrupted (landed : Bool)
  /-- The engine does not work any more. -/
  | down

/-- The number that a job gets when it is sent. -/
abbrev Ticket := Nat

/-- The number of a caller. -/
abbrev CallerId := Nat

/-! ## §2 Points Between Steps -/

/-- Where a caller stands that looks for a job in flight. -/
inductive InterruptPoint where
  /-- About to take the gate. -/
  | enter
  /-- About to read whether a job is in flight. -/
  | look
  /-- About to record the interrupt. -/
  | record
  /-- About to raise the stop signal. -/
  | raise
  /-- About to leave the gate. -/
  | leave (landed : Bool)
  deriving DecidableEq, Repr

/-- Where a caller stands. -/
inductive CallPoint where
  /-- Outside of all calls. -/
  | outside
  /-- About to take the lock of the answer queue. -/
  | lockAnswers (job : Job)
  /-- About to read whether the worker has ended. -/
  | readTerminated (job : Job)
  /-- About to take the lock of the problem queue. -/
  | lockProblems (job : Job)
  /-- About to send the job. -/
  | send (job : Job)
  /-- About to leave the lock of the problem queue; without a ticket nothing was sent. -/
  | unlockProblems (ticket : Option Ticket)
  /-- About to take the answer off the queue. -/
  | receive (ticket : Ticket)
  /-- About to leave the lock of the answer queue. -/
  | unlockAnswers (ticket : Option Ticket) (result : Except EngineError Answer)
  | interrupting (point : InterruptPoint)
  /-- Shutting down: about to take the sending end of the problem queue. -/
  | takeSender
  /-- Shutting down: about to take the handle of the worker. -/
  | takeHandle (sender : Bool)
  /-- Shutting down: interrupting, with what was taken. -/
  | stopping (point : InterruptPoint) (sender handle : Bool)
  /-- Shutting down: about to say that the worker has to end. -/
  | terminate (sender handle : Bool)
  /-- Shutting down: about to raise the stop signal. -/
  | raiseStop (sender handle : Bool)
  /-- Shutting down: about to close the problem queue. -/
  | closeQueue (sender handle : Bool)
  /-- Shutting down: waiting for the worker to end. -/
  | join
  /-- Back from a call. -/
  | returned (r : Return)

/-- Where a call begins. -/
def Request.entry : Request → CallPoint
  | solve job => .lockAnswers job
  | interrupt => .interrupting .enter
  | shutdown => .takeSender

/-- Where the worker stands. -/
inductive WorkerPoint where
  /-- About to announce that it awaits a problem. -/
  | announceAwaiting
  /-- About to take a problem off the queue. -/
  | receive
  /-- About to read whether it has to end. -/
  | readTerminated (ticket : Ticket) (job : Job)
  /-- About to compare seeds. -/
  | compareSeeds (ticket : Ticket) (job : Job)
  /-- About to record that it ends because of a fault. -/
  | recordFailure (ticket : Ticket) (e : EngineError)
  /-- About to send a fault. -/
  | sendFailure (ticket : Ticket) (e : EngineError)
  /-- About to take the gate for a new problem. -/
  | enterStart (ticket : Ticket) (job : Job)
  /-- About to forget an interrupt. -/
  | clearInterrupted (ticket : Ticket) (job : Job)
  /-- About to forget a cutoff. -/
  | clearTimedOut (ticket : Ticket) (job : Job)
  /-- About to clear the stop signal. -/
  | clearStop (ticket : Ticket) (job : Job)
  /-- About to read again whether it has to end. -/
  | rereadTerminated (ticket : Ticket) (job : Job)
  /-- About to accept the problem. -/
  | accept (ticket : Ticket) (job : Job)
  /-- About to leave the gate with the problem accepted. -/
  | leaveStart (ticket : Ticket) (job : Job)
  /-- About to leave the gate with the problem refused. -/
  | leaveRefused
  /-- About to announce that it solves. -/
  | announceSolving (ticket : Ticket) (job : Job)
  /-- About to arm the timer. -/
  | arm (ticket : Ticket) (job : Job)
  /-- In the engine. -/
  | search (ticket : Ticket) (job : Job)
  /-- About to take the gate for a finished problem. -/
  | enterFinish (ticket : Ticket) (status : Status)
  /-- About to record that no problem is in flight. -/
  | clearSolving (ticket : Ticket) (status : Status)
  /-- About to leave the gate with the problem finished. -/
  | leaveFinish (ticket : Ticket) (status : Status)
  /-- About to announce that it processes an answer. -/
  | announceProcessing (ticket : Ticket) (status : Status)
  /-- About to cancel the timer. -/
  | cancel (ticket : Ticket) (status : Status)
  /-- Waiting for the timer to end. -/
  | awaitTimer (ticket : Ticket) (status : Status)
  /-- About to read whether the time ran out. -/
  | readTimedOut (ticket : Ticket) (status : Status)
  /-- About to read whether it was interrupted. -/
  | readInterrupted (ticket : Ticket) (status : Status)
  /-- About to send an answer. -/
  | publish (ticket : Ticket) (answer : Answer)
  /-- About to read whether it has to end after an answer. -/
  | readGoOn
  /-- About to announce its end. -/
  | announceEnd
  /-- About to take the gate at its end. -/
  | enterEnd
  /-- About to record at its end that no problem is in flight. -/
  | clearEnd
  /-- About to leave the gate at its end. -/
  | leaveEnd
  /-- Gone, with its ends of both queues. -/
  | exited
  deriving DecidableEq, Repr

/-- Where a timer stands. -/
inductive TimerPoint where
  /-- Waiting for the cutoff; its cancellation may have been sent. -/
  | waiting (cancelled : Bool)
  /-- About to record that the time ran out. -/
  | record
  /-- About to raise the stop signal. -/
  | raise
  /-- About to acknowledge its end. -/
  | acknowledge
  /-- Gone. -/
  | done
  deriving DecidableEq, Repr

/-- What the worker announces about itself. -/
inductive Phase where
  /-- Not started. -/
  | idle
  /-- Waiting for a problem. -/
  | awaitingProblem
  /-- In the engine. -/
  | solving
  /-- Between the engine and the answer. -/
  | processingAnswer
  /-- At its end. -/
  | shuttingDown
  deriving DecidableEq, Repr, Inhabited

/-- Who holds a lock. -/
inductive Holder where
  | caller (c : CallerId)
  /-- The worker. -/
  | worker
  deriving DecidableEq, Repr

/-- What happened in a run, for statements about runs. -/
inductive Event where
  /-- A caller started a call. -/
  | called (c : CallerId) (r : Request)
  | sent (c : CallerId) (ticket : Ticket) (job : Job)
  /-- The worker accepted a job. -/
  | accepted (ticket : Ticket)
  /-- The engine came to an end with a job. -/
  | concluded (ticket : Ticket) (status : Status)
  /-- A timer ran out before it was cancelled. -/
  | expired (ticket : Ticket)
  /-- An interrupt met the job in flight. -/
  | landed (c : CallerId)
  /-- The stop signal went up. -/
  | raised
  /-- The worker sent an answer or a fault. -/
  | published (ticket : Ticket) (result : Except EngineError Answer)
  /-- A caller took an answer or a fault off the queue. -/
  | delivered (c : CallerId) (sent answered : Ticket) (result : Except EngineError Answer)
  /-- A caller, or the worker, said that the worker has to end. -/
  | terminated

end Search

open Search

/-! ## §3 States -/

/-- The state of a driver with an engine of type `ε`, its callers and its timers. -/
structure Driver (ε : Type) where
  /-- The seed of the engine. -/
  seed : Nat
  /-- How long the worker waits for a cancelled timer. -/
  grace : Duration
  engine : ε
  /-- What the worker announces about itself. -/
  phase : Phase := .idle
  /-- Whether an interrupt landed on the job in flight. -/
  interrupted : Bool := false
  /-- Whether the time of the job in flight ran out. -/
  timedOut : Bool := false
  /-- Whether a job is in flight. -/
  solving : Bool := false
  /-- Whether the worker has to end. -/
  terminated : Bool := false
  /-- The stop signal. -/
  stop : Bool := false
  /-- Who holds the gate. -/
  gate : Option Holder := none
  /-- Who holds the lock of the answer queue. -/
  answerLock : Option CallerId := none
  /-- Who holds the lock of the problem queue. -/
  problemLock : Option CallerId := none
  /-- Whether the sending end of the problem queue is in its place. -/
  hasSender : Bool := true
  /-- Whether the sending end of the problem queue is gone for good. -/
  isClosed : Bool := false
  /-- Whether the handle of the worker is in its place. -/
  hasHandle : Bool := true
  /-- The problem queue, the oldest first. -/
  problems : List (Ticket × Job) := []
  /-- The answer queue, the oldest first. -/
  answers : List (Ticket × Except EngineError Answer) := []
  /-- Where the worker stands. -/
  worker : WorkerPoint := .announceAwaiting
  /-- Where the timer of each job stands. -/
  timers : Ticket → Option TimerPoint := fun _ => none
  /-- Where each caller stands. -/
  calls : CallerId → CallPoint := fun _ => .outside
  /-- The number of the next job to be sent. -/
  nextTicket : Ticket := 0
  /-- What happened so far, the latest first. -/
  history : List Event := []

namespace Driver

variable {ε : Type}

/-- A driver at its start. -/
def spawn (engine : ε) (seed : Nat) (grace : Duration) : Driver ε where
  seed := seed
  grace := grace
  engine := engine

/-- Moves a caller. -/
def moveCall (d : Driver ε) (c : CallerId) (p : CallPoint) : Driver ε :=
  { d with calls := fun i => if i = c then p else d.calls i }

/-- Moves the worker. -/
def moveWorker (d : Driver ε) (p : WorkerPoint) : Driver ε := { d with worker := p }

/-- Moves a timer. -/
def moveTimer (d : Driver ε) (t : Ticket) (p : TimerPoint) : Driver ε :=
  { d with timers := fun i => if i = t then some p else d.timers i }

/-- Adds to the history. -/
def note (d : Driver ε) (e : Event) : Driver ε := { d with history := e :: d.history }

/-- Raises the stop signal. -/
def raise (d : Driver ε) : Driver ε := { d with stop := true }.note .raised

/-- Says that the worker has to end. -/
def terminate (d : Driver ε) : Driver ε := { d with terminated := true }.note .terminated

/-- Sends an answer or a fault to the callers. -/
def publish (d : Driver ε) (t : Ticket) (r : Except EngineError Answer) : Driver ε :=
  { d with answers := d.answers ++ [(t, r)] }.note (.published t r)

/-- Takes the gate, if it is free. -/
def enterGate? (d : Driver ε) (h : Holder) : Option (Driver ε) :=
  if d.gate.isNone then some { d with gate := some h } else none

/-- Leaves the gate. -/
def leaveGate (d : Driver ε) : Driver ε := { d with gate := none }

/-! ## §4 Steps of Callers -/

/-- The next step of a caller that looks for a job in flight: the state after it, and the point
that the caller comes to. -/
def interruptStep (d : Driver ε) (c : CallerId) :
    InterruptPoint → Option (Driver ε × InterruptPoint)
  | .enter => (d.enterGate? (.caller c)).map fun d => (d, .look)
  | .look => some (d, if d.solving then .record else .leave false)
  | .record => some ({ d with interrupted := true }.note (.landed c), .raise)
  | .raise => some (d.raise, .leave true)
  | .leave landed => some (d.leaveGate, .leave landed)

/-- Starts a call. -/
def begin? (d : Driver ε) (c : CallerId) (r : Request) : Option (Driver ε) :=
  let enter := (d.note (.called c r)).moveCall c r.entry
  match d.calls c with
  | .outside => some enter
  | .returned _ => some enter
  | _ => none

/-- The next step of a caller. -/
def callStep (d : Driver ε) (c : CallerId) : Option (Driver ε) :=
  match d.calls c with
  | .outside => none
  | .returned _ => none
  -- a call for a job
  | .lockAnswers job =>
    if d.answerLock.isNone then
      some ({ d with answerLock := some c }.moveCall c (.readTerminated job))
    else none
  | .readTerminated job =>
    some (d.moveCall c <|
      if d.terminated then .unlockAnswers none (.error .workerTerminated) else .lockProblems job)
  | .lockProblems job =>
    if d.problemLock.isNone then
      some ({ d with problemLock := some c }.moveCall c (.send job))
    else none
  | .send job =>
    if d.hasSender && d.worker != .exited then
      let t := d.nextTicket
      some (({ d with problems := d.problems ++ [(t, job)], nextTicket := t + 1 }.note
        (.sent c t job)).moveCall c (.unlockProblems (some t)))
    else some (d.moveCall c (.unlockProblems none))
  | .unlockProblems ticket =>
    some ({ d with problemLock := none }.moveCall c <|
      match ticket with
      | some t => .receive t
      | none => .unlockAnswers none (.error .workerTerminated))
  | .receive t =>
    match d.answers with
    | (t', r) :: rest =>
      some (({ d with answers := rest }.note (.delivered c t t' r)).moveCall c
        (.unlockAnswers (some t) r))
    | [] =>
      if d.worker = .exited then
        some (d.moveCall c (.unlockAnswers (some t) (.error .workerTerminated)))
      else none
  | .unlockAnswers _ r => some ({ d with answerLock := none }.moveCall c (.returned (.answer r)))
  -- an interrupt
  | .interrupting (.leave landed) =>
    some (d.leaveGate.moveCall c (.returned (.interrupted landed)))
  | .interrupting p => (d.interruptStep c p).map fun (d, q) => d.moveCall c (.interrupting q)
  -- a shutdown
  | .takeSender =>
    if d.problemLock.isNone then
      some ({ d with hasSender := false }.moveCall c (.takeHandle d.hasSender))
    else none
  | .takeHandle sender =>
    some ({ d with hasHandle := false }.moveCall c <|
      if sender || d.hasHandle then .stopping .enter sender d.hasHandle else .returned .down)
  | .stopping (.leave _) sender handle => some (d.leaveGate.moveCall c (.terminate sender handle))
  | .stopping p sender handle =>
    (d.interruptStep c p).map fun (d, q) => d.moveCall c (.stopping q sender handle)
  | .terminate sender handle => some (d.terminate.moveCall c (.raiseStop sender handle))
  | .raiseStop sender handle => some (d.raise.moveCall c (.closeQueue sender handle))
  | .closeQueue sender handle =>
    some ({ d with isClosed := d.isClosed || sender }.moveCall c <|
      if handle then .join else .returned .down)
  | .join => if d.worker = .exited then some (d.moveCall c (.returned .down)) else none

/-! ## §5 Steps of the Worker and of Timers -/

/-- The answer that a status amounts to when neither a cutoff nor an interrupt came in between. -/
def classify : Status → Answer
  | .sat literals => ⟨.sat, literals⟩
  | .unsat => ⟨.unsat, []⟩
  | .unknown => ⟨.crashed, []⟩

/-- The next step of the worker. -/
def workerStep [SearchEngine ε] (d : Driver ε) : Option (Driver ε) :=
  match d.worker with
  -- waiting for a job
  | .announceAwaiting => some ({ d with phase := .awaitingProblem }.moveWorker .receive)
  | .receive =>
    match d.problems with
    | (t, job) :: rest => some ({ d with problems := rest }.moveWorker (.readTerminated t job))
    | [] => if d.isClosed then some (d.moveWorker .announceEnd) else none
  | .readTerminated t job =>
    some (d.moveWorker <| if d.terminated then .announceEnd else .compareSeeds t job)
  | .compareSeeds t job =>
    some (d.moveWorker <|
      if job.seed = d.seed then .enterStart t job
      else .recordFailure t (.seedMismatch d.seed job.seed))
  | .recordFailure t e => some (d.terminate.moveWorker (.sendFailure t e))
  | .sendFailure t e => some ((d.publish t (.error e)).moveWorker .announceEnd)
  -- accepting it under the gate
  | .enterStart t job => (d.enterGate? .worker).map fun d => d.moveWorker (.clearInterrupted t job)
  | .clearInterrupted t job =>
    some ({ d with interrupted := false }.moveWorker (.clearTimedOut t job))
  | .clearTimedOut t job => some ({ d with timedOut := false }.moveWorker (.clearStop t job))
  | .clearStop t job => some ({ d with stop := false }.moveWorker (.rereadTerminated t job))
  | .rereadTerminated t job =>
    some (d.moveWorker <| if d.terminated then .leaveRefused else .accept t job)
  | .accept t job =>
    some (({ d with solving := true }.note (.accepted t)).moveWorker (.leaveStart t job))
  | .leaveStart t job => some (d.leaveGate.moveWorker (.announceSolving t job))
  | .leaveRefused => some (d.leaveGate.moveWorker .announceEnd)
  -- searching
  | .announceSolving t job => some ({ d with phase := .solving }.moveWorker (.arm t job))
  | .arm t job =>
    some ({ d with engine := SearchEngine.start d.engine job }.moveTimer t
      (.waiting false) |>.moveWorker (.search t job))
  | .search t _ =>
    match SearchEngine.poll d.engine d.stop with
    | (e, none) => some { d with engine := e }
    | (e, some status) =>
      some (({ d with engine := e }.note (.concluded t status)).moveWorker (.enterFinish t status))
  | .enterFinish t s => (d.enterGate? .worker).map fun d => d.moveWorker (.clearSolving t s)
  | .clearSolving t s => some ({ d with solving := false }.moveWorker (.leaveFinish t s))
  | .leaveFinish t s => some (d.leaveGate.moveWorker (.announceProcessing t s))
  -- waiting for the timer, and answering
  | .announceProcessing t s =>
    some ({ d with phase := .processingAnswer }.moveWorker (.cancel t s))
  | .cancel t s =>
    some ((match d.timers t with
      | some (.waiting _) => d.moveTimer t (.waiting true)
      | _ => d).moveWorker (.awaitTimer t s))
  | .awaitTimer t s =>
    match d.timers t with
    | some .done => some (d.moveWorker (.readTimedOut t s))
    | _ => none
  | .readTimedOut t s =>
    some (d.moveWorker <| if d.timedOut then .publish t ⟨.timeout, []⟩ else .readInterrupted t s)
  | .readInterrupted t s =>
    some (d.moveWorker <| .publish t (if d.interrupted then ⟨.timeout, []⟩ else classify s))
  | .publish t a => some ((d.publish t (.ok a)).moveWorker .readGoOn)
  | .readGoOn => some (d.moveWorker <| if d.terminated then .announceEnd else .announceAwaiting)
  -- coming to the end
  | .announceEnd => some ({ d with phase := .shuttingDown }.moveWorker .enterEnd)
  | .enterEnd => (d.enterGate? .worker).map fun d => d.moveWorker .clearEnd
  | .clearEnd => some ({ d with solving := false }.moveWorker .leaveEnd)
  | .leaveEnd => some (d.leaveGate.moveWorker .exited)
  | .exited => none

/-- The timer of an accepted job cannot be started, which ends the work. -/
def armFailureStep (d : Driver ε) (reason : String) : Option (Driver ε) :=
  match d.worker with
  | .arm t _ => some (d.moveWorker (.recordFailure t (.spawn reason)))
  | _ => none

/-- The worker gives up waiting for a timer. -/
def graceStep (d : Driver ε) : Option (Driver ε) :=
  match d.worker with
  | .awaitTimer t _ =>
    if d.timers t = some .done then none
    else some (d.moveWorker (.recordFailure t (.timerCancellation d.grace)))
  | _ => none

/-- The cutoff of a job passes while its timer waits for it. -/
def cutoffStep (d : Driver ε) (t : Ticket) : Option (Driver ε) :=
  match d.timers t with
  | some (.waiting false) => some ((d.note (.expired t)).moveTimer t .record)
  | _ => none

/-- The next step of a timer. -/
def timerStep (d : Driver ε) (t : Ticket) : Option (Driver ε) :=
  match d.timers t with
  | some (.waiting true) => some (d.moveTimer t .acknowledge)
  | some .record => some ({ d with timedOut := true }.moveTimer t .raise)
  | some .raise => some (d.raise.moveTimer t .acknowledge)
  | some .acknowledge => some (d.moveTimer t .done)
  | _ => none

/-! ## §6 Runs -/

/-- Who takes the next step. -/
inductive Label where
  /-- A caller starts a call. -/
  | begin (c : CallerId) (r : Request)
  /-- A caller goes on with its call. -/
  | call (c : CallerId)
  /-- The worker goes on. -/
  | worker
  /-- The worker is refused a timer. -/
  | armFailure (reason : String)
  /-- The worker gives up waiting for a timer. -/
  | grace
  /-- A cutoff passes. -/
  | cutoff (t : Ticket)
  /-- A timer goes on. -/
  | timer (t : Ticket)

/-- One step; `none` says that it cannot be taken now. -/
def step [SearchEngine ε] (d : Driver ε) : Label → Option (Driver ε)
  | .begin c r => d.begin? c r
  | .call c => d.callStep c
  | .worker => d.workerStep
  | .armFailure reason => d.armFailureStep reason
  | .grace => d.graceStep
  | .cutoff t => d.cutoffStep t
  | .timer t => d.timerStep t

/-- The states that a run from `d` can reach. -/
inductive Reaches [SearchEngine ε] (d : Driver ε) : Driver ε → Prop where
  /-- The start of a run. -/
  | start : Reaches d d
  /-- One step more. -/
  | next {e f : Driver ε} (l : Label) : Reaches d e → e.step l = some f → Reaches d f

end Driver

end SpectrumPacking
