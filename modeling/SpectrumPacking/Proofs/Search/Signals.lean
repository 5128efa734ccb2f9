import SpectrumPacking.Proofs.Search.Delivery

/-!
# The Signals Behind a Driver

Besides its queues a driver has flags, a gate and timers, by which callers and timers stop the work
on a job.  The signals are what remains of a driver when queues and engine are forgotten: how far
the worker is with the job in flight, who is at the gate, the flags, the timers, and what happened.
Every step of a driver is a step of its signals or leaves them alone (`Driver.signals_step`).
-/

namespace SpectrumPacking

open Search

namespace Search

/-! ## §1 The Job in Flight -/

/-- How far the worker is with the job in flight. -/
inductive Flight where
  /-- No job is in flight. -/
  | idle
  /-- The gate is taken for a job. -/
  | entered (ticket : Ticket)
  /-- The last interrupt is forgotten. -/
  | uninterrupted (ticket : Ticket)
  /-- The last cutoff is forgotten, too. -/
  | unhurried (ticket : Ticket)
  /-- The stop signal is down, too. -/
  | cleared (ticket : Ticket)
  /-- The worker does not have to end. -/
  | admitted (ticket : Ticket)
  /-- The job is accepted and has no timer yet. -/
  | opened (ticket : Ticket)
  /-- The job is in the engine. -/
  | searching (ticket : Ticket)
  /-- The engine is done with the job. -/
  | concluded (ticket : Ticket) (status : Status)
  /-- No interrupt can land on the job any more. -/
  | closed (ticket : Ticket) (status : Status)
  /-- The timer of the job is gone, too. -/
  | settled (ticket : Ticket) (status : Status)
  /-- The time of the job has not run out. -/
  | unexpired (ticket : Ticket) (status : Status)
  /-- The answer to the job is about to be sent. -/
  | answering (ticket : Ticket) (answer : Answer)
  /-- A fault comes instead of an answer. -/
  | failing (ticket : Ticket) (e : EngineError)
  /-- The worker is at its end. -/
  | ended

namespace Flight

/-- The job that the worker is about to accept, with the gate in its hand. -/
def coming? : Flight → Option Ticket
  | entered t | uninterrupted t | unhurried t | cleared t | admitted t => some t
  | _ => none

/-- The job that was accepted and has no answer yet. -/
def accepted? : Flight → Option Ticket
  | opened t | searching t | concluded t _ | closed t _ => some t
  | settled t _ | unexpired t _ | answering t _ => some t
  | _ => none

/-- The job whose timer may still be at work. -/
def timed? : Flight → Option Ticket
  | searching t | concluded t _ | closed t _ => some t
  | _ => none

/-- The job whose timer has come to its end. -/
def untimed? : Flight → Option Ticket
  | settled t _ | unexpired t _ | answering t _ => some t
  | _ => none

/-- The status with which the engine ended its search for the job. -/
def status? : Flight → Option (Ticket × Status)
  | concluded t s | closed t s | settled t s | unexpired t s => some (t, s)
  | _ => none

/-- Whether an interrupt can land on the job. -/
def isOpen : Flight → Bool
  | opened _ | searching _ | concluded _ _ => true
  | _ => false

/-- Whether the worker takes no further job, or is about to. -/
def isLast : Flight → Bool
  | failing _ _ | ended => true
  | _ => false

/-- Whether the stop signal cannot go down any more before the engine is done. -/
def isBound : Flight → Bool
  | admitted _ | opened _ | searching _ => true
  | _ => false

end Flight

/-- How far the worker is with the job in flight at a point. -/
def WorkerPoint.flight : WorkerPoint → Flight
  | announceAwaiting | receive | readGoOn => .idle
  | readTerminated _ _ | compareSeeds _ _ | enterStart _ _ => .idle
  | clearInterrupted t _ => .entered t
  | clearTimedOut t _ => .uninterrupted t
  | clearStop t _ => .unhurried t
  | rereadTerminated t _ => .cleared t
  | accept t _ => .admitted t
  | leaveStart t _ | announceSolving t _ | arm t _ => .opened t
  | search t _ => .searching t
  | enterFinish t s | clearSolving t s => .concluded t s
  | leaveFinish t s | announceProcessing t s | cancel t s | awaitTimer t s => .closed t s
  | readTimedOut t s => .settled t s
  | readInterrupted t s => .unexpired t s
  | publish t a => .answering t a
  | recordFailure t e | sendFailure t e => .failing t e
  | leaveRefused | announceEnd | enterEnd | clearEnd | leaveEnd | exited => .ended

/-- Whether the worker has the gate at a point. -/
def WorkerPoint.inGate : WorkerPoint → Bool
  | clearInterrupted _ _ | clearTimedOut _ _ | clearStop _ _ | rereadTerminated _ _ => true
  | accept _ _ | leaveStart _ _ | leaveRefused | clearSolving _ _ | leaveFinish _ _ => true
  | clearEnd | leaveEnd => true
  | _ => false

/-! ## §2 Callers at the Signals -/

/-- What a caller has to do with the signals. -/
inductive Grip where
  /-- Nothing. -/
  | away
  /-- It has the gate, and looks for a job in flight. -/
  | looking
  /-- It has the gate and has seen a job in flight. -/
  | recording
  /-- It has the gate and has recorded its interrupt. -/
  | raising
  /-- It is about to leave the gate. -/
  | leaving (landed : Bool)
  /-- It has said that the worker has to end, and is about to raise the stop signal. -/
  | ending

/-- Whether a caller has the gate. -/
def Grip.inGate : Grip → Bool
  | looking | recording | raising | leaving _ => true
  | _ => false

/-- Whether a caller has found a job in flight, and the stop signal is not up for it yet. -/
def Grip.isLanding : Grip → Bool
  | recording | raising => true
  | _ => false

/-- What a caller that looks for a job in flight has to do with the signals. -/
def InterruptPoint.grip : InterruptPoint → Grip
  | enter => .away
  | look => .looking
  | record => .recording
  | raise => .raising
  | leave landed => .leaving landed

/-- What a caller has to do with the signals at a point. -/
def CallPoint.grip : CallPoint → Grip
  | interrupting p | stopping p _ _ => p.grip
  | raiseStop _ _ => .ending
  | _ => .away

/-- Whether an event concerns the queues and not the signals. -/
def Event.isForQueues : Event → Bool
  | called _ _ | sent _ _ _ | delivered _ _ _ _ => true
  | _ => false

/-! ## §3 Signals -/

/-- The signals of a driver, and who is at them. -/
structure Signals where
  /-- How long the worker waits for a cancelled timer. -/
  grace : Duration
  /-- How far the worker is. -/
  flight : Flight
  /-- Whether the worker has the gate. -/
  inside : Bool
  /-- What each caller has to do with the signals. -/
  grip : CallerId → Grip
  /-- Who holds the gate. -/
  gate : Option Holder
  /-- Whether an interrupt landed on the job in flight. -/
  interrupted : Bool
  /-- Whether the time of the job in flight ran out. -/
  timedOut : Bool
  /-- Whether a job is in flight. -/
  solving : Bool
  /-- Whether the worker has to end. -/
  terminated : Bool
  /-- The stop signal. -/
  stop : Bool
  /-- Where the timer of each job stands. -/
  timers : Ticket → Option TimerPoint
  /-- What happened so far, the latest first. -/
  log : List Event

namespace Signals

/-- Changes what a caller has to do with the signals. -/
abbrev hold (x : Signals) (c : CallerId) (g : Grip) : Signals :=
  { x with grip := fun i => if i = c then g else x.grip i }

theorem hold_self {x : Signals} {c : CallerId} {g : Grip} (h : x.grip c = g) : x.hold c g = x := by
  have hgrip : (fun i => if i = c then g else x.grip i) = x.grip := by
    funext i
    split
    · rename_i hi
      rw [hi, h]
    · rfl
  rw [Signals.hold, hgrip]

/-- Moves the worker on. -/
abbrev fly (x : Signals) (f : Flight) : Signals := { x with flight := f }

/-- Moves a timer. -/
abbrev set (x : Signals) (t : Ticket) (p : TimerPoint) : Signals :=
  { x with timers := fun i => if i = t then some p else x.timers i }

/-- Adds to the log. -/
abbrev note (x : Signals) (e : Event) : Signals := { x with log := e :: x.log }

/-- Raises the stop signal. -/
abbrev raise (x : Signals) : Signals := { x with stop := true }.note .raised

/-- Says that the worker has to end. -/
abbrev terminate (x : Signals) : Signals := { x with terminated := true }.note .terminated

/-- The worker takes the gate. -/
abbrev goIn (x : Signals) : Signals := { x with gate := some .worker, inside := true }

/-- The worker leaves the gate. -/
abbrev goOut (x : Signals) : Signals := { x with gate := none, inside := false }

/-- What one step does to the signals. -/
inductive Step (x : Signals) : Signals → Prop
  /-- Nothing happens at the signals. -/
  | quiet : Step x x
  /-- Something happens at the queues. -/
  | aside {e : Event} (h : e.isForQueues = true)
      (hcall : ∀ c r, e = .called c r → x.grip c = .away) : Step x (x.note e)
  /-- A caller takes the gate to interrupt. -/
  | enter {c : CallerId} (h : x.grip c = .away) (hgate : x.gate = none) :
      Step x ({ x with gate := some (.caller c) }.hold c .looking)
  /-- It finds a job in flight. -/
  | see {c : CallerId} (h : x.grip c = .looking) (hsolving : x.solving = true) :
      Step x (x.hold c .recording)
  /-- It finds none. -/
  | miss {c : CallerId} (h : x.grip c = .looking) (hsolving : x.solving = false) :
      Step x (x.hold c (.leaving false))
  /-- It marks the job in flight as interrupted. -/
  | land {c : CallerId} (h : x.grip c = .recording) :
      Step x (({ x with interrupted := true }.note (.landed c)).hold c .raising)
  /-- It raises the stop signal. -/
  | raise {c : CallerId} (h : x.grip c = .raising) : Step x (x.raise.hold c (.leaving true))
  /-- It gives the gate back. -/
  | leave {c : CallerId} {landed : Bool} (h : x.grip c = .leaving landed) :
      Step x ({ x with gate := none }.hold c .away)
  /-- A caller says that the worker has to end. -/
  | terminate {c : CallerId} (h : x.grip c = .away) : Step x (x.terminate.hold c .ending)
  /-- It raises the stop signal, whether or not a job is in flight. -/
  | quell {c : CallerId} (h : x.grip c = .ending) : Step x (x.raise.hold c .away)
  /-- The worker takes the gate to accept a job that is new. -/
  | begin {t : Ticket} (h : x.flight = .idle) (hgate : x.gate = none) (hnew : .accepted t ∉ x.log) :
      Step x (x.goIn.fly (.entered t))
  /-- It forgets the last interrupt. -/
  | forgetInterrupt {t : Ticket} (h : x.flight = .entered t) :
      Step x ({ x with interrupted := false }.fly (.uninterrupted t))
  /-- It forgets the last cutoff. -/
  | forgetCutoff {t : Ticket} (h : x.flight = .uninterrupted t) :
      Step x ({ x with timedOut := false }.fly (.unhurried t))
  /-- It lowers the stop signal. -/
  | lower {t : Ticket} (h : x.flight = .unhurried t) :
      Step x ({ x with stop := false }.fly (.cleared t))
  /-- It finds that it has to end. -/
  | refuse {t : Ticket} (h : x.flight = .cleared t) (hterm : x.terminated = true) :
      Step x (x.fly .ended)
  /-- It finds that it has not. -/
  | pass {t : Ticket} (h : x.flight = .cleared t) (hterm : x.terminated = false) :
      Step x (x.fly (.admitted t))
  /-- It accepts the job, which is in flight from now on. -/
  | accept {t : Ticket} (h : x.flight = .admitted t) :
      Step x (({ x with solving := true }.note (.accepted t)).fly (.opened t))
  /-- It starts a timer for the job. -/
  | arm {t : Ticket} (h : x.flight = .opened t) :
      Step x ((x.set t (.waiting false)).fly (.searching t))
  /-- The engine comes to an end with the job. -/
  | conclude {t : Ticket} {s : Status} (h : x.flight = .searching t) :
      Step x ((x.note (.concluded t s)).fly (.concluded t s))
  /-- The worker takes the job out of flight, at the gate. -/
  | close {t : Ticket} {s : Status} (h : x.flight = .concluded t s) (hinside : x.inside = true) :
      Step x ({ x with solving := false }.fly (.closed t s))
  /-- It cancels the timer, which may have been cancelled before. -/
  | cancel {t : Ticket} {s : Status} {b : Bool} (h : x.flight = .closed t s)
      (htimer : x.timers t = some (.waiting b)) : Step x (x.set t (.waiting true))
  /-- It sees that the timer is at its end. -/
  | settle {t : Ticket} {s : Status} (h : x.flight = .closed t s)
      (htimer : x.timers t = some .done) : Step x (x.fly (.settled t s))
  /-- The time ran out, which makes the answer TIMEOUT. -/
  | expire {t : Ticket} {s : Status} (h : x.flight = .settled t s) (hout : x.timedOut = true) :
      Step x (x.fly (.answering t ⟨.timeout, []⟩))
  /-- The time did not run out. -/
  | spare {t : Ticket} {s : Status} (h : x.flight = .settled t s) (hout : x.timedOut = false) :
      Step x (x.fly (.unexpired t s))
  /-- An interrupt makes the answer TIMEOUT; otherwise the status makes it. -/
  | answer {t : Ticket} {s : Status} (h : x.flight = .unexpired t s) :
      Step x (x.fly (.answering t (if x.interrupted then ⟨.timeout, []⟩ else Driver.classify s)))
  /-- The worker sends the answer. -/
  | publish {t : Ticket} {a : Answer} (h : x.flight = .answering t a) :
      Step x ((x.note (.published t (.ok a))).fly .idle)
  /-- The worker takes the gate, with no job to accept. -/
  | goIn (hgate : x.gate = none) (h : x.flight.coming? = none) : Step x x.goIn
  /-- It gives the gate back. -/
  | goOut (hinside : x.inside = true) (h : x.flight.coming? = none) : Step x x.goOut
  /-- It fails with a job that it has not accepted. -/
  | mismatch {t : Ticket} {e : EngineError} (h : x.flight = .idle) (hnew : .accepted t ∉ x.log) :
      Step x (x.fly (.failing t e))
  /-- It fails since no timer can be started. -/
  | unarmed {t : Ticket} {reason : String} (h : x.flight = .opened t) :
      Step x (x.fly (.failing t (.spawn reason)))
  /-- It fails since the timer is not at its end in time. -/
  | giveUp {t : Ticket} {s : Status} (h : x.flight = .closed t s) :
      Step x (x.fly (.failing t (.timerCancellation x.grace)))
  /-- A worker that failed says that it has to end. -/
  | record {t : Ticket} {e : EngineError} (h : x.flight = .failing t e) : Step x x.terminate
  /-- It sends the fault. -/
  | publishFailure {t : Ticket} {e : EngineError} (h : x.flight = .failing t e) :
      Step x ((x.note (.published t (.error e))).fly .ended)
  /-- The worker has no job in hand, and comes to its end. -/
  | stop (h : x.flight = .idle) : Step x (x.fly .ended)
  /-- At its end it takes what was in flight out of flight. -/
  | clearEnd (h : x.flight = .ended) (hinside : x.inside = true) :
      Step x { x with solving := false }
  /-- The time of a job runs out before its timer is cancelled. -/
  | cutoff {t : Ticket} (h : x.timers t = some (.waiting false)) :
      Step x ((x.note (.expired t)).set t .record)
  /-- A timer finds itself cancelled. -/
  | obey {t : Ticket} (h : x.timers t = some (.waiting true)) : Step x (x.set t .acknowledge)
  /-- A timer marks the time of the job in flight as run out. -/
  | hurry {t : Ticket} (h : x.timers t = some .record) :
      Step x ({ x with timedOut := true }.set t .raise)
  /-- It raises the stop signal. -/
  | alarm {t : Ticket} (h : x.timers t = some .raise) : Step x (x.raise.set t .acknowledge)
  /-- A timer comes to its end. -/
  | acknowledge {t : Ticket} (h : x.timers t = some .acknowledge) : Step x (x.set t .done)

/-- An interrupt lands by a step of its caller. -/
theorem Step.grip_of_landed {x y : Signals} {c : CallerId} (h : x.Step y)
    (hlog : y.log = .landed c :: x.log) : x.grip c = .recording ∧ y.grip c = .raising := by
  cases h with
  | land h =>
    cases hlog
    exact ⟨h, if_pos rfl⟩
  | aside h _ =>
    cases hlog
    cases h
  | _ => first | cases hlog | exact absurd hlog List.ne_cons_self

end Signals

end Search

/-! ## §4 The Signals of a Driver -/

namespace Driver

variable {ε : Type}

/-- The signals behind a driver. -/
def signals (d : Driver ε) : Signals where
  grace := d.grace
  flight := d.worker.flight
  inside := d.worker.inGate
  grip c := (d.calls c).grip
  gate := d.gate
  interrupted := d.interrupted
  timedOut := d.timedOut
  solving := d.solving
  terminated := d.terminated
  stop := d.stop
  timers := d.timers
  log := d.history

variable {d d' : Driver ε}

theorem signals_grip {c : CallerId} : d.signals.grip c = (d.calls c).grip := rfl

theorem signals_grip_of_eq {c : CallerId} {p : CallPoint} (hc : d.calls c = p) :
    d.signals.grip c = p.grip := by rw [signals_grip, hc]

theorem signals_moveCall {c : CallerId} {p : CallPoint} :
    (d.moveCall c p).signals = d.signals.hold c p.grip := by
  simp only [signals, moveCall, Signals.hold, Signals.mk.injEq, and_true, true_and]
  funext i
  split <;> rfl

/-- A caller that moves without a change of its grip leaves the signals alone. -/
theorem signals_moveCall_of_grip_eq {c : CallerId} {p : CallPoint}
    (h : p.grip = (d.calls c).grip) : (d.moveCall c p).signals = d.signals := by
  rw [signals_moveCall]
  exact Signals.hold_self h.symm

/-! ## §5 Steps of Callers -/

theorem signalsStep_of_eq (h : d'.signals = d.signals) : d.signals.Step d'.signals := by
  rw [h]
  exact .quiet

/-- A job that the worker has taken and not accepted was never accepted. -/
theorem not_accepted_of_taken [SearchEngine ε] {e₀ : ε} (hd : d.exchange.Sound e₀) {t : Ticket}
    {job : Job} (ht : d.worker.hand = .taken t job) : .accepted t ∉ d.history := by
  intro haccepted
  rcases hd.ledger.accepted t haccepted with ⟨r, hr⟩ | howed
  · refine hd.ledger.unanswered t (Or.inl ?_) r hr
    rw [exchange_hand, ht]
    rfl
  · rw [exchange_hand, ht] at howed
    cases howed

theorem signals_begin {c : CallerId} {r : Request} (h : d.begin? c r = some d') :
    d.signals.Step d'.signals := by
  have hentry : r.entry.grip = .away := by cases r <;> rfl
  -- a call starts away from the signals
  have hstep : (d.calls c).grip = .away →
      d.signals.Step ((d.note (.called c r)).moveCall c r.entry).signals := by
    intro hc
    rw [signals_moveCall_of_grip_eq (by rw [hentry]; exact hc.symm)]
    refine .aside rfl ?_
    rintro c r ⟨⟩
    exact hc
  unfold begin? at h
  split at h
  · rename_i hc
    cases h
    exact hstep (by rw [hc]; rfl)
  · rename_i hc
    cases h
    exact hstep (by rw [hc]; rfl)
  · cases h

/-- A step of a caller that looks for a job in flight, up to the point where it leaves the gate. -/
theorem signals_interruptStep {c : CallerId} {p q : InterruptPoint} {r : CallPoint}
    (h : d.interruptStep c p = some (d', q)) (hp : ∀ landed, p ≠ .leave landed)
    (hc : d.signals.grip c = p.grip) (hr : r.grip = q.grip) :
    d.signals.Step (d'.moveCall c r).signals := by
  rw [signals_moveCall, hr]
  cases p with
  -- each point has its own step of the signals
  | enter =>
    obtain ⟨e, he, heq⟩ := Option.map_eq_some_iff.1 h
    obtain ⟨hgate, rfl⟩ := enterGate?_eq_some.1 he
    cases heq
    exact .enter hc hgate
  | look =>
    simp only [interruptStep] at h
    cases h
    split
    · rename_i hsolving
      exact .see hc hsolving
    · rename_i hsolving
      exact .miss hc (Bool.eq_false_iff.2 hsolving)
  | record =>
    cases h
    exact .land hc
  | raise =>
    cases h
    exact .raise hc
  | leave landed => exact absurd rfl (hp landed)

/-- A step of a call for a job does not touch the signals. -/
theorem signals_callStep_of_isSolve {c : CallerId} (hsolve : (d.calls c).isSolve = true)
    (h : d.callStep c = some d') : d.signals.Step d'.signals := by
  cases hc : d.calls c with
  | lockAnswers job | lockProblems job =>
    simp only [callStep, hc] at h
    split at h
    · cases h
      exact signalsStep_of_eq (signals_moveCall_of_grip_eq (by rw [hc]; rfl))
    · cases h
  | readTerminated job =>
    simp only [callStep, hc] at h
    cases h
    refine signalsStep_of_eq (signals_moveCall_of_grip_eq ?_)
    rw [hc]
    split <;> rfl
  | send job =>
    simp only [callStep, hc] at h
    split at h
    · cases h
      rw [signals_moveCall_of_grip_eq (by rw [note, hc]; rfl)]
      -- what is sent is recorded in the log
      exact .aside rfl (by rintro _ _ ⟨⟩)
    · cases h
      exact signalsStep_of_eq (signals_moveCall_of_grip_eq (by rw [hc]; rfl))
  | unlockProblems ticket =>
    simp only [callStep, hc] at h
    cases h
    refine signalsStep_of_eq (signals_moveCall_of_grip_eq ?_)
    rw [hc]
    cases ticket <;> rfl
  | receive t =>
    simp only [callStep, hc] at h
    split at h
    · cases h
      rw [signals_moveCall_of_grip_eq (by rw [note, hc]; rfl)]
      exact .aside rfl (by rintro _ _ ⟨⟩)
    · split at h
      · cases h
        exact signalsStep_of_eq (signals_moveCall_of_grip_eq (by rw [hc]; rfl))
      · cases h
  | unlockAnswers ticket r =>
    simp only [callStep, hc] at h
    cases h
    exact signalsStep_of_eq (signals_moveCall_of_grip_eq (by rw [hc]; rfl))
  | _ =>
    rw [hc] at hsolve
    cases hsolve

/-- A step of a shutdown that does not interrupt. -/
theorem signals_callStep_of_isShutdown {c : CallerId} (hdown : (d.calls c).isShutdown = true)
    (h : d.callStep c = some d') : d.signals.Step d'.signals := by
  cases hc : d.calls c with
  | takeSender | join =>
    simp only [callStep, hc] at h
    split at h
    · cases h
      exact signalsStep_of_eq (signals_moveCall_of_grip_eq (by rw [hc]; rfl))
    · cases h
  | takeHandle sender =>
    simp only [callStep, hc] at h
    cases h
    refine signalsStep_of_eq (signals_moveCall_of_grip_eq ?_)
    rw [hc]
    split <;> rfl
  -- of a shutdown the signals see two steps
  | terminate sender handle =>
    simp only [callStep, hc] at h
    cases h
    rw [signals_moveCall]
    exact .terminate (signals_grip_of_eq hc)
  | raiseStop sender handle =>
    simp only [callStep, hc] at h
    cases h
    rw [signals_moveCall]
    exact .quell (signals_grip_of_eq hc)
  | closeQueue sender handle =>
    simp only [callStep, hc] at h
    cases h
    refine signalsStep_of_eq (signals_moveCall_of_grip_eq ?_)
    rw [hc]
    cases handle <;> rfl
  | _ =>
    rw [hc] at hdown
    cases hdown

theorem signals_callStep {c : CallerId} (h : d.callStep c = some d') :
    d.signals.Step d'.signals := by
  cases hc : d.calls c with
  | outside | returned =>
    simp only [callStep, hc] at h
    cases h
  | lockAnswers | readTerminated | lockProblems | send | unlockProblems | receive
  | unlockAnswers => exact signals_callStep_of_isSolve (by rw [hc]; rfl) h
  | interrupting p | stopping p sender handle =>
    unfold callStep at h
    rw [hc] at h
    cases p with
    | leave landed =>
      cases h
      rw [signals_moveCall]
      exact .leave (signals_grip_of_eq hc)
    -- within the gate, an interrupt and a shutdown do the same
    | enter | look | record | raise =>
      obtain ⟨⟨e, q⟩, he, rfl⟩ := Option.map_eq_some_iff.1 h
      exact signals_interruptStep he (by rintro _ ⟨⟩) (signals_grip_of_eq hc) rfl
  | takeSender | takeHandle | terminate | raiseStop | closeQueue | join =>
    exact signals_callStep_of_isShutdown (by rw [hc]; rfl) h

/-! ## §6 Steps of the Worker -/

/-- The worker takes a job off the queue, and accepts it under the gate. -/
theorem signals_workerStep_of_starting [SearchEngine ε] {e₀ : ε} (hd : d.exchange.Sound e₀)
    (hw : d.worker.stage = .starting) (h : d.workerStep = some d') :
    d.signals.Step d'.signals := by
  cases hp : d.worker <;> rw [hp] at hw <;> cases hw <;> obtain ⟨d, rfl⟩ := exists_moveWorker hp
  case announceAwaiting =>
    cases h
    exact .quiet
  case receive =>
    simp only [workerStep, moveWorker] at h
    split at h
    · cases h
      exact .quiet
    · obtain ⟨-, h⟩ := Option.ite_none_right_eq_some.1 h
      cases h
      exact .stop rfl
  case readTerminated t job =>
    cases h
    split
    · exact .stop rfl
    · exact .quiet
  case compareSeeds t job =>
    cases h
    split
    · exact .quiet
    · exact .mismatch rfl (not_accepted_of_taken hd rfl)
  -- from here on the worker has the gate
  case enterStart t job =>
    obtain ⟨e, he, rfl⟩ := Option.map_eq_some_iff.1 h
    obtain ⟨hgate, rfl⟩ := enterGate?_eq_some.1 he
    exact .begin rfl hgate (not_accepted_of_taken hd rfl)
  case clearInterrupted t job =>
    cases h
    exact .forgetInterrupt rfl
  case clearTimedOut t job =>
    cases h
    exact .forgetCutoff rfl
  case clearStop t job =>
    cases h
    exact .lower rfl
  case rereadTerminated t job =>
    cases h
    split
    · rename_i hterm
      exact .refuse rfl hterm
    · rename_i hterm
      exact .pass rfl (Bool.eq_false_iff.2 hterm)
  case accept t job =>
    cases h
    exact .accept rfl
  case leaveStart t job =>
    cases h
    exact .goOut rfl rfl

/-- The worker has the engine search, and closes the job under the gate. -/
theorem signals_workerStep_of_searching [SearchEngine ε] (hw : d.worker.stage = .searching)
    (h : d.workerStep = some d') : d.signals.Step d'.signals := by
  cases hp : d.worker <;> rw [hp] at hw <;> cases hw <;> obtain ⟨d, rfl⟩ := exists_moveWorker hp
  case announceSolving t job =>
    cases h
    exact .quiet
  case arm t job =>
    cases h
    exact .arm rfl
  -- the search shows only at its end
  case search t job =>
    simp only [workerStep, moveWorker] at h
    split at h
    · cases h
      exact .quiet
    · cases h
      exact .conclude rfl
  case enterFinish t s =>
    obtain ⟨e, he, rfl⟩ := Option.map_eq_some_iff.1 h
    obtain ⟨hgate, rfl⟩ := enterGate?_eq_some.1 he
    exact .goIn hgate rfl
  case clearSolving t s =>
    cases h
    exact .close rfl rfl
  case leaveFinish t s =>
    cases h
    exact .goOut rfl rfl

/-- The worker waits for the timer to end, and answers. -/
theorem signals_workerStep_of_answering [SearchEngine ε] (hw : d.worker.stage = .answering)
    (h : d.workerStep = some d') : d.signals.Step d'.signals := by
  cases hp : d.worker <;> rw [hp] at hw <;> cases hw <;> obtain ⟨d, rfl⟩ := exists_moveWorker hp
  case announceProcessing t s =>
    cases h
    exact .quiet
  case cancel t s =>
    cases h
    split
    · rename_i htimer
      exact .cancel rfl htimer
    · exact .quiet
  case awaitTimer t s =>
    simp only [workerStep, moveWorker] at h
    split at h
    · rename_i htimer
      cases h
      exact .settle rfl htimer
    · cases h
  -- the time that ran out is looked at first, and the interrupt second
  case readTimedOut t s =>
    cases h
    split
    · rename_i hout
      exact .expire rfl hout
    · rename_i hout
      exact .spare rfl (Bool.eq_false_iff.2 hout)
  case readInterrupted t s =>
    cases h
    exact .answer rfl
  case publish t a =>
    cases h
    exact .publish rfl
  case readGoOn =>
    cases h
    split
    · exact .stop rfl
    · exact .quiet

/-- The worker sends a fault, or comes to its end. -/
theorem signals_workerStep_of_ending [SearchEngine ε] (hw : d.worker.stage = .ending)
    (h : d.workerStep = some d') : d.signals.Step d'.signals := by
  cases hp : d.worker <;> rw [hp] at hw <;> cases hw <;> obtain ⟨d, rfl⟩ := exists_moveWorker hp
  -- the worker records by itself that it has to end
  case recordFailure t e =>
    cases h
    exact .record rfl
  case sendFailure t e =>
    cases h
    exact .publishFailure rfl
  case leaveRefused | leaveEnd =>
    cases h
    exact .goOut rfl rfl
  case announceEnd =>
    cases h
    exact .quiet
  case enterEnd =>
    obtain ⟨e, he, rfl⟩ := Option.map_eq_some_iff.1 h
    obtain ⟨hgate, rfl⟩ := enterGate?_eq_some.1 he
    exact .goIn hgate rfl
  case clearEnd =>
    cases h
    exact .clearEnd rfl rfl
  case exited => cases h

theorem signals_workerStep [SearchEngine ε] {e₀ : ε} (hd : d.exchange.Sound e₀)
    (h : d.workerStep = some d') : d.signals.Step d'.signals := by
  cases hw : d.worker.stage with
  | starting => exact signals_workerStep_of_starting hd hw h
  | searching => exact signals_workerStep_of_searching hw h
  | answering => exact signals_workerStep_of_answering hw h
  | ending => exact signals_workerStep_of_ending hw h

/-! ## §7 All Steps -/

theorem signals_timerStep {t : Ticket} (h : d.timerStep t = some d') :
    d.signals.Step d'.signals := by
  unfold timerStep at h
  split at h
  · rename_i htimer
    cases h
    exact .obey htimer
  · rename_i htimer
    cases h
    exact .hurry htimer
  · rename_i htimer
    cases h
    exact .alarm htimer
  · rename_i htimer
    cases h
    exact .acknowledge htimer
  · cases h

/-- Every step of a driver that a run has come to is a step of its signals. -/
theorem signals_step [SearchEngine ε] {e₀ : ε} (hd : d.exchange.Sound e₀) {l : Label}
    (h : d.step l = some d') : d.signals.Step d'.signals := by
  cases l with
  | begin c r => exact signals_begin h
  | call c => exact signals_callStep h
  | worker => exact signals_workerStep hd h
  -- the two ways in which the worker gives up on a job
  | armFailure reason =>
    simp only [step, armFailureStep] at h
    split at h
    · rename_i hw
      obtain ⟨d, rfl⟩ := exists_moveWorker hw
      cases h
      exact .unarmed rfl
    · cases h
  | grace =>
    simp only [step, graceStep] at h
    split at h
    · rename_i hw
      split at h
      · cases h
      · obtain ⟨d, rfl⟩ := exists_moveWorker hw
        cases h
        exact .giveUp rfl
    · cases h
  | cutoff t =>
    simp only [step, cutoffStep] at h
    split at h
    · rename_i htimer
      cases h
      exact .cutoff htimer
    · cases h
  | timer t => exact signals_timerStep h

end Driver

end SpectrumPacking
