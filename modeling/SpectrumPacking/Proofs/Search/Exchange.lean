import SpectrumPacking.Search.Driver

/-!
# The Exchange Behind a Driver

Most steps of a driver only move somebody from one flag or lock to the next.  The exchange is what
remains when those are forgotten: the two queues, what the worker has in hand, and how far each
caller is with its call.  Every step of a driver is a step of its exchange or leaves it alone
(`Driver.exchange_step`).
-/

namespace SpectrumPacking

open Search

/-! ## §1 Searches of an Engine -/

section Searches

variable {ε : Type} [SearchEngine ε]

/-- An engine that began as `e₀` has come to a state, perhaps with a job under way. -/
inductive RunsFrom (e₀ : ε) : Option Job → ε → Prop
  | built : RunsFrom e₀ none e₀
  | start {e : ε} {o : Option Job} (job : Job) :
      RunsFrom e₀ o e → RunsFrom e₀ (some job) (SearchEngine.start e job)
  | poll {e e' : ε} {job : Job} {stop : Bool} :
      RunsFrom e₀ (some job) e → SearchEngine.poll e stop = (e', none) → RunsFrom e₀ (some job) e'
  | finish {e e' : ε} {job : Job} {stop : Bool} {status : Status} :
      RunsFrom e₀ (some job) e → SearchEngine.poll e stop = (e', some status) →
        RunsFrom e₀ none e'

/-- An engine that began as `e₀` can end its search for a job with a status. -/
def Concludes (e₀ : ε) (job : Job) (status : Status) : Prop :=
  ∃ (e e' : ε) (stop : Bool),
    RunsFrom e₀ (some job) e ∧ SearchEngine.poll e stop = (e', some status)

end Searches

namespace Search

/-! ## §2 Worker and Callers -/

/-- What the worker has in hand. -/
inductive Hand where
  /-- Nothing; the worker goes on. -/
  | free
  /-- Nothing; the worker is at its end. -/
  | ending
  /-- Nothing; the worker is gone. -/
  | gone
  /-- A job off the queue. -/
  | taken (ticket : Ticket) (job : Job)
  /-- An accepted job. -/
  | inFlight (ticket : Ticket) (job : Job)
  /-- A job in the engine. -/
  | searching (ticket : Ticket) (job : Job)
  /-- A job that the engine is done with. -/
  | finished (ticket : Ticket) (status : Status)
  /-- An answer to be sent. -/
  | answering (ticket : Ticket) (answer : Answer)
  /-- A fault, not recorded yet. -/
  | failing (ticket : Ticket) (e : EngineError)
  /-- A recorded fault to be sent. -/
  | failed (ticket : Ticket) (e : EngineError)

namespace Hand

/-- The ticket in hand. -/
def ticket? : Hand → Option Ticket
  | free | ending | gone => none
  | taken t _ | inFlight t _ | searching t _ => some t
  | finished t _ | answering t _ | failing t _ | failed t _ => some t

/-- The ticket in hand that an answer or a fault is still owed to. -/
def owed? : Hand → Option Ticket
  | free | ending | gone | taken _ _ => none
  | inFlight t _ | searching t _ => some t
  | finished t _ | answering t _ | failing t _ | failed t _ => some t

theorem ticket?_of_owed? {h : Hand} {t : Ticket} (ht : h.owed? = some t) : h.ticket? = some t := by
  cases h <;> first | exact ht | cases ht

/-- Whether the worker takes no further job. -/
def isOver : Hand → Bool
  | ending | gone | failed _ _ => true
  | _ => false

end Hand

/-- What the worker has in hand at a point. -/
def WorkerPoint.hand : WorkerPoint → Hand
  | announceAwaiting | receive | readGoOn => .free
  | readTerminated t job | compareSeeds t job | enterStart t job => .taken t job
  | clearInterrupted t job | clearTimedOut t job | clearStop t job => .taken t job
  | rereadTerminated t job | accept t job => .taken t job
  | leaveStart t job | announceSolving t job | arm t job => .inFlight t job
  | search t job => .searching t job
  | enterFinish t s | clearSolving t s | leaveFinish t s | announceProcessing t s => .finished t s
  | cancel t s | awaitTimer t s | readTimedOut t s | readInterrupted t s => .finished t s
  | publish t a => .answering t a
  | recordFailure t e => .failing t e
  | sendFailure t e => .failed t e
  | leaveRefused | announceEnd | enterEnd | clearEnd | leaveEnd => .ending
  | exited => .gone

/-- How far a caller is with a job. -/
inductive Role where
  /-- It has none. -/
  | away
  /-- It has said that the worker has to end, and may close the problem queue. -/
  | closing
  /-- It waits for its turn. -/
  | asking (job : Job)
  /-- It has its turn. -/
  | holding (job : Job)
  /-- It has found the worker at work. -/
  | sending (job : Job)
  /-- It waits for the answer to the job it sent. -/
  | waiting (ticket : Ticket)
  /-- It ends its turn, having sent a job or not, with a result. -/
  | leaving (ticket : Option Ticket) (result : Except EngineError Answer)
  /-- It has returned a result. -/
  | back (result : Except EngineError Answer)

/-- Whether it is the turn of a caller. -/
def Role.hasTurn : Role → Bool
  | .holding _ | .sending _ | .waiting _ | .leaving _ _ => true
  | _ => false

/-- How far a caller is at a point. -/
def CallPoint.role : CallPoint → Role
  | lockAnswers job => .asking job
  | readTerminated job => .holding job
  | lockProblems job | send job => .sending job
  | unlockProblems (some t) | receive t => .waiting t
  | unlockProblems none => .leaving none (.error .workerTerminated)
  | unlockAnswers ticket r => .leaving ticket r
  | returned (.answer r) => .back r
  | raiseStop _ _ | closeQueue _ _ => .closing
  | _ => .away

/-- Whether a caller is in a call for a job. -/
def CallPoint.isSolve : CallPoint → Bool
  | lockAnswers _ | readTerminated _ | lockProblems _ | send _ | unlockProblems _ => true
  | receive _ | unlockAnswers _ _ => true
  | _ => false

/-- Whether a caller shuts the driver down, and does not look for a job in flight. -/
def CallPoint.isShutdown : CallPoint → Bool
  | takeSender | takeHandle _ | terminate _ _ | raiseStop _ _ | closeQueue _ _ | join => true
  | _ => false

/-- What the worker is about. -/
inductive WorkerStage where
  /-- Taking a job and accepting it. -/
  | starting
  /-- Having the engine search. -/
  | searching
  /-- Waiting for the timer, and answering. -/
  | answering
  /-- Sending a fault, or coming to its end. -/
  | ending

/-- What the worker is about at a point. -/
def WorkerPoint.stage : WorkerPoint → WorkerStage
  | announceAwaiting | receive | readTerminated _ _ | compareSeeds _ _ => .starting
  | enterStart _ _ | clearInterrupted _ _ | clearTimedOut _ _ | clearStop _ _ => .starting
  | rereadTerminated _ _ | accept _ _ | leaveStart _ _ => .starting
  | announceSolving _ _ | arm _ _ | search _ _ => .searching
  | enterFinish _ _ | clearSolving _ _ | leaveFinish _ _ => .searching
  | announceProcessing _ _ | cancel _ _ | awaitTimer _ _ | readTimedOut _ _ => .answering
  | readInterrupted _ _ | publish _ _ | readGoOn => .answering
  | recordFailure _ _ | sendFailure _ _ | leaveRefused => .ending
  | announceEnd | enterEnd | clearEnd | leaveEnd | exited => .ending

/-- Whether an event concerns the stop signal and not the exchange. -/
def Event.isAside : Event → Bool
  | landed _ | raised | expired _ => true
  | _ => false

/-! ## §3 Exchanges -/

/-- The state of an exchange. -/
structure Exchange (ε : Type) where
  engine : ε
  /-- What the worker has in hand. -/
  hand : Hand
  /-- How far each caller is. -/
  role : CallerId → Role
  /-- Whose turn it is. -/
  turn : Option CallerId
  /-- The problem queue, the oldest first. -/
  problems : List (Ticket × Job)
  /-- The answer queue, the oldest first. -/
  answers : List (Ticket × Except EngineError Answer)
  /-- The number of the next job to be sent. -/
  fresh : Ticket
  /-- Whether the worker has to end. -/
  terminated : Bool
  /-- Whether the problem queue is closed. -/
  isClosed : Bool
  /-- What happened so far, the latest first. -/
  log : List Event

namespace Exchange

variable {ε : Type}

/-- Gives a caller a role. -/
abbrev cast (x : Exchange ε) (c : CallerId) (r : Role) : Exchange ε :=
  { x with role := fun i => if i = c then r else x.role i }

/-- Puts something into the hand of the worker. -/
abbrev grasp (x : Exchange ε) (h : Hand) : Exchange ε := { x with hand := h }

/-- Adds to the log. -/
abbrev note (x : Exchange ε) (e : Event) : Exchange ε := { x with log := e :: x.log }

/-- Says that the worker has to end. -/
abbrev terminate (x : Exchange ε) : Exchange ε := { x with terminated := true }.note .terminated

/-- Sends an answer or a fault. -/
abbrev publish (x : Exchange ε) (t : Ticket) (r : Except EngineError Answer) : Exchange ε :=
  { x with answers := x.answers ++ [(t, r)] }.note (.published t r)

/-- What one step does to an exchange, in which a caller may start a call. -/
inductive Step [SearchEngine ε] (x : Exchange ε) : Option CallerId → Exchange ε → Prop
  /-- Nothing happens at the queues. -/
  | quiet : Step x none x
  /-- Something happens that is no matter of the queues. -/
  | aside {e : Event} (h : e.isAside = true) : Step x none (x.note e)
  /-- A caller starts a call. -/
  | call {c : CallerId} {r : Request} (h : (x.role c).hasTurn = false) :
      Step x (some c) ((x.note (.called c r)).cast c r.entry.role)
  /-- A caller takes its turn. -/
  | lock {c : CallerId} {job : Job} (h : x.role c = .asking job) (hturn : x.turn = none) :
      Step x none ({ x with turn := some c }.cast c (.holding job))
  /-- A caller finds that the worker has to end, and sends nothing. -/
  | refuse {c : CallerId} {job : Job} (h : x.role c = .holding job) (hterm : x.terminated = true) :
      Step x none (x.cast c (.leaving none (.error .workerTerminated)))
  /-- A caller finds the worker at work. -/
  | pass {c : CallerId} {job : Job} (h : x.role c = .holding job) (hterm : x.terminated = false) :
      Step x none (x.cast c (.sending job))
  /-- A caller sends its job under a new ticket. -/
  | send {c : CallerId} {job : Job} (h : x.role c = .sending job) :
      Step x none (({ x with problems := x.problems ++ [(x.fresh, job)], fresh := x.fresh + 1 }.note
        (.sent c x.fresh job)).cast c (.waiting x.fresh))
  /-- A caller finds the problem queue closed. -/
  | giveUp {c : CallerId} {job : Job} (h : x.role c = .sending job) :
      Step x none (x.cast c (.leaving none (.error .workerTerminated)))
  /-- A caller takes the oldest answer off the queue, whatever job it is for. -/
  | deliver {c : CallerId} {t t' : Ticket} {r : Except EngineError Answer}
      {rest : List (Ticket × Except EngineError Answer)} (h : x.role c = .waiting t)
      (hanswers : x.answers = (t', r) :: rest) :
      Step x none (({ x with answers := rest }.note (.delivered c t t' r)).cast c
        (.leaving (some t) r))
  /-- A caller that waits finds no answer, and the worker gone. -/
  | hangUp {c : CallerId} {t : Ticket} (h : x.role c = .waiting t) (hanswers : x.answers = [])
      (hgone : x.hand = .gone) :
      Step x none (x.cast c (.leaving (some t) (.error .workerTerminated)))
  /-- A caller ends its turn. -/
  | unlock {c : CallerId} {ticket : Option Ticket} {r : Except EngineError Answer}
      (h : x.role c = .leaving ticket r) : Step x none ({ x with turn := none }.cast c (.back r))
  /-- A caller says that the worker has to end. -/
  | terminate {c : CallerId} (h : (x.role c).hasTurn = false) :
      Step x none (x.terminate.cast c .closing)
  /-- A caller closes the problem queue, or leaves it as it is. -/
  | close {c : CallerId} {b : Bool} (h : x.role c = .closing) :
      Step x none ({ x with isClosed := b }.cast c .away)
  /-- The worker takes the oldest job off the queue. -/
  | take {t : Ticket} {job : Job} {rest : List (Ticket × Job)} (h : x.hand = .free)
      (hproblems : x.problems = (t, job) :: rest) :
      Step x none ({ x with problems := rest }.grasp (.taken t job))
  /-- The worker has no job in hand, and comes to its end. -/
  | stop (h : x.hand = .free) (hend : x.isClosed = true ∨ x.terminated = true) :
      Step x none (x.grasp .ending)
  /-- The worker drops a job that it has not accepted, and comes to its end. -/
  | drop {t : Ticket} {job : Job} (h : x.hand = .taken t job) (hterm : x.terminated = true) :
      Step x none (x.grasp .ending)
  /-- The worker accepts the job in hand. -/
  | accept {t : Ticket} {job : Job} (h : x.hand = .taken t job) :
      Step x none ((x.note (.accepted t)).grasp (.inFlight t job))
  /-- The worker hands the job over to the engine. -/
  | arm {t : Ticket} {job : Job} (h : x.hand = .inFlight t job) :
      Step x none ({ x with engine := SearchEngine.start x.engine job }.grasp (.searching t job))
  /-- The engine goes on. -/
  | search {t : Ticket} {job : Job} {e : ε} {stop : Bool} (h : x.hand = .searching t job)
      (hpoll : SearchEngine.poll x.engine stop = (e, none)) : Step x none { x with engine := e }
  /-- The engine comes to an end with the job. -/
  | conclude {t : Ticket} {job : Job} {e : ε} {stop : Bool} {s : Status}
      (h : x.hand = .searching t job) (hpoll : SearchEngine.poll x.engine stop = (e, some s)) :
      Step x none (({ x with engine := e }.note (.concluded t s)).grasp (.finished t s))
  /-- The worker makes an answer out of the status, or out of a stop. -/
  | answer {t : Ticket} {s : Status} {a : Answer} (h : x.hand = .finished t s)
      (ha : a = ⟨.timeout, []⟩ ∨ a = Driver.classify s) : Step x none (x.grasp (.answering t a))
  /-- The worker fails with a job in hand. -/
  | fail {t : Ticket} {e : EngineError} (h : x.hand.ticket? = some t) :
      Step x none (x.grasp (.failing t e))
  /-- A worker that failed says that it has to end. -/
  | record {t : Ticket} {e : EngineError} (h : x.hand = .failing t e) :
      Step x none (x.terminate.grasp (.failed t e))
  /-- The worker sends an answer. -/
  | publish {t : Ticket} {a : Answer} (h : x.hand = .answering t a) :
      Step x none ((x.publish t (.ok a)).grasp .free)
  /-- The worker sends a fault. -/
  | publishFailure {t : Ticket} {e : EngineError} (h : x.hand = .failed t e) :
      Step x none ((x.publish t (.error e)).grasp .ending)
  /-- The worker is gone. -/
  | exit (h : x.hand = .ending) : Step x none (x.grasp .gone)

end Exchange

end Search

/-! ## §4 The Exchange of a Driver -/

namespace Driver

variable {ε : Type}

/-- The exchange behind a driver. -/
def exchange (d : Driver ε) : Exchange ε where
  engine := d.engine
  hand := d.worker.hand
  role c := (d.calls c).role
  turn := d.answerLock
  problems := d.problems
  answers := d.answers
  fresh := d.nextTicket
  terminated := d.terminated
  isClosed := d.isClosed
  log := d.history

variable {d d' : Driver ε}

theorem exchange_role {c : CallerId} : d.exchange.role c = (d.calls c).role := rfl

theorem exchange_role_of_eq {c : CallerId} {p : CallPoint} (hc : d.calls c = p) :
    d.exchange.role c = p.role := by rw [exchange_role, hc]

theorem eq_of_role_waiting {c : CallerId} {t : Ticket} (h : (d.calls c).role = .waiting t) :
    d.calls c = .receive t ∨ d.calls c = .unlockProblems (some t) := by
  cases hc : d.calls c with
  | receive t' =>
    rw [hc] at h
    cases h
    exact Or.inl rfl
  -- with a ticket the job was sent
  | unlockProblems ticket =>
    rw [hc] at h
    cases ticket with
    | none => cases h
    | some t' =>
      cases h
      exact Or.inr rfl
  | returned r =>
    rw [hc] at h
    cases r <;> cases h
  | _ =>
    rw [hc] at h
    cases h

theorem exchange_hand : d.exchange.hand = d.worker.hand := rfl

theorem exchange_note {e : Event} : (d.note e).exchange = d.exchange.note e := rfl

theorem exchange_terminate : d.terminate.exchange = d.exchange.terminate := rfl

theorem exchange_moveCall {c : CallerId} {p : CallPoint} :
    (d.moveCall c p).exchange = d.exchange.cast c p.role := by
  simp only [exchange, moveCall, Exchange.cast, Exchange.mk.injEq, and_true, true_and]
  funext i
  split <;> rfl

theorem cast_self {x : Exchange ε} {c : CallerId} {r : Role} (h : x.role c = r) :
    x.cast c r = x := by
  have hrole : (fun i => if i = c then r else x.role i) = x.role := by
    funext i
    split
    · rename_i hi
      rw [hi, h]
    · rfl
  rw [Exchange.cast, hrole]

/-- A caller that moves without a change of its role leaves the exchange alone. -/
theorem exchange_moveCall_of_role_eq {c : CallerId} {p : CallPoint}
    (h : p.role = (d.calls c).role) : (d.moveCall c p).exchange = d.exchange := by
  rw [exchange_moveCall]
  exact cast_self h.symm

theorem enterGate?_eq_some {h : Holder} :
    d.enterGate? h = some d' ↔ d.gate = none ∧ { d with gate := some h } = d' := by
  rw [enterGate?, Option.ite_none_right_eq_some, Option.isNone_iff_eq_none, Option.some.injEq]

/-- A driver whose worker stands at a point is one whose worker was put there. -/
theorem exists_moveWorker {p : WorkerPoint} (hw : d.worker = p) :
    ∃ e : Driver ε, d = e.moveWorker p := ⟨d, by rw [moveWorker, ← hw]⟩

/-! ## §5 Steps of Callers -/

/-- The caller that starts a call. -/
def Label.caller? : Label → Option CallerId
  | begin c _ => some c
  | _ => none

section Steps

variable [SearchEngine ε]

/-- A step that moves a caller within its role. -/
theorem step_moveCall {c : CallerId} {p : CallPoint} (h : d.exchange.Step none d'.exchange)
    (hp : p.role = (d'.calls c).role) : d.exchange.Step none (d'.moveCall c p).exchange := by
  rw [exchange_moveCall_of_role_eq hp]
  exact h

/-- A worker that cannot start a timer, or wait for its end, fails with the job in hand. -/
theorem exchange_step_of_fail {t : Ticket} {p : WorkerPoint} {e : EngineError}
    (hw : d.worker = p) (hp : p.hand.ticket? = some t) :
    d.exchange.Step none (d.moveWorker (.recordFailure t e)).exchange := by
  refine .fail (t := t) ?_
  rw [exchange_hand, hw, hp]

theorem exchange_begin {c : CallerId} {r : Request} (h : d.begin? c r = some d') :
    d.exchange.Step (some c) d'.exchange := by
  -- a caller outside of all calls has no turn, so the new call is recorded
  have hstep : (d.exchange.role c).hasTurn = false →
      d.exchange.Step (some c) ((d.note (.called c r)).moveCall c r.entry).exchange := by
    intro hturn
    rw [exchange_moveCall, exchange_note]
    exact .call hturn
  unfold begin? at h
  split at h
  · rename_i hc
    cases h
    exact hstep (by rw [exchange_role, hc]; rfl)
  · rename_i result hc
    cases h
    refine hstep ?_
    rw [exchange_role, hc]
    cases result <;> rfl
  · cases h

/-- A caller that looks for a job in flight does not touch the exchange. -/
theorem exchange_interruptStep {c : CallerId} {p q : InterruptPoint}
    (h : d.interruptStep c p = some (d', q)) :
    d.exchange.Step none d'.exchange ∧ d'.calls = d.calls := by
  cases p with
  | enter =>
    obtain ⟨e, he, heq⟩ := Option.map_eq_some_iff.1 h
    obtain ⟨-, rfl⟩ := enterGate?_eq_some.1 he
    cases heq
    exact ⟨.quiet, rfl⟩
  | look =>
    cases h
    exact ⟨.quiet, rfl⟩
  -- only the log shows what follows
  | record =>
    cases h
    exact ⟨.aside rfl, rfl⟩
  | raise =>
    cases h
    exact ⟨.aside rfl, rfl⟩
  | leave landed =>
    cases h
    exact ⟨.quiet, rfl⟩

/-- A step of a call for a job. -/
theorem exchange_callStep_of_isSolve {c : CallerId} (hsolve : (d.calls c).isSolve = true)
    (h : d.callStep c = some d') : d.exchange.Step none d'.exchange := by
  cases hc : d.calls c with
  | lockAnswers job =>
    simp only [callStep, hc] at h
    split at h
    · rename_i hlock
      cases h
      rw [exchange_moveCall]
      exact .lock (exchange_role_of_eq hc) (Option.isNone_iff_eq_none.1 hlock)
    · cases h
  | readTerminated job =>
    simp only [callStep, hc] at h
    cases h
    rw [exchange_moveCall]
    split
    · rename_i hterm
      exact .refuse (exchange_role_of_eq hc) hterm
    · rename_i hterm
      exact .pass (exchange_role_of_eq hc) (Bool.eq_false_iff.2 hterm)
  | lockProblems job =>
    simp only [callStep, hc] at h
    split at h
    · cases h
      exact step_moveCall .quiet (by rw [hc]; rfl)
    · cases h
  -- the problem queue is closed once the sender was taken
  | send job =>
    simp only [callStep, hc] at h
    split at h
    · cases h
      rw [exchange_moveCall]
      exact .send (exchange_role_of_eq hc)
    · cases h
      rw [exchange_moveCall]
      exact .giveUp (exchange_role_of_eq hc)
  | unlockProblems ticket =>
    simp only [callStep, hc] at h
    cases h
    refine step_moveCall .quiet ?_
    rw [hc]
    cases ticket <;> rfl
  -- an empty queue and a worker that is gone make the caller hang up
  | receive t =>
    simp only [callStep, hc] at h
    split at h
    · rename_i t' r rest hanswers
      cases h
      rw [exchange_moveCall]
      exact .deliver (exchange_role_of_eq hc) hanswers
    · rename_i hanswers
      split at h
      · rename_i hgone
        cases h
        rw [exchange_moveCall]
        exact .hangUp (exchange_role_of_eq hc) hanswers (by rw [exchange_hand, hgone]; rfl)
      · cases h
  | unlockAnswers ticket r =>
    simp only [callStep, hc] at h
    cases h
    rw [exchange_moveCall]
    exact .unlock (exchange_role_of_eq hc)
  | _ =>
    rw [hc] at hsolve
    cases hsolve

/-- A step of an interrupt, or of a shutdown that interrupts: it looks at the gate, and raises the
stop signal. -/
theorem exchange_callStep_of_interrupts {c : CallerId} {p : InterruptPoint}
    (hc : d.calls c = .interrupting p ∨ ∃ sender handle, d.calls c = .stopping p sender handle)
    (h : d.callStep c = some d') : d.exchange.Step none d'.exchange := by
  have hstep : ∀ {e : Driver ε} {q : InterruptPoint} {r : CallPoint},
      d.interruptStep c p = some (e, q) → r.role = .away → (d.calls c).role = .away →
        d.exchange.Step none (e.moveCall c r).exchange := by
    intro e q r he hr haway
    obtain ⟨hstep, hcalls⟩ := exchange_interruptStep he
    exact step_moveCall hstep (by rw [hcalls, hr, haway])
  rcases hc with hc | ⟨sender, handle, hc⟩ <;> unfold callStep at h <;> rw [hc] at h hstep <;>
    cases p with
  | leave landed =>
    cases h
    exact step_moveCall .quiet (by rw [leaveGate, hc]; rfl)
  | enter | look | record | raise =>
    obtain ⟨⟨e, q⟩, he, rfl⟩ := Option.map_eq_some_iff.1 h
    exact hstep he rfl rfl

/-- A step of a shutdown that does not interrupt. -/
theorem exchange_callStep_of_isShutdown {c : CallerId} (hdown : (d.calls c).isShutdown = true)
    (h : d.callStep c = some d') : d.exchange.Step none d'.exchange := by
  cases hc : d.calls c with
  | takeSender =>
    simp only [callStep, hc] at h
    split at h
    · cases h
      exact step_moveCall .quiet (by rw [hc]; rfl)
    · cases h
  | takeHandle sender =>
    simp only [callStep, hc] at h
    cases h
    refine step_moveCall .quiet ?_
    rw [hc]
    split <;> rfl
  | terminate sender handle =>
    simp only [callStep, hc] at h
    cases h
    rw [exchange_moveCall, exchange_terminate]
    exact .terminate (by rw [exchange_role_of_eq hc]; rfl)
  -- the stop signal is no part of the exchange
  | raiseStop sender handle =>
    simp only [callStep, hc] at h
    cases h
    refine step_moveCall (.aside (e := .raised) rfl) ?_
    rw [raise, note, hc]
    rfl
  | closeQueue sender handle =>
    simp only [callStep, hc] at h
    cases h
    rw [exchange_moveCall]
    -- the queue is closed, whether or not there is a worker to wait for
    have haway : CallPoint.role (if handle then .join else .returned .down) = .away := by
      cases handle <;> rfl
    rw [haway]
    exact .close (exchange_role_of_eq hc)
  | join =>
    simp only [callStep, hc] at h
    split at h
    · cases h
      exact step_moveCall .quiet (by rw [hc]; rfl)
    · cases h
  | _ =>
    rw [hc] at hdown
    cases hdown

theorem exchange_callStep {c : CallerId} (h : d.callStep c = some d') :
    d.exchange.Step none d'.exchange := by
  cases hc : d.calls c with
  | outside | returned =>
    simp only [callStep, hc] at h
    cases h
  | lockAnswers | readTerminated | lockProblems | send | unlockProblems | receive
  | unlockAnswers => exact exchange_callStep_of_isSolve (by rw [hc]; rfl) h
  | interrupting p => exact exchange_callStep_of_interrupts (Or.inl hc) h
  | stopping p sender handle =>
    exact exchange_callStep_of_interrupts (Or.inr ⟨sender, handle, hc⟩) h
  | takeSender | takeHandle | terminate | raiseStop | closeQueue | join =>
    exact exchange_callStep_of_isShutdown (by rw [hc]; rfl) h

/-! ## §6 Steps of the Worker -/

/-- The worker takes a job off the queue, and accepts it under the gate. -/
theorem exchange_workerStep_of_starting (hw : d.worker.stage = .starting)
    (h : d.workerStep = some d') : d.exchange.Step none d'.exchange := by
  cases hp : d.worker <;> rw [hp] at hw <;> cases hw <;> obtain ⟨d, rfl⟩ := exists_moveWorker hp
  -- a flag, the phase or the gate changes, which the exchange does not see
  case announceAwaiting | clearInterrupted | clearTimedOut | clearStop | leaveStart =>
    cases h
    exact .quiet
  case receive =>
    simp only [workerStep, moveWorker] at h
    split at h
    · rename_i t job rest hproblems
      cases h
      exact .take rfl hproblems
    · obtain ⟨hclosed, h⟩ := Option.ite_none_right_eq_some.1 h
      cases h
      exact .stop rfl (Or.inl hclosed)
  case readTerminated | rereadTerminated =>
    cases h
    split
    · rename_i hterm
      exact .drop rfl hterm
    · exact .quiet
  case compareSeeds t job =>
    cases h
    split
    · exact .quiet
    · exact .fail rfl
  case enterStart t job =>
    obtain ⟨e, he, rfl⟩ := Option.map_eq_some_iff.1 h
    obtain ⟨-, rfl⟩ := enterGate?_eq_some.1 he
    exact .quiet
  case accept t job =>
    cases h
    exact .accept rfl

/-- The worker has the engine search, and closes the job under the gate. -/
theorem exchange_workerStep_of_searching (hw : d.worker.stage = .searching)
    (h : d.workerStep = some d') : d.exchange.Step none d'.exchange := by
  cases hp : d.worker <;> rw [hp] at hw <;> cases hw <;> obtain ⟨d, rfl⟩ := exists_moveWorker hp
  case announceSolving | clearSolving | leaveFinish =>
    cases h
    exact .quiet
  case arm t job =>
    cases h
    exact .arm rfl
  -- the engine moves, and perhaps comes to its end
  case search t job =>
    simp only [workerStep, moveWorker] at h
    split at h
    · rename_i e hpoll
      cases h
      exact .search rfl hpoll
    · rename_i e status hpoll
      cases h
      exact .conclude rfl hpoll
  case enterFinish t s =>
    obtain ⟨e, he, rfl⟩ := Option.map_eq_some_iff.1 h
    obtain ⟨-, rfl⟩ := enterGate?_eq_some.1 he
    exact .quiet

/-- The worker waits for the timer to end, and answers. -/
theorem exchange_workerStep_of_answering (hw : d.worker.stage = .answering)
    (h : d.workerStep = some d') : d.exchange.Step none d'.exchange := by
  cases hp : d.worker <;> rw [hp] at hw <;> cases hw <;> obtain ⟨d, rfl⟩ := exists_moveWorker hp
  case announceProcessing t s =>
    cases h
    exact .quiet
  case cancel t s =>
    cases h
    split <;> exact .quiet
  case awaitTimer t s =>
    simp only [workerStep, moveWorker] at h
    split at h
    · cases h
      exact .quiet
    · cases h
  -- an answer is made here or at the next flag
  case readTimedOut t s =>
    cases h
    split
    · exact .answer rfl (Or.inl rfl)
    · exact .quiet
  case readInterrupted t s =>
    cases h
    refine .answer rfl ?_
    split
    · exact Or.inl rfl
    · exact Or.inr rfl
  case publish t a =>
    cases h
    exact .publish rfl
  case readGoOn =>
    cases h
    split
    · rename_i hterm
      exact .stop rfl (Or.inr hterm)
    · exact .quiet

/-- The worker sends a fault, or comes to its end. -/
theorem exchange_workerStep_of_ending (hw : d.worker.stage = .ending)
    (h : d.workerStep = some d') : d.exchange.Step none d'.exchange := by
  cases hp : d.worker <;> rw [hp] at hw <;> cases hw <;> obtain ⟨d, rfl⟩ := exists_moveWorker hp
  case recordFailure t e =>
    cases h
    exact .record rfl
  case sendFailure t e =>
    cases h
    exact .publishFailure rfl
  -- the gate and its flag are no part of the exchange
  case leaveRefused | announceEnd | clearEnd =>
    cases h
    exact .quiet
  case enterEnd =>
    obtain ⟨e, he, rfl⟩ := Option.map_eq_some_iff.1 h
    obtain ⟨-, rfl⟩ := enterGate?_eq_some.1 he
    exact .quiet
  case leaveEnd =>
    cases h
    exact .exit rfl
  case exited =>
    cases h

theorem exchange_workerStep (h : d.workerStep = some d') : d.exchange.Step none d'.exchange := by
  cases hw : d.worker.stage with
  | starting => exact exchange_workerStep_of_starting hw h
  | searching => exact exchange_workerStep_of_searching hw h
  | answering => exact exchange_workerStep_of_answering hw h
  | ending => exact exchange_workerStep_of_ending hw h

/-! ## §7 All Steps -/

theorem exchange_timerStep {t : Ticket} (h : d.timerStep t = some d') :
    d.exchange.Step none d'.exchange := by
  unfold timerStep at h
  split at h
  · cases h
    exact .quiet
  · cases h
    exact .quiet
  · cases h
    exact .aside (e := .raised) rfl
  · cases h
    exact .quiet
  · cases h

/-- Every step of a driver is a step of its exchange. -/
theorem exchange_step {l : Label} (h : d.step l = some d') :
    d.exchange.Step l.caller? d'.exchange := by
  cases l with
  | begin c r => exact exchange_begin h
  | call c => exact exchange_callStep h
  | worker => exact exchange_workerStep h
  -- no timer can be started, or one does not end: both are faults of the worker
  | armFailure reason =>
    simp only [step, armFailureStep] at h
    split at h
    · rename_i t job hw
      cases h
      exact exchange_step_of_fail hw rfl
    · cases h
  | grace =>
    simp only [step, graceStep] at h
    split at h
    · rename_i t s hw
      split at h
      · cases h
      · cases h
        exact exchange_step_of_fail hw rfl
    · cases h
  | cutoff t =>
    simp only [step, cutoffStep] at h
    split at h
    · cases h
      exact .aside (e := .expired t) rfl
    · cases h
  | timer t => exact exchange_timerStep h

end Steps

end Driver

end SpectrumPacking
