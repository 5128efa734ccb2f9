import SpectrumPacking.Proofs.Search.Sessions

/-!
# Sessions Settle

A session in which one job at a time is solved always comes back to rest, with the answer that the
engine's status amounts to, if the engine ends its search and time never runs out
(`Session.Rests.solve`).  The schedule of a session is fixed, so this follows its steps: the caller
hands over the job, the worker takes it to the engine, the engine searches, and the worker hands
back the answer.
-/

namespace SpectrumPacking

open Search

variable {ε : Type} [SearchEngine ε]

/-- An engine that is never told to stop ends its search with a status. -/
inductive EndsSearch : ε → Status → ε → Prop
  | now {e e' : ε} {status : Status} :
      SearchEngine.poll e false = (e', some status) → EndsSearch e status e'
  | later {e e' e'' : ε} {status : Status} :
      SearchEngine.poll e false = (e', none) → EndsSearch e' status e'' → EndsSearch e status e''

/-! ## §1 Points of a Solve -/

namespace Driver

/-- The driver while caller 0 is at one point and the worker at another: nobody else has called,
nothing is queued or locked but perhaps the answer queue, and the work goes on. -/
def atPoints (d : Driver ε) (lock : Option CallerId) (p : CallPoint) (w : WorkerPoint) : Driver ε :=
  { d with
    terminated := false
    hasSender := true
    isClosed := false
    gate := none
    answerLock := lock
    problemLock := none
    problems := []
    answers := []
    worker := w
    calls := fun c => if c = 0 then p else .outside }

/-- The driver at rest: the worker waits for a job. -/
def atRest (d : Driver ε) (p : CallPoint) : Driver ε := d.atPoints none p .receive

/-- The driver while caller 0 waits for a job that was not stopped, with the timer at a point. -/
def inFlight (d : Driver ε) (t : Ticket) (timer : TimerPoint) (w : WorkerPoint) : Driver ε :=
  { d with
    interrupted := false
    timedOut := false
    stop := false
    timers := fun i => if i = t then some timer else d.timers i }.atPoints (some 0) (.receive t) w

omit [SearchEngine ε]

theorem timers_inFlight {d : Driver ε} {t : Ticket} {timer : TimerPoint} {w : WorkerPoint} :
    (d.inFlight t timer w).timers t = some timer := if_pos rfl

end Driver

namespace Session

/-- Takes a number of steps, if there are as many. -/
def steps : Nat → Session ε → Option (Session ε)
  | 0, s => some s
  | n + 1, s => s.advance?.bind (steps n)

variable {s s' : Session ε} {d : Driver ε} {t : Ticket} {job : Job} {clock : Nat}
  {deadline : Option Nat}

theorem next?_none : s.next? none = s.advance?.map fun s => (none, s) := rfl

theorem settle_of_advance? (h : s.advance? = some s') : s.settle none = s'.settle none := by
  rw [settle.eq_1 none s, next?_none, h]
  rfl

theorem settle_of_steps {n : Nat} (h : s.steps n = some s') : s.settle none = s'.settle none := by
  induction n generalizing s with
  | zero =>
    cases h
    rfl
  | succ n ih =>
    obtain ⟨s'', hstep, hrest⟩ := Option.bind_eq_some_iff.1 h
    rw [settle_of_advance? hstep, ih hrest]

theorem settle_of_advance?_eq_none (h : s.advance? = none) : s.settle none = some s := by
  rw [settle.eq_1 none s, next?_none, h]
  rfl

/-- Steps lead on to a state that need not be written as the steps leave it. -/
theorem settle_of_exists_steps {n : Nat} {e : Driver ε} {clock : Nat} {deadline : Option Nat}
    (h : ∃ d, s.steps n = some ⟨d, clock, deadline⟩ ∧ d = e) :
    s.settle none = settle none ⟨e, clock, deadline⟩ := by
  obtain ⟨d, hsteps, rfl⟩ := h
  exact settle_of_steps hsteps

/-! ## §2 To the Engine -/

/-- Caller 0 hands its job over and waits, and the worker takes the job. -/
theorem settle_handOver (d : Driver ε) (job : Job) (clock : Nat) (deadline : Option Nat) :
    ∃ (d' : Driver ε) (t : Ticket), d'.seed = d.seed ∧ d'.engine = d.engine ∧
      settle none ⟨d.atRest (.lockAnswers job), clock, deadline⟩ =
        settle none
          ⟨d'.atPoints (some 0) (.receive t) (.compareSeeds t job), clock + 7, deadline⟩ := by
  refine ⟨{ d with
    nextTicket := d.nextTicket + 1
    history := .sent 0 d.nextTicket job :: d.history }, d.nextTicket, rfl, rfl, ?_⟩
  apply settle_of_exists_steps (n := 7)
  refine ⟨_, rfl, ?_⟩
  unfold Driver.atPoints
  simp only [Driver.moveWorker, Driver.moveCall, Driver.note, Driver.atRest, Driver.atPoints]
  congr 1
  funext c
  by_cases hc : c = 0 <;> simp only [hc, if_true, if_false]

/-- The worker refuses no job with the seed of the engine. -/
theorem settle_compareSeeds (hseed : job.seed = d.seed) :
    settle none ⟨d.atPoints (some 0) (.receive t) (.compareSeeds t job), clock, deadline⟩ =
      settle none ⟨d.atPoints (some 0) (.receive t) (.enterStart t job), clock + 1, deadline⟩ := by
  apply settle_of_advance?
  show some _ = some _
  have hseed' : job.seed = (d.atPoints (some 0) (.receive t) (.compareSeeds t job)).seed := hseed
  rw [if_pos hseed']
  rfl

/-- The worker accepts the job and clears all signs of the one before. -/
theorem settle_accept :
    settle none ⟨d.atPoints (some 0) (.receive t) (.enterStart t job), clock, deadline⟩ =
      settle none ⟨Driver.atPoints { d with
          phase := .solving
          solving := true
          interrupted := false
          timedOut := false
          stop := false
          history := .accepted t :: d.history } (some 0) (.receive t) (.arm t job),
        clock + 8, deadline⟩ := by
  apply settle_of_exists_steps (n := 8)
  refine ⟨_, rfl, ?_⟩
  simp only [Driver.moveWorker, Driver.leaveGate, Driver.note, Driver.atPoints]

/-- A job that clocks cannot bound comes to the engine without a deadline. -/
theorem settle_takeUp (clock : Nat) (deadline : Option Nat) (hseed : job.seed = d.seed)
    (hcutoff : clockSpan ≤ job.cutoff.nanos) :
    ∃ (d' : Driver ε) (t : Ticket) (clock' : Nat), d'.seed = d.seed ∧
      d'.engine = SearchEngine.start d.engine job ∧
      settle none ⟨d.atRest (.lockAnswers job), clock, deadline⟩ =
        settle none ⟨d'.inFlight t (.waiting false) (.search t job), clock', none⟩ := by
  obtain ⟨d₁, t, hseed₁, hengine₁, hrun⟩ := settle_handOver d job clock deadline
  have hdeadline : ∀ clock, deadlineOf? clock job.cutoff = none := by
    intro clock
    exact if_neg (by omega)
  -- arming the timer sets no deadline, since clocks cannot show when the cutoff runs out
  have harm : advance? ⟨Driver.atPoints { d₁ with
          phase := .solving
          solving := true
          interrupted := false
          timedOut := false
          stop := false
          history := .accepted t :: d₁.history } (some 0) (.receive t) (.arm t job),
        clock + 7 + 1 + 8, deadline⟩ =
      some ⟨Driver.inFlight { d₁ with
          phase := .solving
          solving := true
          engine := SearchEngine.start d₁.engine job
          history := .accepted t :: d₁.history } t (.waiting false) (.search t job),
        clock + 7 + 1 + 8 + 1, none⟩ := by
    rw [← hdeadline (clock + 7 + 1 + 8 + 1)]
    rfl
  refine ⟨_, t, _, ?_, ?_, hrun.trans <| (settle_compareSeeds (hseed.trans hseed₁.symm)).trans <|
    settle_accept.trans (settle_of_advance? harm)⟩
  · exact hseed₁
  · rw [← hengine₁]

/-! ## §3 In the Engine -/

/-- While a timer waits and time cannot run out, the worker goes on. -/
theorem settle_of_timed (d d' : Driver ε) (clock : Nat) (hcall : d.callStep 0 = none)
    (hcall' : d.callStep 1 = none) (hticket : timedTicket? d = some t)
    (htimer : d.timerStep t = none) (hworker : d.workerStep = some d') :
    ∃ clock', settle none ⟨d, clock, none⟩ = settle none ⟨d', clock', none⟩ := by
  have hmove : timerMove? ⟨d, clock, none⟩ = none := by
    simp only [timerMove?, hticket, htimer]
  have hstep : ∃ clock', advance? ⟨d, clock, none⟩ = some ⟨d', clock', none⟩ := by
    unfold advance?
    simp only [hcall, hcall', hmove, hworker]
    split
    · exact ⟨_, rfl⟩
    · rename_i hw
      simp only [timedTicket?, hw, reduceCtorEq] at hticket
    · exact ⟨_, rfl⟩
  obtain ⟨clock', hstep⟩ := hstep
  exact ⟨clock', settle_of_advance? hstep⟩

omit [SearchEngine ε] in
theorem timerStep_of_waiting (h : d.timers t = some (.waiting false)) : d.timerStep t = none := by
  simp only [Driver.timerStep, h]

theorem workerStep_of_poll {e : ε} (h : SearchEngine.poll d.engine false = (e, none)) :
    (d.inFlight t (.waiting false) (.search t job)).workerStep =
      some (Driver.inFlight { d with engine := e } t (.waiting false) (.search t job)) := by
  simp only [Driver.workerStep, Driver.inFlight, Driver.atPoints, h]

theorem workerStep_of_poll_end {e : ε} {status : Status}
    (h : SearchEngine.poll d.engine false = (e, some status)) :
    (d.inFlight t (.waiting false) (.search t job)).workerStep =
      some (Driver.inFlight { d with engine := e, history := .concluded t status :: d.history } t
        (.waiting false) (.enterFinish t status)) := by
  simp only [Driver.workerStep, Driver.inFlight, Driver.atPoints, h]
  rfl

/-- The worker follows the engine to the end of its search. -/
theorem settle_search (clock : Nat) {e e' : ε} {status : Status} (h : EndsSearch e status e')
    (hd : d.engine = e) :
    ∃ (d' : Driver ε) (clock' : Nat), d'.seed = d.seed ∧ d'.engine = e' ∧
      settle none ⟨d.inFlight t (.waiting false) (.search t job), clock, none⟩ =
        settle none ⟨d'.inFlight t (.waiting false) (.enterFinish t status), clock', none⟩ := by
  induction h generalizing d clock with
  | now hpoll =>
    subst hd
    obtain ⟨clock', hstep⟩ :=
      settle_of_timed _ _ clock rfl rfl rfl (timerStep_of_waiting (if_pos rfl))
        (workerStep_of_poll_end hpoll)
    refine ⟨_, clock', ?_, ?_, hstep⟩
    · rfl
    · rfl
  -- the engine searches on; neither the clock nor the driver shows it
  | later hpoll _ ih =>
    subst hd
    obtain ⟨clock', hstep⟩ :=
      settle_of_timed _ _ clock rfl rfl rfl (timerStep_of_waiting (if_pos rfl))
        (workerStep_of_poll hpoll)
    obtain ⟨d', clock'', hseed, hengine, hrest⟩ := ih (d := { d with engine := _ }) clock' rfl
    exact ⟨d', clock'', hseed, hengine, hstep.trans hrest⟩

/-! ## §4 Back from the Engine -/

/-- The worker leaves the engine and says so. -/
theorem settle_leave (d : Driver ε) (t : Ticket) (status : Status) (clock : Nat) :
    ∃ clock', settle none ⟨d.inFlight t (.waiting false) (.enterFinish t status), clock, none⟩ =
      settle none ⟨Driver.inFlight { d with solving := false, phase := .processingAnswer } t
        (.waiting false) (.cancel t status), clock', none⟩ := by
  -- four steps of the worker: into the gate, clearing, out of the gate, and saying so
  let entered : Driver ε :=
    { d.inFlight t (.waiting false) (.clearSolving t status) with gate := some .worker }
  let cleared : Driver ε := { entered with worker := .leaveFinish t status, solving := false }
  let left : Driver ε :=
    Driver.inFlight { d with solving := false } t (.waiting false) (.announceProcessing t status)
  have hwaiting : ∀ {w : WorkerPoint} {d : Driver ε},
      (d.inFlight t (.waiting false) w).timers t = some (.waiting false) := Driver.timers_inFlight
  obtain ⟨clock₁, h₁⟩ := settle_of_timed (d.inFlight t (.waiting false) (.enterFinish t status))
    entered clock rfl rfl rfl (timerStep_of_waiting hwaiting) rfl
  obtain ⟨clock₂, h₂⟩ := settle_of_timed entered cleared clock₁ rfl rfl rfl
    (timerStep_of_waiting (if_pos rfl)) rfl
  obtain ⟨clock₃, h₃⟩ := settle_of_timed cleared left clock₂ rfl rfl rfl
    (timerStep_of_waiting (if_pos rfl)) rfl
  obtain ⟨clock₄, h₄⟩ := settle_of_timed left _ clock₃ rfl rfl rfl
    (timerStep_of_waiting hwaiting) rfl
  exact ⟨clock₄, h₁.trans (h₂.trans (h₃.trans h₄))⟩

omit [SearchEngine ε] in
theorem moveTimer_inFlight {timer timer' : TimerPoint} {w : WorkerPoint} :
    (d.inFlight t timer w).moveTimer t timer' = d.inFlight t timer' w := by
  unfold Driver.moveTimer Driver.inFlight Driver.atPoints
  congr 1
  funext i
  by_cases hi : i = t <;> simp only [hi, if_true, if_false]

/-- A timer that has something to do goes before the worker. -/
theorem settle_of_timer (d d' : Driver ε) (clock : Nat) (hcall : d.callStep 0 = none)
    (hcall' : d.callStep 1 = none) (hticket : timedTicket? d = some t)
    (htimer : d.timerStep t = some d') :
    settle none ⟨d, clock, none⟩ = settle none ⟨d', clock + 1, none⟩ := by
  apply settle_of_advance?
  have hmove : timerMove? ⟨d, clock, none⟩ = some d' := by
    simp only [timerMove?, hticket, htimer]
  simp only [advance?, hcall, hcall', hmove]

theorem workerStep_cancel {status : Status} (hw : d.worker = .cancel t status)
    (ht : d.timers t = some (.waiting false)) :
    d.workerStep = some ((d.moveTimer t (.waiting true)).moveWorker (.awaitTimer t status)) := by
  simp only [Driver.workerStep, hw, ht]

theorem workerStep_awaitTimer {status : Status} (hw : d.worker = .awaitTimer t status)
    (ht : d.timers t = some .done) :
    d.workerStep = some (d.moveWorker (.readTimedOut t status)) := by
  simp only [Driver.workerStep, hw, ht]

/-- The worker cancels the timer and waits until it is gone. -/
theorem settle_cancel (d : Driver ε) (t : Ticket) (status : Status) (clock : Nat) :
    ∃ clock', settle none ⟨d.inFlight t (.waiting false) (.cancel t status), clock, none⟩ =
      settle none ⟨d.inFlight t .done (.readTimedOut t status), clock', none⟩ := by
  have hcancel := workerStep_cancel (d := d.inFlight t (.waiting false) (.cancel t status)) rfl
    Driver.timers_inFlight
  rw [moveTimer_inFlight] at hcancel
  obtain ⟨clock₁, h₁⟩ := settle_of_timed _ (d.inFlight t (.waiting true) (.awaitTimer t status))
    clock rfl rfl rfl (timerStep_of_waiting Driver.timers_inFlight) hcancel
  -- the timer obeys in two steps, and the worker waits for both
  have hgoing : (d.inFlight t (.waiting true) (.awaitTimer t status)).timerStep t =
      some (d.inFlight t .acknowledge (.awaitTimer t status)) := by
    simp only [Driver.timerStep, Driver.timers_inFlight, moveTimer_inFlight]
  have hgone : (d.inFlight t .acknowledge (.awaitTimer t status)).timerStep t =
      some (d.inFlight t .done (.awaitTimer t status)) := by
    simp only [Driver.timerStep, Driver.timers_inFlight, moveTimer_inFlight]
  have hdone : (d.inFlight t .done (.awaitTimer t status)).timerStep t = none := by
    simp only [Driver.timerStep, Driver.timers_inFlight]
  have h₂ := settle_of_timer _ _ clock₁ rfl rfl rfl hgoing
  have h₃ := settle_of_timer _ _ (clock₁ + 1) rfl rfl rfl hgone
  obtain ⟨clock₂, h₄⟩ := settle_of_timed _ _ (clock₁ + 1 + 1) rfl rfl rfl hdone
    (workerStep_awaitTimer rfl Driver.timers_inFlight)
  exact ⟨clock₂, h₁.trans (h₂.trans (h₃.trans h₄))⟩

/-- The worker sends the answer, caller 0 takes it and returns, and the worker waits again. -/
theorem settle_handBack (d : Driver ε) (t : Ticket) (status : Status) (clock : Nat) :
    ∃ (d' : Driver ε) (clock' : Nat), d'.seed = d.seed ∧ d'.engine = d.engine ∧
      settle none ⟨d.inFlight t .done (.readTimedOut t status), clock, none⟩ =
        some ⟨d'.atRest (.returned (.answer (.ok (Driver.classify status)))), clock', none⟩ := by
  have hback : settle none ⟨d.inFlight t .done (.readTimedOut t status), clock, none⟩ =
      settle none ⟨Driver.atRest { d with
          interrupted := false
          timedOut := false
          stop := false
          phase := .awaitingProblem
          timers := fun i => if i = t then some .done else d.timers i
          history := .delivered 0 t t (.ok (Driver.classify status)) ::
            .published t (.ok (Driver.classify status)) :: d.history }
        (.returned (.answer (.ok (Driver.classify status)))), clock + 7, none⟩ := by
    -- two flags are read, the answer is sent and taken, two locks are given back
    apply settle_of_exists_steps (n := 7)
    refine ⟨_, rfl, ?_⟩
    simp only [Driver.moveWorker, Driver.moveCall, Driver.note, Driver.publish, Driver.inFlight,
      Driver.atRest, Driver.atPoints]
    congr 1
    funext c
    by_cases hc : c = 0 <;> simp only [hc, if_true, if_false, Bool.false_eq_true]
  rw [hback]
  refine ⟨_, _, ?_, ?_, settle_of_advance?_eq_none rfl⟩
  · rfl
  · rfl

/-! ## §5 Sessions at Rest -/

/-- A session at rest, with the seed that its engine began with. -/
structure Rests (s : Session ε) (e₀ : ε) (seed : Nat) : Prop where
  isRunOf : s.IsRunOf e₀
  seed_eq : s.driver.seed = seed
  atRest : ∃ (d : Driver ε) (p : CallPoint), s.driver = d.atRest p ∧
    (p = .outside ∨ ∃ r, p = .returned r)

variable {e₀ : ε} {seed : Nat}

theorem Rests.withClock (h : s.Rests e₀ seed) {clock : Nat} :
    Rests { s with clock := clock } e₀ seed := ⟨h.isRunOf, h.seed_eq, h.atRest⟩

theorem rests_start {grace : Duration} {clock : Nat} :
    (start e₀ seed grace clock).Rests e₀ seed := by
  have hwaits : settle none ⟨Driver.spawn e₀ seed grace, clock, none⟩ =
      settle none ⟨Driver.atRest { Driver.spawn e₀ seed grace with phase := .awaitingProblem }
        .outside, clock + 1, none⟩ := by
    -- the worker says that it waits
    apply settle_of_exists_steps (n := 1)
    refine ⟨_, rfl, ?_⟩
    unfold Driver.atRest Driver.atPoints
    simp only [Driver.moveWorker, Driver.spawn]
    congr 1
    funext c
    by_cases hc : c = 0 <;> simp only [hc, if_true, if_false]
  have hstart : start e₀ seed grace clock = ⟨Driver.atRest
      { Driver.spawn e₀ seed grace with phase := .awaitingProblem } .outside, clock + 1, none⟩ := by
    show (settle none ⟨Driver.spawn e₀ seed grace, clock, none⟩).getD _ = _
    rw [hwaits, settle_of_advance?_eq_none rfl]
    rfl
  refine ⟨isRunOf_start, ?_, ?_⟩
  · rw [hstart]
    rfl
  · rw [hstart]
    exact ⟨_, _, rfl, Or.inl rfl⟩

omit [SearchEngine ε] in
theorem begin?_atRest {p : CallPoint} (hp : p = .outside ∨ ∃ r, p = .returned r) {r : Request} :
    (d.atRest p).begin? 0 r =
      some (Driver.atRest { d with history := .called 0 r :: d.history } r.entry) := by
  have hmoved : ((d.atRest p).note (.called 0 r)).moveCall 0 r.entry =
      Driver.atRest { d with history := .called 0 r :: d.history } r.entry := by
    unfold Driver.atRest Driver.atPoints
    simp only [Driver.note, Driver.moveCall]
    congr 1
    funext c
    by_cases hc : c = 0 <;> simp only [hc, if_true, if_false]
  rw [← hmoved]
  rcases hp with rfl | ⟨r', rfl⟩
  · rfl
  · rfl

/-- A driver at rest is handed a job, and is at rest again with the answer. -/
theorem settle_solve {status : Status} {e : ε} (clock : Nat) (deadline : Option Nat)
    (hseed : job.seed = d.seed) (hcutoff : clockSpan ≤ job.cutoff.nanos)
    (hends : EndsSearch (SearchEngine.start d.engine job) status e) :
    ∃ (d' : Driver ε) (clock' : Nat), d'.seed = d.seed ∧
      settle none ⟨d.atRest (.lockAnswers job), clock, deadline⟩ =
        some ⟨d'.atRest (.returned (.answer (.ok (Driver.classify status)))), clock', none⟩ := by
  obtain ⟨d₁, t, clock₁, hseed₁, hengine₁, h₁⟩ := settle_takeUp clock deadline hseed hcutoff
  obtain ⟨d₂, clock₂, hseed₂, -, h₂⟩ :=
    settle_search (t := t) clock₁ hends hengine₁
  obtain ⟨clock₃, h₃⟩ := settle_leave d₂ t status clock₂
  obtain ⟨clock₄, h₄⟩ :=
    settle_cancel { d₂ with solving := false, phase := .processingAnswer } t status clock₃
  obtain ⟨d₅, clock₅, hseed₅, -, h₅⟩ :=
    settle_handBack { d₂ with solving := false, phase := .processingAnswer } t status clock₄
  refine ⟨d₅, clock₅, ?_, h₁.trans (h₂.trans (h₃.trans (h₄.trans h₅)))⟩
  exact hseed₅.trans (hseed₂.trans hseed₁)

/-- A session at rest solves a job with the engine's seed and comes back to rest. -/
theorem Rests.solve (h : s.Rests e₀ seed) {status : Status} {e : ε} (hseed : job.seed = seed)
    (hcutoff : clockSpan ≤ job.cutoff.nanos)
    (hends : EndsSearch (SearchEngine.start s.driver.engine job) status e) :
    (s.solve job none).1 = .ok (Driver.classify status) ∧ (s.solve job none).2.Rests e₀ seed := by
  obtain ⟨d, p, hd, hp⟩ := h.atRest
  have hseed_eq : d.seed = seed := by
    rw [← h.seed_eq, hd]
    rfl
  have hengine : s.driver.engine = d.engine := by
    rw [hd]
    rfl
  -- the job is taken up from rest, with the call in the books
  rw [hengine] at hends
  obtain ⟨d', clock', hseed', hsettle⟩ :=
    settle_solve (d := { d with history := .called 0 (.solve job) :: d.history }) s.clock s.deadline
      (hseed.trans hseed_eq.symm) hcutoff hends
  have hcall : s.call? (.solve job) none =
      some ⟨d'.atRest (.returned (.answer (.ok (Driver.classify status)))), clock', none⟩ := by
    unfold call?
    rw [hd, begin?_atRest hp]
    exact hsettle
  have hsolve : s.solve job none = (.ok (Driver.classify status),
      ⟨d'.atRest (.returned (.answer (.ok (Driver.classify status)))), clock', none⟩) := by
    unfold Session.solve
    rw [hcall]
    rfl
  refine ⟨by rw [hsolve], h.isRunOf.solve, ?_, ?_⟩
  · rw [hsolve, ← hseed_eq, ← hseed']
    rfl
  · rw [hsolve]
    exact ⟨d', _, rfl, Or.inr ⟨_, rfl⟩⟩

end Session

end SpectrumPacking
