import SpectrumPacking.Proofs.Search.Calls
import SpectrumPacking.Proofs.Search.Interrupts

/-!
# Jobs Are Stopped on Their Own Account

What the invariants of the signals say about a driver: a job is answered TIMEOUT if and only if its
own time ran out or an interrupt met it, an interrupt that met no job has changed nothing, and no
timer and no interrupt touches a flag on account of an earlier job.
-/

namespace SpectrumPacking

open Search

namespace Driver

variable {ε : Type} {e₀ : ε} {seed : Nat} {grace : Duration} {d d' : Driver ε} {c : CallerId}

/-! ## §1 Runs -/

theorem signals_sound_spawn : (spawn e₀ seed grace).signals.Sound where
  gate := ⟨⟨nofun, nofun⟩, fun _ => ⟨nofun, nofun⟩, nofun⟩
  course := ⟨nofun, nofun, nofun⟩
  solving := ⟨fun _ => rfl, nofun⟩
  unanswered := ⟨nofun, nofun, nofun⟩
  meetsJobs := throughout_nil
  timers := ⟨nofun, fun _ _ _ => rfl, nofun, fun _ h => absurd rfl h, nofun, nofun⟩
  expiries := ⟨nofun, nofun⟩
  cutoffs := ⟨nofun, nofun, nofun, nofun⟩
  interrupts := ⟨nofun, nofun, nofun⟩
  alarms := nofun
  outcomes := ⟨nofun, nofun, nofun⟩
  faults := ⟨nofun, nofun⟩

theorem signals_sound_of_reaches [SearchEngine ε] (h : (spawn e₀ seed grace).Reaches d) :
    d.signals.Sound := by
  induction h with
  | start => exact signals_sound_spawn
  | next l hreaches hstep ih =>
    exact ih.step (signals_step (sound_of_reaches hreaches) hstep)

/-! ## §2 What an Interrupt Reports -/

/-- An interrupt has landed if and only if it is past the point where it lands. -/
def Reports (d : Driver ε) : Prop :=
  ∀ c, (d.calls c).isInterrupt = true →
    ((d.calls c).hasLanded = true ↔ SinceCall d.history c (.landed c))

theorem Reports.of_callStep (hd : d.Reports) (hc : (d.calls c).isInterrupt = true)
    (h : d.callStep c = some d') :
    (d'.calls c).hasLanded = true ↔ SinceCall d'.history c (.landed c) := by
  obtain ⟨p, hp⟩ := interrupting_of_callStep hc h
  rcases callStep_interrupting hp h with ⟨-, hhistory, hlanded⟩ | ⟨hlanded, hhistory⟩
  · rw [hlanded, hhistory]
    exact hd c hc
  · refine iff_of_true hlanded ?_
    rcases hhistory with hhistory | ⟨hbefore, hhistory⟩
    · rw [hhistory]
      exact sinceCall_cons.2 (Or.inl rfl)
    · rw [hhistory]
      exact sinceCall_cons.2 (Or.inr ⟨(hd c hc).1 hbefore, nofun⟩)

variable [SearchEngine ε] {l : Label}

/-- An interrupt of a caller lands by a step of its own. -/
theorem ne_landed_of_calls_eq (hd : d.exchange.Sound e₀) (h : d.step l = some d')
    (hc : d'.calls c = d.calls c) : d'.history ≠ .landed c :: d.history := by
  intro hhistory
  have hstep := signals_step hd h
  have hgrip : d'.signals.grip c = d.signals.grip c := by
    rw [signals_grip, signals_grip, hc]
  obtain ⟨hbefore, hafter⟩ := hstep.grip_of_landed hhistory
  rw [hbefore, hafter] at hgrip
  cases hgrip

theorem Reports.step (hd : d.Reports) (hsound : d.exchange.Sound e₀) (h : d.step l = some d') :
    d'.Reports := by
  intro c hc
  by_cases hl : l.caller? = some c
  · -- a call that starts has not landed yet
    cases l with
    | begin c' r =>
      cases hl
      obtain ⟨-, rfl⟩ := callers_begin h
      rw [calls_moveCall_self]
      refine iff_of_false (by cases r <;> exact Bool.false_ne_true) ?_
      intro hsince
      rcases sinceCall_cons.1 hsince with heq | ⟨-, hcall⟩
      · cases heq
      · exact hcall r rfl
    | _ => cases hl
  -- a call under way is moved by its caller alone
  rcases calls_step h hl with hsame | hcall
  · rw [hsame] at hc ⊢
    rw [hd c hc]
    rcases history_step h with hhistory | ⟨e, hhistory, he⟩
    · rw [hhistory]
    · have hne : .landed c ≠ e := by
        rintro rfl
        exact ne_landed_of_calls_eq hsound h hsame hhistory
      rw [hhistory, sinceCall_cons]
      constructor
      · exact fun hsince => Or.inr ⟨hsince, fun r hr => hl (he c r hr)⟩
      · exact fun hsince => (hsince.resolve_left hne).1
  · obtain ⟨p, hp, hinterrupt⟩ := calls_callStep hcall
    have hbefore : (d.calls c).isInterrupt = true := by
      apply hinterrupt
      rw [hp, calls_moveCall_self] at hc
      exact hc
    exact hd.of_callStep hbefore hcall

theorem reports_of_reaches (h : (spawn e₀ seed grace).Reaches d) : d.Reports := by
  induction h with
  | start => exact nofun
  | next l hreaches hstep ih => exact ih.step (sound_of_reaches hreaches) hstep

/-- A caller whose interrupt has landed reports so, unless it starts another call. -/
theorem hasLanded_step (hc : (d.calls c).hasLanded = true) (hl : l.caller? ≠ some c)
    (h : d.step l = some d') : (d'.calls c).hasLanded = true := by
  rcases calls_step h hl with hsame | hcall
  · rw [hsame, hc]
  · obtain ⟨p, hp⟩ := interrupting_of_callStep (CallPoint.isInterrupt_of_hasLanded hc) hcall
    rcases callStep_interrupting hp hcall with ⟨-, -, hlanded⟩ | ⟨hlanded, -⟩
    · exact hlanded.2 hc
    · exact hlanded

/-! ## §3 Jobs and Their Stops -/

/-- Every job is stopped on its own account alone. -/
structure StopsOwnJobs (d : Driver ε) : Prop where
  /-- An answer is TIMEOUT if and only if the time of the job ran out or an interrupt met it. -/
  timeout_iff : ∀ t a, .published t (.ok a) ∈ d.history →
    (a.verdict = .timeout ↔ .expired t ∈ d.history ∨ LandedOn d.history t)
  /-- A job that an interrupt met was in flight, and is answered TIMEOUT.  A fault comes instead if
  the worker gave up waiting for the timer of the job, or if no timer could be started for it. -/
  landed : ∀ later c earlier, d.history = later ++ .landed c :: earlier →
    ∃ t, InFlight earlier t ∧ ∀ r, .published t r ∈ d.history →
      (∃ a, r = .ok a ∧ a.verdict = .timeout) ∨ r = .error (.timerCancellation d.grace) ∨
        (d.timers t = none ∧ ∃ reason, r = .error (.spawn reason))
  /-- While such a job is in the engine, the stop signal is up or about to go up. -/
  raised : ∀ t job, d.worker = .search t job → LandedOn d.history t →
    d.stop = true ∨ ∃ c, (d.calls c).grip = .raising
  /-- An interrupt reports whether it met a job. -/
  reported : ∀ c landed, d.calls c = .returned (.interrupted landed) →
    (landed = true ↔ SinceCall d.history c (.landed c))
  /-- If it reports that it met none, then none of its steps changed a flag. -/
  silent : ∀ c p d₁ ls d₂, d.calls c = .interrupting p → d.step (.call c) = some d₁ →
    (∀ l ∈ ls, l.caller? ≠ some c) → d₁.run? ls = some d₂ →
    d₂.calls c = .returned (.interrupted false) → d₁.flags = d.flags ∧ d₁.history = d.history
  /-- A timer changes a flag only if its own job is the one that the worker has in hand, if any. -/
  own_timer : ∀ t d₁, d.step (.timer t) = some d₁ →
    d₁.flags ≠ d.flags ∨ d₁.history ≠ d.history → ∀ t', d.worker.hand.ticket? = some t' → t' = t
  /-- An interrupt changes a flag only once it has met that job, and the job is in flight. -/
  own_interrupt : ∀ c p d₁,
    (d.calls c = .interrupting p ∨ ∃ sender handle, d.calls c = .stopping p sender handle) →
    d.step (.call c) = some d₁ → d₁.flags ≠ d.flags ∨ d₁.history ≠ d.history →
    HasLanded d₁.history c ∧ ∃ t, InFlight d.history t ∧
      ∀ t', d.worker.hand.ticket? = some t' → t' = t

omit [SearchEngine ε] in
theorem landedOn_of_split {log later earlier : List Event} {t : Ticket}
    (hlog : log = later ++ .landed c :: earlier) (ht : InFlight earlier t) : LandedOn log t :=
  ⟨later, c, earlier, hlog, ht.1⟩

omit [SearchEngine ε] in
/-- What is published for a job that an interrupt met. -/
theorem published_of_landedOn (hd : d.signals.Sound) {t : Ticket} (ht : LandedOn d.history t)
    {r : Except EngineError Answer} (h : .published t r ∈ d.history) :
    (∃ a, r = .ok a ∧ a.verdict = .timeout) ∨ r = .error (.timerCancellation d.grace) ∨
      (d.timers t = none ∧ ∃ reason, r = .error (.spawn reason)) := by
  cases r with
  | ok a => exact Or.inl ⟨a, rfl, (hd.outcomes.answered t a h).2 (Or.inr ht)⟩
  | error e =>
    obtain ⟨-, hfault⟩ := hd.faults.failed t e h
    -- an interrupt meets accepted jobs only
    rcases hfault ht.mem_accepted with rfl | ⟨hnone, reason, rfl⟩
    · exact Or.inr (Or.inl rfl)
    · exact Or.inr (Or.inr ⟨hnone, reason, rfl⟩)

/-- An interrupt that reports that it met no job has changed no flag. -/
theorem silent_of_interrupted_false {p : InterruptPoint} {d₁ d₂ : Driver ε} {ls : List Label}
    (hc : d.calls c = .interrupting p) (h : d.callStep c = some d₁)
    (hls : ∀ l ∈ ls, l.caller? ≠ some c) (hrun : d₁.run? ls = some d₂)
    (hback : d₂.calls c = .returned (.interrupted false)) :
    d₁.flags = d.flags ∧ d₁.history = d.history := by
  rcases callStep_interrupting hc h with ⟨hflags, hhistory, -⟩ | ⟨hlanded, -⟩
  · exact ⟨hflags, hhistory⟩
  · have hstill := run?_induct (P := fun d => (d.calls c).hasLanded = true) hasLanded_step hls
      hlanded hrun
    rw [hback] at hstill
    cases hstill

omit [SearchEngine ε] in
/-- An interrupt changes a flag only once it has met the job that the worker has in hand. -/
theorem own_interrupt_of_changes (hd : d.signals.Sound) {p : InterruptPoint} {d₁ : Driver ε}
    (hc : d.calls c = .interrupting p ∨ ∃ sender handle, d.calls c = .stopping p sender handle)
    (h : d.callStep c = some d₁) (hchange : d₁.flags ≠ d.flags ∨ d₁.history ≠ d.history) :
    HasLanded d₁.history c ∧ ∃ t, InFlight d.history t ∧
      ∀ t', d.worker.hand.ticket? = some t' → t' = t := by
  have hgrip : d.signals.grip c = p.grip := by
    rw [signals_grip]
    rcases hc with hc | ⟨sender, handle, hc⟩ <;> rw [hc] <;> rfl
  -- it has found a job in flight, and the gate keeps the job there
  have hlanding : (d.signals.grip c).isLanding = true := by
    rw [hgrip]
    rcases changes_of_interruptPoint hc h hchange with ⟨rfl, -⟩ | ⟨rfl, -⟩ <;> rfl
  constructor
  · rcases changes_of_interruptPoint hc h hchange with ⟨-, hhistory⟩ | ⟨rfl, hhistory⟩
    · rw [hhistory]
      exact hasLanded_cons.2 (Or.inl rfl)
    · rw [hhistory]
      exact hasLanded_cons.2 (Or.inr ⟨hd.interrupts.raising c hgrip, nofun, nofun⟩)
  · obtain ⟨t, ht⟩ := hd.unanswered.solving (hd.solving.landing c hlanding)
    refine ⟨t, ht, fun t' ht' => ?_⟩
    exact hd.unanswered.eq_of_landing hd.course hd.solving hlanding ht.1
      (WorkerPoint.allows_of_ticket? ht')

/-- In every state that any run can reach, every job is stopped on its own account alone. -/
theorem stopsOwnJobs_of_reaches (h : (spawn e₀ seed grace).Reaches d) : d.StopsOwnJobs := by
  have hd := signals_sound_of_reaches h
  constructor
  case timeout_iff =>
    exact hd.outcomes.answered
  case landed =>
    intro later c earlier hlog
    obtain ⟨t, ht⟩ := hd.meetsJobs later (.landed c) earlier hlog c rfl
    exact ⟨t, ht, fun r hr => published_of_landedOn hd (landedOn_of_split hlog ht) hr⟩
  case raised =>
    intro t job hw ht
    refine hd.alarms t (Or.inr ?_) ht
    show d.worker.flight = .searching t
    rw [hw]
    rfl
  case reported =>
    intro c landed hc
    have hreports := reports_of_reaches h c (by rw [hc]; rfl)
    rw [hc] at hreports
    cases landed <;> exact hreports
  case silent =>
    intro c p d₁ ls d₂ hc hstep hls hrun hback
    exact silent_of_interrupted_false hc hstep hls hrun hback
  case own_timer =>
    intro t d₁ hstep hchange t' ht'
    -- a timer that changes a flag is at work
    have hrunning : isRunning (d.signals.timers t) = true := by
      show isRunning (d.timers t) = true
      rcases changes_of_timer hstep hchange with htimer | htimer <;> rw [htimer] <;> rfl
    exact hd.timers.eq_of_isRunning hd.course hrunning (WorkerPoint.allows_of_ticket? ht')
  case own_interrupt =>
    intro c p d₁ hc hstep hchange
    exact own_interrupt_of_changes hd hc hstep hchange

/-- The steps of a job that spins in the engine until a second caller interrupts it. -/
def interruptedSteps (job : Job) : List Label :=
  [.begin 0 (.solve job)] ++ Label.times 5 (.call 0) ++ Label.times 13 .worker ++
    [.begin 1 .interrupt] ++ Label.times 5 (.call 1) ++ Label.times 6 .worker ++
    Label.times 2 (.timer 0) ++ Label.times 4 .worker ++ Label.times 2 (.call 0)

theorem stopsOwnJobs_of_reaches_interrupted :
    ∃ d : Driver ScriptedEngine,
      (spawn (.ofReplies [.spin (.status .unknown)]) 7 ⟨0⟩).Reaches d ∧
        d.calls 0 = .returned (.answer (.ok ⟨.timeout, []⟩)) ∧
          d.calls 1 = .returned (.interrupted true) ∧ d.StopsOwnJobs := by
  have hrun : ∃ d, (spawn (ScriptedEngine.ofReplies [.spin (.status .unknown)]) 7 ⟨0⟩).run?
      (interruptedSteps ⟨⟨1, [[1]]⟩, ⟨1⟩, 7⟩) = some d ∧
        d.calls 0 = .returned (.answer (.ok ⟨.timeout, []⟩)) ∧
          d.calls 1 = .returned (.interrupted true) := ⟨_, rfl, rfl, rfl⟩
  obtain ⟨d, hd, hc, hc'⟩ := hrun
  have hreaches := Reaches.start.run hd
  exact ⟨d, hreaches, hc, hc', stopsOwnJobs_of_reaches hreaches⟩

/-- The steps of a job that an interrupt meets before its timer is armed, and that gets no timer. -/
def unarmedSteps (job : Job) (reason : String) : List Label :=
  [.begin 0 (.solve job)] ++ Label.times 5 (.call 0) ++ Label.times 12 .worker ++
    [.begin 1 .interrupt] ++ Label.times 5 (.call 1) ++ [.armFailure reason] ++
    Label.times 2 .worker ++ Label.times 2 (.call 0)

/-- A job that an interrupt has met need not be answered TIMEOUT, even if the worker waits for every
timer: if none can be started for it, the job ends in this fault. -/
theorem spawn_of_interrupted :
    ∃ d : Driver ScriptedEngine, ∃ reason,
      (spawn (.ofReplies [.spin (.status .unknown)]) 7 ⟨0⟩).Reaches d ∧
        d.calls 1 = .returned (.interrupted true) ∧ LandedOn d.history 0 ∧
          d.calls 0 = .returned (.answer (.error (.spawn reason))) ∧
            ∃ r, .published 0 r ∈ d.history ∧
              ¬ ((∃ a, r = .ok a ∧ a.verdict = .timeout) ∨
                r = .error (.timerCancellation d.grace)) := by
  -- the run is computed, and its end looked at
  have hrun : ∃ d, (spawn (ScriptedEngine.ofReplies [.spin (.status .unknown)]) 7 ⟨0⟩).run?
      (unarmedSteps ⟨⟨1, [[1]]⟩, ⟨1⟩, 7⟩ "no more threads") = some d ∧
        d.calls 1 = .returned (.interrupted true) ∧
          d.calls 0 = .returned (.answer (.error (.spawn "no more threads"))) ∧
            d.history = [.delivered 0 0 0 (.error (.spawn "no more threads")),
              .published 0 (.error (.spawn "no more threads")), .terminated, .raised, .landed 1,
              .called 1 .interrupt, .accepted 0, .sent 0 0 ⟨⟨1, [[1]]⟩, ⟨1⟩, 7⟩,
              .called 0 (.solve ⟨⟨1, [[1]]⟩, ⟨1⟩, 7⟩)] := ⟨_, rfl, rfl, rfl, rfl⟩
  obtain ⟨d, hd, hc, hc', hhistory⟩ := hrun
  refine ⟨d, _, Reaches.start.run hd, hc, ?_, hc', .error (.spawn "no more threads"), ?_, ?_⟩
  · rw [hhistory]
    decide
  · rw [hhistory]
    simp
  · rintro (⟨a, ⟨⟩, -⟩ | ⟨⟨⟩⟩)

end Driver

end SpectrumPacking
