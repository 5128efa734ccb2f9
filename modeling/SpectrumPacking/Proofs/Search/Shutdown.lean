import SpectrumPacking.Proofs.Search.Calls

/-!
# The End of a Driver Is Final

Once the worker has to end, because of a shutdown or of a fault, it has to end for good.  A call for
a job that starts then is refused and sends nothing (`Driver.isRefused_step`).  The stop signal of a
shutdown is not lost: the worker takes it down only before it looks once more whether it has to end
(`Signals.Doomed`).  When the worker is gone, every call for a job comes to its end by steps of
callers alone (`Driver.Returns`).
-/

namespace SpectrumPacking

open Search

namespace Search

/-! ## §1 Terminated Exchanges and Signals -/

namespace Exchange

variable {ε : Type} [SearchEngine ε] {x y : Exchange ε} {o : Option CallerId} {c : CallerId}

theorem Step.terminated (h : x.Step o y) (hterm : x.terminated = true) : y.terminated = true := by
  cases h with
  | terminate _ | record _ => rfl
  | _ => exact hterm

/-- The worker has to end once it was said so, and once it has sent a fault. -/
structure Told (x : Exchange ε) : Prop where
  said : .terminated ∈ x.log → x.terminated = true
  fault : ∀ t e, .published t (.error e) ∈ x.log → x.terminated = true

theorem Told.step (hx : x.Told) (hended : x.Ended) (h : x.Step o y) : y.Told := by
  obtain ⟨hsaid, hfault⟩ := hx
  cases h with
  | terminate _ | record _ => exact ⟨fun _ => rfl, fun _ _ _ => rfl⟩
  | publishFailure h =>
    have hterm := hended.finished (by rw [h]; rfl)
    exact ⟨fun _ => hterm, fun _ _ _ => hterm⟩
  | aside he => constructor <;> grind [Event.isAside]
  -- other events say nothing about the end
  | call _ | send _ | deliver _ _ | accept _ | conclude _ _ | publish _ => constructor <;> grind
  | _ => exact ⟨hsaid, hfault⟩

/-- A caller sends a job from where it has found the worker at work. -/
theorem Step.role_of_sent {t : Ticket} {job : Job} (h : x.Step o y)
    (hlog : .sent c t job ∈ y.log) : .sent c t job ∈ x.log ∨ ∃ job, x.role c = .sending job := by
  cases h with
  | send hc =>
    rcases List.mem_cons.1 hlog with heq | hmem
    · cases heq
      exact Or.inr ⟨_, hc⟩
    · exact Or.inl hmem
  | aside he =>
    rcases List.mem_cons.1 hlog with rfl | hmem
    · cases he
    · exact Or.inl hmem
  | call _ | terminate _ | deliver _ _ | accept _ | conclude _ _ | record _ | publish _
  | publishFailure _ => exact Or.inl (by simpa using hlog)
  | _ => exact Or.inl hlog

end Exchange

namespace Signals

variable {x y : Signals}

/-- The worker has to end, and if it is past the point where it looks whether it has to, the stop
signal is up. -/
structure Doomed (x : Signals) : Prop where
  terminated : x.terminated = true
  stop : x.flight.isBound = true → x.stop = true

theorem Doomed.step (hx : x.Doomed) (h : x.Step y) : y.Doomed := by
  obtain ⟨hterm, hstop⟩ := hx
  cases h with
  | pass h hgoing =>
    rw [hterm] at hgoing
    cases hgoing
  | raise _ | quell _ | alarm _ => exact ⟨hterm, fun _ => rfl⟩
  | terminate _ | record _ => exact ⟨rfl, hstop⟩
  | accept h | arm h => exact ⟨hterm, fun _ => hstop (by rw [h]; rfl)⟩
  -- the worker comes to a point where the stop signal may be down
  | begin | forgetInterrupt | forgetCutoff | lower | refuse | conclude | close | settle | expire
  | spare | answer | publish | mismatch | unarmed | giveUp | publishFailure | stop =>
    exact ⟨hterm, nofun⟩
  | _ => exact ⟨hterm, hstop⟩

end Signals

/-! ## §2 Points of a Call for a Job -/

namespace CallPoint

/-- A caller is in a call for a job that is refused once the worker has to end, or is back from
it. -/
def IsRefused (p : CallPoint) : Prop :=
  (∃ job, p = lockAnswers job ∨ p = readTerminated job) ∨
    p = unlockAnswers none (.error .workerTerminated) ∨
    p = returned (.answer (.error .workerTerminated))

/-- Whether a caller has the lock of the problem queue. -/
def isSending : CallPoint → Bool
  | send _ | unlockProblems _ => true
  | _ => false

variable {p : CallPoint}

theorem hasTurn_of_isSending (h : p.isSending = true) : p.role.hasTurn = true := by
  cases p with
  | send job => rfl
  | unlockProblems ticket => cases ticket <;> rfl
  | _ => cases h

/-- A caller in a call for a job has its turn, or waits for it. -/
theorem hasTurn_or_of_isSolve (h : p.isSolve = true) :
    p.role.hasTurn = true ∨ ∃ job, p = lockAnswers job := by
  cases p with
  | lockAnswers job => exact Or.inr ⟨job, rfl⟩
  | unlockProblems ticket => cases ticket <;> exact Or.inl rfl
  | _ => first | exact Or.inl rfl | cases h

end CallPoint

end Search

namespace Driver

variable {ε : Type} [SearchEngine ε] {e₀ : ε} {seed : Nat} {grace : Duration} {d d' : Driver ε}
  {c : CallerId} {l : Label}

/-! ## §3 The End Is Final -/

theorem terminated_step (h : d.step l = some d') (hterm : d.terminated = true) :
    d'.terminated = true := (exchange_step h).terminated hterm

theorem terminated_of_reaches (h : d.Reaches d') (hterm : d.terminated = true) :
    d'.terminated = true := by
  induction h with
  | start => exact hterm
  | next l _ hstep ih => exact terminated_step hstep ih

theorem isRefused_step (hterm : d.terminated = true) (hc : (d.calls c).IsRefused)
    (hl : l.caller? ≠ some c) (h : d.step l = some d') : (d'.calls c).IsRefused := by
  rcases calls_step h hl with hsame | hcall
  · rw [hsame]
    exact hc
  rcases hc with ⟨job, hc | hc⟩ | hc | hc
  · simp only [callStep, hc] at hcall
    split at hcall <;> cases hcall
    exact Or.inl ⟨job, Or.inr calls_moveCall_self⟩
  · simp only [callStep, hc, hterm] at hcall
    cases hcall
    exact Or.inr (Or.inl calls_moveCall_self)
  · simp only [callStep, hc] at hcall
    cases hcall
    exact Or.inr (Or.inr calls_moveCall_self)
  · simp only [callStep, hc] at hcall
    cases hcall

omit [SearchEngine ε] in
theorem not_sending_of_isRefused (hc : (d.calls c).IsRefused) {job : Job} :
    d.exchange.role c ≠ .sending job := by
  rw [exchange_role]
  rcases hc with ⟨job, hc | hc⟩ | hc | hc <;> rw [hc] <;> exact nofun

/-- A call for a job that starts when the worker has to end is refused, and sends nothing. -/
theorem isRefused_of_run (hterm : d.terminated = true) {job : Job} {d₁ : Driver ε}
    (h : d.step (.begin c (.solve job)) = some d₁) {ls : List Label}
    (hls : ∀ l ∈ ls, l.caller? ≠ some c) (hrun : d₁.run? ls = some d') :
    (d'.calls c).IsRefused ∧
      ∀ t job', .sent c t job' ∈ d'.history → .sent c t job' ∈ d.history := by
  obtain ⟨-, rfl⟩ := callers_begin h
  -- other callers and the worker do not change this, step by step
  have hkeep := run?_induct
    (P := fun e => e.terminated = true ∧ (e.calls c).IsRefused ∧
      ∀ t job', .sent c t job' ∈ e.history → .sent c t job' ∈ d.history)
    ?_ hls ⟨terminated_step h hterm, ?_, ?_⟩ hrun
  · exact hkeep.2
  · rintro e e' l ⟨hterm, hc, hsent⟩ hl hstep
    refine ⟨terminated_step hstep hterm, isRefused_step hterm hc hl hstep, ?_⟩
    intro t job' ht
    rcases (exchange_step hstep).role_of_sent ht with ht | ⟨job', hrole⟩
    · exact hsent t job' ht
    · exact absurd hrole (not_sending_of_isRefused hc)
  · exact Or.inl ⟨job, Or.inl calls_moveCall_self⟩
  · intro t job' ht
    simpa [moveCall, note] using ht

/-! ## §4 The Lock of the Problem Queue -/

/-- The lock of the problem queue is held by a caller that sends a job. -/
def Locks (d : Driver ε) : Prop := ∀ c, d.problemLock = some c → (d.calls c).isSending = true

omit [SearchEngine ε] in
/-- A caller takes the lock of the problem queue to send, and gives it back at the end of that. -/
theorem problemLock_callStep (h : d.callStep c = some d') :
    d'.problemLock = none ∨ (d'.problemLock = some c ∧ (d'.calls c).isSending = true) ∨
      (d'.problemLock = d.problemLock ∧
        ((d.calls c).isSending = true → (d'.calls c).isSending = true)) := by
  cases hc : d.calls c with
  | outside | returned =>
    simp only [callStep, hc] at h
    cases h
  -- the lock is taken, held and given back at three points
  | lockProblems =>
    simp only [callStep, hc] at h
    split at h <;> cases h
    exact Or.inr (Or.inl ⟨rfl, by rw [calls_moveCall_self]; rfl⟩)
  | send =>
    simp only [callStep, hc] at h
    split at h <;> cases h <;>
      exact Or.inr (Or.inr ⟨rfl, fun _ => by rw [calls_moveCall_self]; rfl⟩)
  | unlockProblems =>
    simp only [callStep, hc] at h
    cases h
    exact Or.inl rfl
  | lockAnswers | takeSender | join =>
    simp only [callStep, hc] at h
    split at h <;> cases h
    exact Or.inr (Or.inr ⟨rfl, (absurd · Bool.false_ne_true)⟩)
  | receive t =>
    simp only [callStep, hc] at h
    split at h
    · cases h
      exact Or.inr (Or.inr ⟨rfl, (absurd · Bool.false_ne_true)⟩)
    · split at h <;> cases h
      exact Or.inr (Or.inr ⟨rfl, (absurd · Bool.false_ne_true)⟩)
  | readTerminated | unlockAnswers | takeHandle | terminate | raiseStop | closeQueue =>
    simp only [callStep, hc] at h
    cases h
    exact Or.inr (Or.inr ⟨rfl, (absurd · Bool.false_ne_true)⟩)
  | interrupting p | stopping p =>
    unfold callStep at h
    rw [hc] at h
    cases p with
    | leave =>
      cases h
      exact Or.inr (Or.inr ⟨rfl, (absurd · Bool.false_ne_true)⟩)
    | enter | look | record | raise =>
      obtain ⟨⟨e, q⟩, he, rfl⟩ := Option.map_eq_some_iff.1 h
      obtain ⟨-, hlock⟩ := callers_interruptStep he
      exact Or.inr (Or.inr ⟨hlock, (absurd · Bool.false_ne_true)⟩)

theorem Locks.step (hd : d.Locks) (h : d.step l = some d') : d'.Locks := by
  intro c hc
  rcases callers_step h with ⟨c', r, rfl⟩ | ⟨c', rfl⟩ | ⟨hcalls, hlock⟩
  · -- a caller that starts a call holds no lock
    obtain ⟨hfree, rfl⟩ := callers_begin h
    have hsending := hd c hc
    by_cases hne : c = c'
    · rw [hne] at hsending
      rcases hfree with hfree | ⟨r, hfree⟩ <;> rw [hfree] at hsending <;> cases hsending
    · rw [calls_moveCall_of_ne hne]
      exact hsending
  · rcases problemLock_callStep h with hnone | ⟨hlock, hsending⟩ | ⟨hlock, hsending⟩
    · rw [hnone] at hc
      cases hc
    · rw [hlock] at hc
      cases hc
      exact hsending
    · have hbefore := hd c (hlock ▸ hc)
      by_cases hne : c = c'
      · subst hne
        exact hsending hbefore
      · obtain ⟨p, hp, -⟩ := calls_callStep h
        rw [hp, calls_moveCall_of_ne hne]
        exact hbefore
  · rw [hcalls]
    exact hd c (hlock ▸ hc)

theorem locks_of_reaches (h : (spawn e₀ seed grace).Reaches d) : d.Locks := by
  induction h with
  | start => exact nofun
  | next l _ hstep ih => exact ih.step hstep

/-! ## §5 Calls Come to Their End -/

theorem run?_append {ls ls' : List Label} :
    d.run? (ls ++ ls') = (d.run? ls).bind fun d => d.run? ls' := by
  induction ls generalizing d with
  | nil => rfl
  | cons l ls ih =>
    rw [List.cons_append, run?, run?]
    cases d.step l with
    | none => rfl
    | some e => exact ih

/-- By steps of its own a caller comes back from its call, and others can have their turn. -/
def Finishes (d : Driver ε) (c : CallerId) (r : Except EngineError Answer) : Prop :=
  ∃ n e, d.run? (List.replicate n (.call c)) = some e ∧ e.calls c = .returned (.answer r) ∧
    e.answerLock = none ∧ e.worker = d.worker ∧ e.terminated = d.terminated ∧
    ∀ c', c' ≠ c → e.calls c' = d.calls c'

theorem Finishes.head {r : Except EngineError Answer} (hd' : d'.Finishes c r)
    (h : d.callStep c = some d') (hworker : d'.worker = d.worker)
    (hterm : d'.terminated = d.terminated) : d.Finishes c r := by
  obtain ⟨n, e, hrun, hc, hlock, hw, ht, hothers⟩ := hd'
  refine ⟨n + 1, e, ?_, hc, hlock, hw.trans hworker, ht.trans hterm, ?_⟩
  · rw [List.replicate_succ, run?, show d.step (.call c) = some d' from h]
    exact hrun
  · intro c' hne
    obtain ⟨p, hp, -⟩ := calls_callStep h
    rw [hothers c' hne, hp, calls_moveCall_of_ne hne]

theorem finishes_unlockAnswers {ticket : Option Ticket} {r : Except EngineError Answer}
    (hc : d.calls c = .unlockAnswers ticket r) : d.Finishes c r := by
  have hstep : d.callStep c =
      some ({ d with answerLock := none }.moveCall c (.returned (.answer r))) := by
    simp only [callStep, hc]
  refine ⟨1, { d with answerLock := none }.moveCall c (.returned (.answer r)), ?_,
    calls_moveCall_self, rfl, rfl, rfl, fun c' hne => calls_moveCall_of_ne hne⟩
  rw [List.replicate_one, run?, show d.step (.call c) = _ from hstep]
  rfl

theorem finishes_readTerminated (hterm : d.terminated = true) {job : Job}
    (hc : d.calls c = .readTerminated job) : d.Finishes c (.error .workerTerminated) := by
  have hstep : d.callStep c =
      some (d.moveCall c (.unlockAnswers none (.error .workerTerminated))) := by
    simp only [callStep, hc, hterm, if_true]
  exact (finishes_unlockAnswers calls_moveCall_self).head hstep rfl rfl

/-- A caller that starts its turn once the worker has to end is refused. -/
theorem finishes_lockAnswers (hterm : d.terminated = true) {job : Job}
    (hc : d.calls c = .lockAnswers job) (hlock : d.answerLock = none) :
    d.Finishes c (.error .workerTerminated) := by
  have hstep : d.callStep c =
      some ({ d with answerLock := some c }.moveCall c (.readTerminated job)) := by
    simp only [callStep, hc, hlock, Option.isNone_none, if_true]
  have hterm' : ({ d with answerLock := some c }.moveCall c (.readTerminated job)).terminated =
      true := hterm
  exact (finishes_readTerminated hterm' calls_moveCall_self).head hstep rfl rfl

omit [SearchEngine ε] in
/-- Once the worker is gone, a caller that waits for an answer can go on: it gets one that was left
behind, or it hears that there is none. -/
theorem exists_callStep_receive (hw : d.worker = .exited) {t : Ticket}
    (hc : d.calls c = .receive t) :
    ∃ d' r, d.callStep c = some d' ∧ d'.calls c = .unlockAnswers (some t) r ∧
      d'.worker = d.worker ∧ d'.terminated = d.terminated := by
  cases ha : d.answers with
  | nil =>
    have hstep : d.callStep c =
        some (d.moveCall c (.unlockAnswers (some t) (.error .workerTerminated))) := by
      simp only [callStep, hc, ha, hw, if_true]
    exact ⟨_, _, hstep, calls_moveCall_self, rfl, rfl⟩
  | cons answer rest =>
    obtain ⟨t', r⟩ := answer
    have hstep : d.callStep c =
        some (({ d with answers := rest }.note (.delivered c t t' r)).moveCall c
          (.unlockAnswers (some t) r)) := by
      simp only [callStep, hc, ha]
    exact ⟨_, r, hstep, calls_moveCall_self, rfl, rfl⟩

theorem finishes_receive (hw : d.worker = .exited) {t : Ticket} (hc : d.calls c = .receive t) :
    ∃ r, d.Finishes c r := by
  obtain ⟨d', r, hstep, hc', hworker, hterm⟩ := exists_callStep_receive hw hc
  exact ⟨r, (finishes_unlockAnswers hc').head hstep hworker hterm⟩

theorem finishes_unlockProblems (hw : d.worker = .exited) {ticket : Option Ticket}
    (hc : d.calls c = .unlockProblems ticket) : ∃ r, d.Finishes c r := by
  cases ticket with
  | none =>
    have hstep : d.callStep c = some ({ d with problemLock := none }.moveCall c
        (.unlockAnswers none (.error .workerTerminated))) := by
      simp only [callStep, hc]
    exact ⟨_, (finishes_unlockAnswers calls_moveCall_self).head hstep rfl rfl⟩
  | some t =>
    have hstep : d.callStep c =
        some ({ d with problemLock := none }.moveCall c (.receive t)) := by
      simp only [callStep, hc]
    have hw' : ({ d with problemLock := none }.moveCall c (.receive t)).worker = .exited := hw
    obtain ⟨r, hr⟩ := finishes_receive hw' calls_moveCall_self
    exact ⟨r, hr.head hstep rfl rfl⟩

theorem finishes_send (hw : d.worker = .exited) {job : Job} (hc : d.calls c = .send job) :
    ∃ r, d.Finishes c r := by
  have hstep : d.callStep c = some (d.moveCall c (.unlockProblems none)) := by
    simp [callStep, hc, hw]
  have hw' : (d.moveCall c (.unlockProblems none)).worker = .exited := hw
  obtain ⟨r, hr⟩ := finishes_unlockProblems hw' calls_moveCall_self
  exact ⟨r, hr.head hstep rfl rfl⟩

theorem finishes_lockProblems (hw : d.worker = .exited) {job : Job}
    (hc : d.calls c = .lockProblems job) (hlock : d.problemLock = none) :
    ∃ r, d.Finishes c r := by
  have hstep : d.callStep c =
      some ({ d with problemLock := some c }.moveCall c (.send job)) := by
    simp only [callStep, hc, hlock, Option.isNone_none, if_true]
  have hw' : ({ d with problemLock := some c }.moveCall c (.send job)).worker = .exited := hw
  obtain ⟨r, hr⟩ := finishes_send hw' calls_moveCall_self
  exact ⟨r, hr.head hstep rfl rfl⟩

/-- Once the worker is gone, the caller whose turn it is comes back by steps of its own. -/
theorem finishes_of_hasTurn (hd : d.exchange.Sound e₀) (hlocks : d.Locks)
    (hw : d.worker = .exited) (hc : (d.calls c).role.hasTurn = true) : ∃ r, d.Finishes c r := by
  have hterm : d.terminated = true := hd.ended.finished (by rw [exchange_hand, hw]; rfl)
  cases hp : d.calls c with
  | readTerminated job => exact ⟨_, finishes_readTerminated hterm hp⟩
  | lockProblems job =>
    refine finishes_lockProblems hw hp (Option.eq_none_iff_forall_ne_some.2 ?_)
    -- who holds the other lock has its turn, too
    intro c' hc'
    have hsending := hlocks c' hc'
    have hsame := hd.turns.unique (CallPoint.hasTurn_of_isSending hsending) hc
    rw [hsame, hp] at hsending
    cases hsending
  | send job => exact finishes_send hw hp
  | unlockProblems ticket => exact finishes_unlockProblems hw hp
  | receive t => exact finishes_receive hw hp
  | unlockAnswers ticket r => exact ⟨r, finishes_unlockAnswers hp⟩
  | returned r =>
    rw [hp] at hc
    cases r <;> cases hc
  | _ =>
    rw [hp] at hc
    cases hc

/-- A call for a job comes to its end by steps of callers alone. -/
def Returns (d : Driver ε) (c : CallerId) : Prop :=
  ∃ (cs : List CallerId) (e : Driver ε) (r : Except EngineError Answer),
    d.run? (cs.map .call) = some e ∧ e.calls c = .returned (.answer r)

theorem Finishes.returns {r : Except EngineError Answer} (h : d.Finishes c r) : d.Returns c := by
  obtain ⟨n, e, hrun, hc, -⟩ := h
  exact ⟨List.replicate n c, e, r, by rw [List.map_replicate, hrun], hc⟩

/-- Once the worker is gone, every call for a job comes to its end: whoever has its turn leaves it,
and then the caller has its own. -/
theorem returns_of_exited (hd : d.exchange.Sound e₀) (hlocks : d.Locks)
    (hw : d.worker = .exited) (hc : (d.calls c).isSolve = true) : d.Returns c := by
  rcases CallPoint.hasTurn_or_of_isSolve hc with hturn | ⟨job, hp⟩
  · obtain ⟨r, hr⟩ := finishes_of_hasTurn hd hlocks hw hturn
    exact hr.returns
  · have hterm : d.terminated = true := hd.ended.finished (by rw [exchange_hand, hw]; rfl)
    cases hlock : d.answerLock with
    | none => exact (finishes_lockAnswers hterm hp hlock).returns
    | some c' =>
      -- another caller has its turn, comes to its end, and leaves the lock free
      have hother : (d.calls c').role.hasTurn = true := (hd.turns c').2 hlock
      obtain ⟨r, n, e, hrun, -, hfree, -, hsame, hothers⟩ :=
        finishes_of_hasTurn hd hlocks hw hother
      have hne : c ≠ c' := by
        rintro rfl
        rw [hp] at hother
        cases hother
      have hp' : e.calls c = .lockAnswers job := by rw [hothers c hne, hp]
      obtain ⟨n', e', hrun', hback, -⟩ := finishes_lockAnswers (hsame.trans hterm) hp' hfree
      refine ⟨List.replicate n c' ++ List.replicate n' c, e', _, ?_, hback⟩
      rw [List.map_append, List.map_replicate, List.map_replicate, run?_append, hrun]
      exact hrun'

/-! ## §6 Drivers at Their End -/

theorem Reaches.trans {e : Driver ε} (h : d.Reaches d') (h' : d'.Reaches e) : d.Reaches e := by
  induction h' with
  | start => exact h
  | next l _ hstep ih => exact ih.next l hstep

theorem told_of_reaches (h : (spawn e₀ seed grace).Reaches d) : d.exchange.Told := by
  induction h with
  | start => exact ⟨nofun, nofun⟩
  | next l hreaches hstep ih =>
    exact ih.step (sound_of_reaches hreaches).ended (exchange_step hstep)

theorem doomed_of_reaches (h : (spawn e₀ seed grace).Reaches d) (hd : d.signals.Doomed)
    (h' : d.Reaches d') : d'.signals.Doomed := by
  induction h' with
  | start => exact hd
  | next l hreaches hstep ih =>
    exact ih.step (signals_step (sound_of_reaches (h.trans hreaches)) hstep)

/-- From where a shutdown has raised the stop signal, it is up whenever the engine searches. -/
theorem stop_of_raiseStop (h : (spawn e₀ seed grace).Reaches d) {sender handle : Bool}
    {d₁ d₂ : Driver ε} (hc : d.calls c = .raiseStop sender handle)
    (hstep : d.step (.call c) = some d₁) (h' : d₁.Reaches d₂) {t : Ticket} {job : Job}
    (hw : d₂.worker = .search t job) : d₂.stop = true := by
  have hterm : d.terminated = true :=
    (sound_of_reaches h).ended.closing c (by rw [exchange_role, hc]; rfl)
  have hraised : d₁ = d.raise.moveCall c (.closeQueue sender handle) := by
    simp only [step, callStep, hc] at hstep
    cases hstep
    rfl
  have hdoomed : d₁.signals.Doomed := by
    rw [hraised]
    exact ⟨hterm, fun _ => rfl⟩
  refine (doomed_of_reaches (h.next _ hstep) hdoomed h').stop ?_
  show d₂.worker.flight.isBound = true
  rw [hw]
  rfl

/-- The end of a driver is final, and no call for a job waits for it in vain. -/
structure EndsForGood (d : Driver ε) : Prop where
  /-- The worker has to end once it was said so, by a shutdown or because of a fault. -/
  said : .terminated ∈ d.history → d.terminated = true
  /-- It has to end before it sends a fault. -/
  fault : ∀ t e, .published t (.error e) ∈ d.history → d.terminated = true
  /-- Once it has to, it always has to. -/
  final : d.terminated = true → ∀ d', d.Reaches d' → d'.terminated = true
  /-- A call for a job that starts then sends nothing, and returns nothing but that the worker
  ended; it does so by steps of its own, unless another caller has its turn. -/
  refused : d.terminated = true → ∀ c job d₁ ls d₂, d.step (.begin c (.solve job)) = some d₁ →
    (∀ l ∈ ls, l.caller? ≠ some c) → d₁.run? ls = some d₂ →
    (∀ t job', .sent c t job' ∈ d₂.history → .sent c t job' ∈ d.history) ∧
      (∀ r, d₂.calls c = .returned r → r = .answer (.error .workerTerminated)) ∧
        ((∀ c', c' ≠ c → d₂.answerLock ≠ some c') → ∃ n d₃,
          d₂.run? (List.replicate n (.call c)) = some d₃ ∧
            d₃.calls c = .returned (.answer (.error .workerTerminated)))
  /-- The stop signal that a shutdown raises is up whenever the engine searches. -/
  raised : ∀ c sender handle d₁ d₂ t job, d.calls c = .raiseStop sender handle →
    d.step (.call c) = some d₁ → d₁.Reaches d₂ → d₂.worker = .search t job → d₂.stop = true
  /-- Once the worker is gone, a caller that waits for an answer can go on. -/
  goes_on : d.worker = .exited → ∀ c t, d.calls c = .receive t → ∃ d₁, d.step (.call c) = some d₁
  /-- Every call for a job then comes to its end by steps of callers alone. -/
  returns : d.worker = .exited → ∀ c, (d.calls c).isSolve = true → d.Returns c

/-- A call that is refused comes back by steps of its own, unless another caller has its turn. -/
theorem exists_run_of_isRefused (hd : d.exchange.Sound e₀) (hterm : d.terminated = true)
    (hc : (d.calls c).IsRefused) (hlock : ∀ c', c' ≠ c → d.answerLock ≠ some c') :
    ∃ n d', d.run? (List.replicate n (.call c)) = some d' ∧
      d'.calls c = .returned (.answer (.error .workerTerminated)) := by
  have hrun : d.Finishes c (.error .workerTerminated) → ∃ n d',
      d.run? (List.replicate n (.call c)) = some d' ∧
        d'.calls c = .returned (.answer (.error .workerTerminated)) := by
    rintro ⟨n, d', hrun, hback, -⟩
    exact ⟨n, d', hrun, hback⟩
  rcases hc with ⟨job, hc | hc⟩ | hc | hc
  · refine hrun (finishes_lockAnswers hterm hc (Option.eq_none_iff_forall_ne_some.2 ?_))
    intro c' hc'
    -- the lock can only be held by the caller itself, which has not asked for it yet
    have hsame : c' = c := Decidable.byContradiction fun hne => hlock c' hne hc'
    have hturn : (d.calls c).role.hasTurn = true := (hd.turns c).2 (hsame ▸ hc')
    rw [hc] at hturn
    cases hturn
  · exact hrun (finishes_readTerminated hterm hc)
  · exact hrun (finishes_unlockAnswers hc)
  · exact ⟨0, d, rfl, hc⟩

/-- In every state that any run can reach, the end is final. -/
theorem endsForGood_of_reaches (h : (spawn e₀ seed grace).Reaches d) : d.EndsForGood := by
  have hd := sound_of_reaches h
  constructor
  case said =>
    exact (told_of_reaches h).said
  case fault =>
    exact (told_of_reaches h).fault
  case final =>
    intro hterm d' h'
    exact terminated_of_reaches h' hterm
  case refused =>
    intro hterm c job d₁ ls d₂ hstep hls hrun
    obtain ⟨hc, hsent⟩ := isRefused_of_run hterm hstep hls hrun
    have hreaches : (spawn e₀ seed grace).Reaches d₂ := (h.next _ hstep).run hrun
    refine ⟨hsent, ?_, ?_⟩
    · intro r hr
      rw [hr] at hc
      rcases hc with ⟨job, hc | hc⟩ | hc | hc <;> cases hc
      rfl
    -- that the worker has to end holds to the end of the run
    · have hterm₂ := terminated_of_reaches (Reaches.start.run hrun) (terminated_step hstep hterm)
      exact exists_run_of_isRefused (sound_of_reaches hreaches) hterm₂ hc
  case raised =>
    intro c sender handle d₁ d₂ t job hc hstep h' hw
    exact stop_of_raiseStop h hc hstep h' hw
  case goes_on =>
    intro hw c t hc
    obtain ⟨d₁, r, hstep, -⟩ := exists_callStep_receive hw hc
    exact ⟨d₁, hstep⟩
  case returns =>
    intro hw c hc
    exact returns_of_exited hd (locks_of_reaches h) hw hc

/-- The steps of a shutdown that comes while a job spins in the engine, up to the closing of the
problem queue. -/
def shutdownSteps (job : Job) : List Label :=
  [.begin 0 (.solve job)] ++ Label.times 5 (.call 0) ++ Label.times 13 .worker ++
    [.begin 1 .shutdown] ++ Label.times 9 (.call 1)

theorem endsForGood_of_reaches_shutdown :
    ∃ d : Driver ScriptedEngine,
      (spawn (.ofReplies [.spin (.status .unknown)]) 7 ⟨0⟩).Reaches d ∧
        d.worker = .search 0 ⟨⟨1, [[1]]⟩, ⟨1⟩, 7⟩ ∧ d.calls 1 = .closeQueue true true ∧
          d.terminated = true ∧ d.EndsForGood := by
  have hrun : ∃ d, (spawn (ScriptedEngine.ofReplies [.spin (.status .unknown)]) 7 ⟨0⟩).run?
      (shutdownSteps ⟨⟨1, [[1]]⟩, ⟨1⟩, 7⟩) = some d ∧
        d.worker = .search 0 ⟨⟨1, [[1]]⟩, ⟨1⟩, 7⟩ ∧ d.calls 1 = .closeQueue true true ∧
          d.terminated = true := ⟨_, rfl, rfl, rfl, rfl⟩
  obtain ⟨d, hd, hw, hc, hterm⟩ := hrun
  have hreaches := Reaches.start.run hd
  exact ⟨d, hreaches, hw, hc, hterm, endsForGood_of_reaches hreaches⟩

end Driver

end SpectrumPacking
