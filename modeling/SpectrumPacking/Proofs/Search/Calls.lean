import SpectrumPacking.Proofs.Search.Signals

/-!
# Callers Between Their Calls

A caller that starts no call stays where it is, or goes on with the call that it is in
(`Driver.calls_step`), and the history grows by no call of it (`Driver.history_step`).  What such
steps keep, a run of them keeps (`Driver.run?_induct`).
-/

namespace SpectrumPacking

open Search

namespace Search

/-- An event has happened, and the caller has started no call since. -/
def SinceCall (log : List Event) (c : CallerId) (e : Event) : Prop :=
  ∃ later earlier, log = later ++ e :: earlier ∧ ∀ r, .called c r ∉ later

theorem sinceCall_cons {log : List Event} {c : CallerId} {e e' : Event} :
    SinceCall (e' :: log) c e ↔ e = e' ∨ (SinceCall log c e ∧ ∀ r, e' ≠ .called c r) := by
  constructor
  · rintro ⟨later, earlier, heq, hcall⟩
    cases later with
    | nil =>
      cases heq
      exact Or.inl rfl
    | cons e₁ later =>
      cases heq
      refine Or.inr ⟨⟨later, earlier, rfl, fun r hr => hcall r (List.mem_cons_of_mem _ hr)⟩, ?_⟩
      exact fun r hr => hcall r (hr ▸ List.mem_cons_self)
  · rintro (rfl | ⟨⟨later, earlier, rfl, hcall⟩, hcall'⟩)
    · exact ⟨[], log, rfl, by simp⟩
    · refine ⟨e' :: later, earlier, rfl, fun r hr => ?_⟩
      exact (List.mem_cons.1 hr).elim (fun h => hcall' r h.symm) (hcall r)

/-- Whether a caller interrupts, or is back from an interrupt. -/
def CallPoint.isInterrupt : CallPoint → Bool
  | interrupting _ | returned (.interrupted _) => true
  | _ => false

/-- Whether an interrupt has met a job in flight. -/
def CallPoint.hasLanded : CallPoint → Bool
  | interrupting .raise | interrupting (.leave true) | returned (.interrupted true) => true
  | _ => false

theorem CallPoint.isInterrupt_of_hasLanded {p : CallPoint} (h : p.hasLanded = true) :
    p.isInterrupt = true := by
  unfold hasLanded at h
  split at h
  · rfl
  · rfl
  · rfl
  · cases h

end Search

namespace Driver

variable {ε : Type} {d d' : Driver ε} {c : CallerId}

/-! ## §1 Who Moves -/

@[simp] theorem calls_moveCall_self {p : CallPoint} : (d.moveCall c p).calls c = p := if_pos rfl

theorem calls_moveCall_of_ne {c' : CallerId} {p : CallPoint} (h : c ≠ c') :
    (d.moveCall c' p).calls c = d.calls c := if_neg h

theorem callers_interruptStep {p q : InterruptPoint} (h : d.interruptStep c p = some (d', q)) :
    d'.calls = d.calls ∧ d'.problemLock = d.problemLock := by
  cases p with
  | enter =>
    obtain ⟨e, he, heq⟩ := Option.map_eq_some_iff.1 h
    obtain ⟨-, rfl⟩ := enterGate?_eq_some.1 he
    cases heq
    exact ⟨rfl, rfl⟩
  | look | record | raise | leave =>
    cases h
    exact ⟨rfl, rfl⟩

/-- A step of a caller moves this caller alone, and leads into an interrupt only from within it. -/
theorem calls_callStep (h : d.callStep c = some d') :
    ∃ p, d'.calls = (d.moveCall c p).calls ∧
      (p.isInterrupt = true → (d.calls c).isInterrupt = true) := by
  cases hc : d.calls c with
  | outside | returned =>
    simp only [callStep, hc] at h
    cases h
  | lockAnswers | lockProblems | send | takeSender | join =>
    simp only [callStep, hc] at h
    split at h <;> cases h <;> exact ⟨_, rfl, (absurd · Bool.false_ne_true)⟩
  | receive t =>
    simp only [callStep, hc] at h
    split at h
    · cases h
      exact ⟨_, rfl, (absurd · Bool.false_ne_true)⟩
    · split at h <;> cases h
      exact ⟨_, rfl, (absurd · Bool.false_ne_true)⟩
  | unlockAnswers | terminate | raiseStop =>
    simp only [callStep, hc] at h
    cases h
    exact ⟨_, rfl, (absurd · Bool.false_ne_true)⟩
  | readTerminated | unlockProblems | takeHandle | closeQueue =>
    simp only [callStep, hc] at h
    cases h
    refine ⟨_, rfl, ?_⟩
    split <;> exact (absurd · Bool.false_ne_true)
  -- the four points inside an interrupt go on within it, and leaving it ends the call
  | interrupting p =>
    unfold callStep at h
    rw [hc] at h
    cases p with
    | leave =>
      cases h
      exact ⟨_, rfl, fun _ => rfl⟩
    | enter | look | record | raise =>
      obtain ⟨⟨e, q⟩, he, rfl⟩ := Option.map_eq_some_iff.1 h
      obtain ⟨hcalls, -⟩ := callers_interruptStep he
      exact ⟨.interrupting q, by simp only [moveCall, hcalls], fun _ => rfl⟩
  | stopping p sender handle =>
    unfold callStep at h
    rw [hc] at h
    cases p with
    | leave =>
      cases h
      exact ⟨_, rfl, (absurd · Bool.false_ne_true)⟩
    | enter | look | record | raise =>
      obtain ⟨⟨e, q⟩, he, rfl⟩ := Option.map_eq_some_iff.1 h
      obtain ⟨hcalls, -⟩ := callers_interruptStep he
      refine ⟨.stopping q sender handle, by simp only [moveCall, hcalls], ?_⟩
      exact (absurd · Bool.false_ne_true)

/-- A caller that starts a call was in none, and stands at its beginning. -/
theorem callers_begin {r : Request} (h : d.begin? c r = some d') :
    (d.calls c = .outside ∨ ∃ r, d.calls c = .returned r) ∧
      d' = (d.note (.called c r)).moveCall c r.entry := by
  simp only [begin?] at h
  split at h <;> cases h
  · exact ⟨Or.inl ‹_›, rfl⟩
  · exact ⟨Or.inr ⟨_, ‹_›⟩, rfl⟩

section Steps

variable [SearchEngine ε] {l : Label}

theorem callers_workerStep (h : d.workerStep = some d') :
    d'.calls = d.calls ∧ d'.problemLock = d.problemLock := by
  cases hw : d.worker <;> obtain ⟨d, rfl⟩ := exists_moveWorker hw
  case receive | search | awaitTimer =>
    simp only [workerStep, moveWorker] at h
    change d'.calls = d.calls ∧ d'.problemLock = d.problemLock
    grind [note]
  -- taking the gate moves nobody but the worker
  case enterStart | enterFinish | enterEnd =>
    obtain ⟨e, he, rfl⟩ := Option.map_eq_some_iff.1 h
    obtain ⟨-, rfl⟩ := enterGate?_eq_some.1 he
    exact ⟨rfl, rfl⟩
  case cancel t s =>
    cases h
    split <;> exact ⟨rfl, rfl⟩
  case exited => cases h
  all_goals
    cases h
    exact ⟨rfl, rfl⟩

/-- The worker and the timers leave the callers alone. -/
theorem callers_step (h : d.step l = some d') :
    (∃ c r, l = .begin c r) ∨ (∃ c, l = .call c) ∨
      (d'.calls = d.calls ∧ d'.problemLock = d.problemLock) := by
  cases l with
  | begin c r => exact Or.inl ⟨c, r, rfl⟩
  | call c => exact Or.inr (Or.inl ⟨c, rfl⟩)
  | worker => exact Or.inr (Or.inr (callers_workerStep h))
  | armFailure e | grace | cutoff t | timer t =>
    refine Or.inr (Or.inr ?_)
    simp only [step, armFailureStep, graceStep, cutoffStep, timerStep] at h
    grind [moveWorker, moveTimer, note, raise]

/-- A caller that starts no call stays where it is, or goes on with its call. -/
theorem calls_step (h : d.step l = some d') (hl : l.caller? ≠ some c) :
    d'.calls c = d.calls c ∨ d.callStep c = some d' := by
  rcases callers_step h with ⟨c', r, rfl⟩ | ⟨c', rfl⟩ | ⟨hcalls, -⟩
  · have hne : c ≠ c' := fun hc => hl (by rw [hc]; rfl)
    obtain ⟨-, rfl⟩ := callers_begin h
    exact Or.inl (calls_moveCall_of_ne hne)
  · by_cases hne : c = c'
    · exact Or.inr (hne ▸ h)
    · obtain ⟨p, hp, -⟩ := calls_callStep h
      left
      rw [hp, calls_moveCall_of_ne hne]
  · exact Or.inl (congrFun hcalls c)

/-! ## §2 Histories and Runs -/

/-- A step adds at most one event, and that of a call only when the call starts. -/
theorem history_step (h : d.step l = some d') :
    d'.history = d.history ∨
      ∃ e, d'.history = e :: d.history ∧ ∀ c r, e = .called c r → l.caller? = some c :=
  Exchange.log_step (exchange_step h)

/-- A step that is taken a number of times. -/
def Label.times (n : Nat) (l : Label) : List Label := List.replicate n l

/-- What every step keeps that starts no call of a caller, a run of such steps keeps. -/
theorem run?_induct {P : Driver ε → Prop}
    (hstep : ∀ {d d' l}, P d → l.caller? ≠ some c → d.step l = some d' → P d') {ls : List Label}
    (hls : ∀ l ∈ ls, l.caller? ≠ some c) (hd : P d) (h : d.run? ls = some d') : P d' := by
  induction ls generalizing d with
  | nil =>
    cases h
    exact hd
  | cons l ls ih =>
    obtain ⟨e, he, h⟩ := Option.bind_eq_some_iff.1 h
    exact ih (fun l hl => hls l (List.mem_cons_of_mem _ hl))
      (hstep hd (hls l List.mem_cons_self) he) h

end Steps

/-! ## §3 Steps That Change a Flag -/

/-- The flags by which callers, timers and the worker stop a search. -/
def flags (d : Driver ε) : Bool × Bool × Bool × Bool × Bool :=
  (d.interrupted, d.timedOut, d.solving, d.terminated, d.stop)

/-- A caller that goes on with an interrupt is not back from it. -/
theorem interrupting_of_callStep (hc : (d.calls c).isInterrupt = true)
    (h : d.callStep c = some d') : ∃ p, d.calls c = .interrupting p := by
  cases hp : d.calls c with
  | interrupting p => exact ⟨p, rfl⟩
  | returned r =>
    simp only [callStep, hp] at h
    cases h
  | _ =>
    rw [hp] at hc
    cases hc

/-- A step of an interrupt changes a flag only if it lands, or has landed. -/
theorem callStep_interrupting {p : InterruptPoint} (hc : d.calls c = .interrupting p)
    (h : d.callStep c = some d') :
    (d'.flags = d.flags ∧ d'.history = d.history ∧
      ((d'.calls c).hasLanded = true ↔ (d.calls c).hasLanded = true)) ∨
    ((d'.calls c).hasLanded = true ∧
      (d'.history = .landed c :: d.history ∨
        (d.calls c).hasLanded = true ∧ d'.history = .raised :: d.history)) := by
  unfold callStep at h
  rw [hc] at h ⊢
  cases p with
  | enter =>
    obtain ⟨⟨e, q⟩, he, rfl⟩ := Option.map_eq_some_iff.1 h
    obtain ⟨e, he, heq⟩ := Option.map_eq_some_iff.1 he
    obtain ⟨-, rfl⟩ := enterGate?_eq_some.1 he
    cases heq
    exact Or.inl ⟨rfl, rfl, by simp [CallPoint.hasLanded]⟩
  -- having looked, the caller has landed no more than before
  | look =>
    cases h
    refine Or.inl ⟨rfl, rfl, ?_⟩
    simp only [calls_moveCall_self]
    split <;> simp [CallPoint.hasLanded]
  | record =>
    cases h
    exact Or.inr ⟨by simp [CallPoint.hasLanded], Or.inl rfl⟩
  | raise =>
    cases h
    exact Or.inr ⟨by simp [CallPoint.hasLanded], Or.inr ⟨rfl, rfl⟩⟩
  | leave landed =>
    cases h
    refine Or.inl ⟨rfl, rfl, ?_⟩
    cases landed <;> simp [CallPoint.hasLanded]

/-- A caller that looks for a job in flight changes a flag only when it lands and when it raises the
stop signal. -/
theorem changes_of_interruptPoint {p : InterruptPoint}
    (hc : d.calls c = .interrupting p ∨ ∃ sender handle, d.calls c = .stopping p sender handle)
    (h : d.callStep c = some d') (hchange : d'.flags ≠ d.flags ∨ d'.history ≠ d.history) :
    (p = .record ∧ d'.history = .landed c :: d.history) ∨
      (p = .raise ∧ d'.history = .raised :: d.history) := by
  have hquiet : ¬ (d'.flags = d.flags ∧ d'.history = d.history) :=
    fun hsame => hchange.elim (· hsame.1) (· hsame.2)
  -- an interrupt and a shutdown take the same steps here
  rcases hc with hc | ⟨sender, handle, hc⟩ <;> unfold callStep at h <;> rw [hc] at h <;>
    cases p with
  | enter =>
    obtain ⟨⟨e, q⟩, he, rfl⟩ := Option.map_eq_some_iff.1 h
    obtain ⟨e, he, heq⟩ := Option.map_eq_some_iff.1 he
    obtain ⟨-, rfl⟩ := enterGate?_eq_some.1 he
    cases heq
    exact absurd ⟨rfl, rfl⟩ hquiet
  | look | leave =>
    cases h
    exact absurd ⟨rfl, rfl⟩ hquiet
  | record =>
    cases h
    exact Or.inl ⟨rfl, rfl⟩
  | raise =>
    cases h
    exact Or.inr ⟨rfl, rfl⟩

/-- A timer changes a flag only when it records that the time ran out and when it raises the stop
signal. -/
theorem changes_of_timer {t : Ticket} (h : d.timerStep t = some d')
    (hchange : d'.flags ≠ d.flags ∨ d'.history ≠ d.history) :
    d.timers t = some .record ∨ d.timers t = some .raise := by
  have hquiet : ¬ (d'.flags = d.flags ∧ d'.history = d.history) :=
    fun hsame => hchange.elim (· hsame.1) (· hsame.2)
  unfold timerStep at h
  split at h
  · cases h
    exact absurd ⟨rfl, rfl⟩ hquiet
  · exact Or.inl ‹_›
  · exact Or.inr ‹_›
  · cases h
    exact absurd ⟨rfl, rfl⟩ hquiet
  · cases h

end Driver

end SpectrumPacking
