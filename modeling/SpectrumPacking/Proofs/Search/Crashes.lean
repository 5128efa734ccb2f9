import SpectrumPacking.Proofs.Search.Stops

/-!
# Why an Answer Is CRASHED

An answer CRASHED says that the engine ended its search without a result, although its time had not
run out and no interrupt had met it.  If the stop signal goes up for a job, it is because of its
timer, of an interrupt that met it, or of a shutdown (`Signals.Raised`); the first two are answered
TIMEOUT.  A shutdown interrupts before it says that the worker has to end, and if the worker accepts
a job between the two, the job is answered CRASHED (`Driver.crashed_of_late_shutdown`).
-/

namespace SpectrumPacking

open Search

namespace Search

/-! ## §1 Why the Stop Signal Goes Up -/

/-- Whenever the stop signal went up after a job was accepted, the time of the job had run out, or
an interrupt had met it, or the worker had to end. -/
def RaisedFor (log : List Event) : Prop :=
  Throughout (fun e earlier => e = .raised → ∀ t, lastAccepted? earlier = some t →
    .expired t ∈ earlier ∨ LandedOn earlier t ∨ .terminated ∈ earlier) log

theorem raisedFor_cons {log : List Event} {e : Event} : RaisedFor (e :: log) ↔
    (e = .raised → ∀ t, lastAccepted? log = some t →
      .expired t ∈ log ∨ LandedOn log t ∨ .terminated ∈ log) ∧ RaisedFor log := throughout_cons

theorem LandedOn.append {log : List Event} {t : Ticket} (h : LandedOn log t)
    (later : List Event) : LandedOn (later ++ log) t := by
  obtain ⟨later', c, earlier, rfl, hlast⟩ := h
  exact ⟨later ++ later', c, earlier, by rw [List.append_assoc], hlast⟩

theorem classify_eq_crashed {s : Status} (h : (Driver.classify s).verdict = .crashed) :
    s = .unknown := by
  cases s <;> first | rfl | cases h

namespace Signals

variable {x y : Signals}

/-- Why the stop signal is up. -/
structure Raised (x : Signals) : Prop where
  raised : RaisedFor x.log
  ending : ∀ c, x.grip c = .ending → .terminated ∈ x.log

theorem Raised.step (hx : x.Raised) (hsound : x.Sound) (h : x.Step y) : y.Raised := by
  obtain ⟨hraised, hending⟩ := hx
  cases h with
  | @raise c h =>
    have hlanded := hsound.interrupts.raising c h
    refine ⟨raisedFor_cons.2 ⟨fun _ t ht => Or.inr (Or.inl (hlanded.landedOn ht)), hraised⟩, ?_⟩
    grind
  | @quell c h =>
    have hterm := hending c h
    refine ⟨raisedFor_cons.2 ⟨fun _ t ht => Or.inr (Or.inr hterm), hraised⟩, ?_⟩
    grind
  | @alarm t h =>
    -- the timer is that of the job accepted last
    have hexpired := hsound.expiries.expired t (Or.inr h)
    have hlast := hsound.timers.last t (by rw [h]; rfl)
    refine ⟨raisedFor_cons.2 ⟨fun _ t' ht' => ?_, hraised⟩, ?_⟩
    · rw [hlast] at ht'
      cases ht'
      exact Or.inl hexpired
    · grind
  | @terminate c h =>
    exact ⟨raisedFor_cons.2 ⟨nofun, hraised⟩, fun _ _ => List.mem_cons_self⟩
  | @aside e h _ =>
    refine ⟨raisedFor_cons.2 ⟨?_, hraised⟩, fun c hc => List.mem_cons_of_mem _ (hending c hc)⟩
    rintro rfl
    cases h
  | _ => constructor <;> first | assumption | grind -linarith [raisedFor_cons]

/-! ## §2 What the Engine Concluded -/

/-- An answer CRASHED stands for an engine that ended its search without a result. -/
structure Concluded (x : Signals) : Prop where
  status : ∀ t s, x.flight.status? = some (t, s) → .concluded t s ∈ x.log
  answering : ∀ t a, x.flight = .answering t a → a.verdict = .crashed →
    .concluded t .unknown ∈ x.log
  answered : ∀ t a, .published t (.ok a) ∈ x.log → a.verdict = .crashed →
    .concluded t .unknown ∈ x.log

theorem Concluded.step (hx : x.Concluded) (h : x.Step y) : y.Concluded := by
  obtain ⟨hstatus, hanswering, hanswered⟩ := hx
  cases h with
  | @answer t s h =>
    -- only a status that gives no answer is classified as a crash
    have hconcluded := hstatus t s (by rw [h]; rfl)
    have hunknown := @classify_eq_crashed s
    constructor <;> grind [Flight.status?]
  | @conclude t s h =>
    refine ⟨?_, nofun, ?_⟩
    · rintro _ _ ⟨⟩
      exact List.mem_cons_self
    · grind
  | @expire t s h _ =>
    refine ⟨nofun, ?_, hanswered⟩
    rintro _ _ ⟨⟩ ⟨⟩
  | @publish t a h =>
    have hconcluded := hanswering t a h
    refine ⟨nofun, nofun, ?_⟩
    grind
  | @aside e h _ => constructor <;> grind [Event.isForQueues]
  | _ => constructor <;> first | assumption | grind -linarith [Flight.status?]

end Signals

end Search

namespace Driver

variable {ε : Type} [SearchEngine ε] {e₀ : ε} {seed : Nat} {grace : Duration} {d : Driver ε}

/-! ## §3 Runs -/

theorem raised_of_reaches (h : (spawn e₀ seed grace).Reaches d) : d.signals.Raised := by
  induction h with
  | start => exact ⟨throughout_nil, nofun⟩
  | next l hreaches hstep ih =>
    exact ih.step (signals_sound_of_reaches hreaches)
      (signals_step (sound_of_reaches hreaches) hstep)

theorem concluded_of_reaches (h : (spawn e₀ seed grace).Reaches d) : d.signals.Concluded := by
  induction h with
  | start => exact ⟨nofun, nofun, nofun⟩
  | next l hreaches hstep ih => exact ih.step (signals_step (sound_of_reaches hreaches) hstep)

/-- What an answer CRASHED stands for. -/
structure ExplainsCrashes (d : Driver ε) : Prop where
  /-- The engine gave up, and neither the time of the job nor an interrupt made it do so. -/
  crashed : ∀ t a, .published t (.ok a) ∈ d.history → a.verdict = .crashed →
    .concluded t .unknown ∈ d.history ∧ .expired t ∉ d.history ∧ ¬ LandedOn d.history t
  /-- A job for which the stop signal went up is answered TIMEOUT, unless the worker had to end. -/
  raised : ∀ t a later earlier, .published t (.ok a) ∈ d.history →
    d.history = later ++ .raised :: earlier → lastAccepted? earlier = some t →
    a.verdict = .timeout ∨ .terminated ∈ earlier

/-- In every state that any run can reach, only a shutdown can make an engine crash. -/
theorem explainsCrashes_of_reaches (h : (spawn e₀ seed grace).Reaches d) :
    d.ExplainsCrashes := by
  have hd := signals_sound_of_reaches h
  constructor
  case crashed =>
    intro t a hpublished hcrashed
    have htimeout := hd.outcomes.answered t a hpublished
    rw [hcrashed] at htimeout
    refine ⟨(concluded_of_reaches h).answered t a hpublished hcrashed, ?_, ?_⟩
    · exact fun hexpired => nomatch htimeout.2 (Or.inl hexpired)
    · exact fun hlanded => nomatch htimeout.2 (Or.inr hlanded)
  case raised =>
    intro t a later earlier hpublished hhistory hlast
    have htimeout := hd.outcomes.answered t a hpublished
    -- the stop signal went up for one of three reasons
    rcases (raised_of_reaches h).raised later .raised earlier hhistory rfl t hlast with
      hexpired | hlanded | hterm
    · left
      rw [htimeout, show d.signals.log = _ from hhistory]
      exact Or.inl (List.mem_append_right _ (List.mem_cons_of_mem _ hexpired))
    · left
      rw [htimeout, show d.signals.log = _ from hhistory]
      exact Or.inr ((hlanded.append [.raised]).append later)
    · exact Or.inr hterm

/-- The steps of a job that is sent before a shutdown looks for a job in flight, and accepted
after. -/
def lateShutdownSteps (job : Job) : List Label :=
  [.begin 0 (.solve job)] ++ Label.times 5 (.call 0) ++ [.begin 1 .shutdown] ++
    Label.times 5 (.call 1) ++ Label.times 13 .worker ++ Label.times 2 (.call 1) ++
    Label.times 6 .worker ++ Label.times 2 (.timer 0) ++ Label.times 4 .worker ++
    Label.times 2 (.call 0)

/-- What happens in these steps, the last event first. -/
def lateShutdownEvents (job : Job) : List Event :=
  [.delivered 0 0 0 (.ok ⟨.crashed, []⟩), .published 0 (.ok ⟨.crashed, []⟩), .concluded 0 .unknown,
    .raised, .terminated, .accepted 0, .called 1 .shutdown, .sent 0 0 job, .called 0 (.solve job)]

theorem reaches_lateShutdown :
    ∃ d : Driver ScriptedEngine, ∃ job : Job,
      (spawn (.ofReplies [.spin (.status .unknown)]) 7 ⟨0⟩).Reaches d ∧
        d.calls 0 = .returned (.answer (.ok ⟨.crashed, []⟩)) ∧
          d.history = lateShutdownEvents job := by
  let job : Job := ⟨⟨1, [[1]]⟩, ⟨1⟩, 7⟩
  have hrun : ∃ d, (spawn (ScriptedEngine.ofReplies [.spin (.status .unknown)]) 7 ⟨0⟩).run?
      (lateShutdownSteps job) = some d ∧
        d.calls 0 = .returned (.answer (.ok ⟨.crashed, []⟩)) ∧
          d.history = lateShutdownEvents job := ⟨_, rfl, rfl, rfl⟩
  obtain ⟨d, hd, hc, hhistory⟩ := hrun
  exact ⟨d, job, Reaches.start.run hd, hc, hhistory⟩

theorem explainsCrashes_of_reaches_lateShutdown :
    ∃ d : Driver ScriptedEngine,
      (spawn (.ofReplies [.spin (.status .unknown)]) 7 ⟨0⟩).Reaches d ∧
        .published 0 (.ok ⟨.crashed, []⟩) ∈ d.history ∧ d.ExplainsCrashes := by
  obtain ⟨d, job, hd, -, hhistory⟩ := reaches_lateShutdown
  refine ⟨d, hd, ?_, explainsCrashes_of_reaches hd⟩
  rw [hhistory]
  simp [lateShutdownEvents]

/-- An engine that is stopped by a shutdown alone is taken for one that gave up on its own: the stop
signal went up between the moment when its job was accepted and its end, and it is answered
CRASHED. -/
theorem crashed_of_late_shutdown :
    ∃ d : Driver ScriptedEngine, ∃ later between earlier,
      (spawn (.ofReplies [.spin (.status .unknown)]) 7 ⟨0⟩).Reaches d ∧
        d.calls 0 = .returned (.answer (.ok ⟨.crashed, []⟩)) ∧
          d.history = later ++ .concluded 0 .unknown :: .raised :: between ++
            .accepted 0 :: earlier := by
  obtain ⟨d, job, hd, hc, hhistory⟩ := reaches_lateShutdown
  exact ⟨d, [.delivered 0 0 0 (.ok ⟨.crashed, []⟩), .published 0 (.ok ⟨.crashed, []⟩)],
    [.terminated], [.called 1 .shutdown, .sent 0 0 job, .called 0 (.solve job)], hd, hc, hhistory⟩

end Driver

end SpectrumPacking
