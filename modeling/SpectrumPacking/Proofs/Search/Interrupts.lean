import SpectrumPacking.Proofs.Search.Signals

/-!
# Interrupts and Cutoffs Meet Their Own Jobs

An interrupt and a cutoff stop the job that they are meant for, and no other one, whatever the order
of steps.  An interrupt has the gate from before it sees a job in flight until the stop signal is
up, and the worker has the gate while it forgets the last interrupt and the last cutoff; a timer is
at its end before the worker takes the next job.

As for the queues, the invariants are kept apart by what they speak of: the gate
(`Signals.Gate`), the jobs that were accepted (`Signals.Course`), the job in flight
(`Signals.Solving`, `Signals.Unanswered`), timers (`Signals.Timers`, `Signals.Expiries`), the flags
(`Signals.Cutoffs`, `Signals.Interrupts`, `Signals.Alarms`), and what was published
(`Signals.Outcomes`, `Signals.Faults`).
-/

namespace SpectrumPacking

open Search

namespace Search

/-! ## §1 Interrupts in a Log -/

/-- The job that was accepted last. -/
def lastAccepted? : List Event → Option Ticket
  | [] => none
  | .accepted t :: _ => some t
  | _ :: log => lastAccepted? log

/-- A job is in flight: it is the last one accepted, and has no answer. -/
def InFlight (log : List Event) (t : Ticket) : Prop :=
  lastAccepted? log = some t ∧ ∀ a, .published t (.ok a) ∉ log

/-- Every event of a log stands in a relation to what had happened before it. -/
def Throughout (P : Event → List Event → Prop) (log : List Event) : Prop :=
  ∀ later e earlier, log = later ++ e :: earlier → P e earlier

/-- Every interrupt that landed met a job in flight. -/
def MeetsJobs (log : List Event) : Prop :=
  Throughout (fun e earlier => ∀ c, e = .landed c → ∃ t, InFlight earlier t) log

/-- An interrupt met a job: it was the last one accepted when the interrupt landed. -/
def LandedOn (log : List Event) (t : Ticket) : Prop :=
  ∃ later c earlier, log = later ++ .landed c :: earlier ∧ lastAccepted? earlier = some t

/-- A caller has landed an interrupt in its present call, and no job was accepted since. -/
def HasLanded (log : List Event) (c : CallerId) : Prop :=
  ∃ later earlier, log = later ++ .landed c :: earlier ∧ (∀ r, .called c r ∉ later) ∧
    ∀ t, .accepted t ∉ later

variable {log : List Event} {t : Ticket} {c : CallerId} {e : Event}

theorem lastAccepted?_aside (h : e.isForQueues = true) :
    lastAccepted? (e :: log) = lastAccepted? log := by
  cases e <;> first | rfl | cases h

/-- What happens at the queues leaves a job in flight. -/
theorem InFlight.aside (h : InFlight log t) (he : e.isForQueues = true) :
    InFlight (e :: log) t := by
  refine ⟨by rw [lastAccepted?_aside he, h.1], ?_⟩
  intro a ha
  rcases List.mem_cons.1 ha with rfl | ha
  · cases he
  · exact h.2 a ha

theorem mem_of_lastAccepted? (h : lastAccepted? log = some t) : .accepted t ∈ log := by
  induction log with
  | nil => cases h
  | cons e log ih => cases e <;> grind [lastAccepted?]

theorem landedOn_cons : LandedOn (e :: log) t ↔
    (∃ c, e = .landed c ∧ lastAccepted? log = some t) ∨ LandedOn log t := by
  constructor
  · rintro ⟨later, c, earlier, heq, hlast⟩
    cases later with
    | nil =>
      cases heq
      exact Or.inl ⟨c, rfl, hlast⟩
    | cons e' later =>
      cases heq
      exact Or.inr ⟨later, c, earlier, rfl, hlast⟩
  · rintro (⟨c, rfl, hlast⟩ | ⟨later, c, earlier, rfl, hlast⟩)
    · exact ⟨[], c, log, rfl, hlast⟩
    · exact ⟨e :: later, c, earlier, rfl, hlast⟩

/-- The jobs that interrupts met, the last one first. -/
def metJobs : List Event → List Ticket
  | [] => []
  | .landed _ :: log => (lastAccepted? log).toList ++ metJobs log
  | _ :: log => metJobs log

theorem mem_metJobs : t ∈ metJobs log ↔ LandedOn log t := by
  induction log with
  | nil => simp [metJobs, LandedOn]
  | cons e log ih =>
    rw [landedOn_cons, ← ih]
    cases e <;> simp [metJobs]

instance : Decidable (LandedOn log t) := decidable_of_iff _ mem_metJobs

theorem LandedOn.mem_accepted (h : LandedOn log t) : .accepted t ∈ log := by
  obtain ⟨later, c, earlier, rfl, hlast⟩ := h
  exact List.mem_append_right _ (List.mem_cons_of_mem _ (mem_of_lastAccepted? hlast))

theorem throughout_nil {P : Event → List Event → Prop} : Throughout P [] := by
  rintro (_ | ⟨e, later⟩) e' earlier ⟨⟩

theorem throughout_cons {P : Event → List Event → Prop} :
    Throughout P (e :: log) ↔ P e log ∧ Throughout P log := by
  constructor
  · intro h
    exact ⟨h [] e log rfl, fun later e' earlier heq => h (e :: later) e' earlier (by rw [heq]; rfl)⟩
  · rintro ⟨hnew, h⟩ later e' earlier heq
    cases later with
    | nil =>
      cases heq
      exact hnew
    | cons e'' later =>
      cases heq
      exact h later e' earlier rfl

theorem meetsJobs_cons : MeetsJobs (e :: log) ↔
    (∀ c, e = .landed c → ∃ t, InFlight log t) ∧ MeetsJobs log := throughout_cons

theorem hasLanded_cons : HasLanded (e :: log) c ↔
    e = .landed c ∨ (HasLanded log c ∧ (∀ r, e ≠ .called c r) ∧ ∀ t, e ≠ .accepted t) := by
  constructor
  · rintro ⟨later, earlier, heq, hcall, haccept⟩
    -- the new event is the landing itself, or comes after it
    cases later with
    | nil =>
      cases heq
      exact Or.inl rfl
    | cons e' later =>
      cases heq
      refine Or.inr ⟨⟨later, earlier, rfl, ?_, ?_⟩, ?_, ?_⟩
      · exact fun r hr => hcall r (List.mem_cons_of_mem _ hr)
      · exact fun t ht => haccept t (List.mem_cons_of_mem _ ht)
      · exact fun r hr => hcall r (hr ▸ List.mem_cons_self)
      · exact fun t ht => haccept t (ht ▸ List.mem_cons_self)
  · rintro (rfl | ⟨⟨later, earlier, rfl, hcall, haccept⟩, hcall', haccept'⟩)
    · exact ⟨[], log, rfl, by simp, by simp⟩
    · refine ⟨e :: later, earlier, rfl, ?_, ?_⟩
      · intro r hr
        exact (List.mem_cons.1 hr).elim (fun h => hcall' r h.symm) (hcall r)
      · intro t ht
        exact (List.mem_cons.1 ht).elim (fun h => haccept' t h.symm) (haccept t)

/-- An interrupt that landed since is on the job accepted last. -/
theorem HasLanded.landedOn (h : HasLanded log c) (hlast : lastAccepted? log = some t) :
    LandedOn log t := by
  obtain ⟨later, earlier, rfl, -, hlater⟩ := h
  refine ⟨later, c, earlier, rfl, ?_⟩
  induction later with
  | nil => exact hlast
  | cons e later ih =>
    have he : ∀ t, e ≠ .accepted t := fun t ht => hlater t (ht ▸ List.mem_cons_self)
    refine ih ?_ fun t ht => hlater t (List.mem_cons_of_mem _ ht)
    cases e <;> first | exact hlast | exact absurd rfl (he _)

/-! ## §2 Points at the Signals -/

theorem Grip.inGate_of_isLanding {g : Grip} (h : g.isLanding = true) : g.inGate = true := by
  cases g <;> first | rfl | cases h

namespace Flight

variable {f : Flight}

theorem accepted?_of_timed? (h : f.timed? = some t) : f.accepted? = some t := by
  cases f <;> first | exact h | cases h

theorem timed?_of_untimed? (h : f.untimed? = some t) : f.timed? = none ∧ f.isLast = false := by
  cases f <;> first | exact ⟨rfl, rfl⟩ | cases h

theorem timed?_of_coming? (h : f.coming? = some t) : f.timed? = none ∧ f.isLast = false := by
  cases f <;> first | exact ⟨rfl, rfl⟩ | cases h

theorem isOpen_of_coming? (h : f.coming? = some t) : f.isOpen = false := by
  cases f <;> first | rfl | cases h

/-- The worker may have a job in hand. -/
def Allows (f : Flight) (t : Ticket) : Prop :=
  f = .idle ∨ f.coming? = some t ∨ f.accepted? = some t ∨ ∃ e, f = .failing t e

end Flight

theorem WorkerPoint.allows_of_ticket? {p : WorkerPoint} (h : p.hand.ticket? = some t) :
    p.flight.Allows t := by
  cases p <;> cases h <;> first
    | exact Or.inl rfl
    | exact Or.inr (Or.inl rfl)
    | exact Or.inr (Or.inr (Or.inl rfl))
    | exact Or.inr (Or.inr (Or.inr ⟨_, rfl⟩))

/-- Whether a timer was started and has not come to its end. -/
def isRunning : Option TimerPoint → Bool
  | none | some .done => false
  | _ => true

theorem classify_verdict_ne_timeout {s : Status} : (Driver.classify s).verdict ≠ .timeout := by
  cases s <;> exact nofun

namespace Signals

variable {x y : Signals}

/-! ## §3 The Gate and the Job in Flight -/

/-- Who is at the gate has it. -/
structure Gate (x : Signals) : Prop where
  worker : x.inside = true ↔ x.gate = some .worker
  caller : ∀ c, (x.grip c).inGate = true ↔ x.gate = some (.caller c)
  coming : x.flight.coming?.isSome → x.inside = true

/-- Nobody is at a free gate. -/
theorem Gate.of_gate_eq_none (hx : x.Gate) (h : x.gate = none) :
    x.inside = false ∧ ∀ c, (x.grip c).inGate = false := by
  constructor
  · apply Bool.eq_false_iff.2
    intro hinside
    rw [hx.worker, h] at hinside
    cases hinside
  · intro c
    apply Bool.eq_false_iff.2
    intro hc
    rw [hx.caller, h] at hc
    cases hc

/-- A caller at the gate is the only one there. -/
theorem Gate.of_inGate (hx : x.Gate) (h : (x.grip c).inGate = true) :
    x.inside = false ∧ ∀ c', c' ≠ c → (x.grip c').inGate = false := by
  have hgate := (hx.caller c).1 h
  constructor
  · apply Bool.eq_false_iff.2
    intro hinside
    rw [hx.worker, hgate] at hinside
    cases hinside
  · intro c' hne
    apply Bool.eq_false_iff.2
    intro hc'
    rw [hx.caller, hgate] at hc'
    injection hc' with hc'
    injection hc' with hc'
    exact hne hc'.symm

/-- While the worker has the gate, no caller is there. -/
theorem Gate.not_inGate (hx : x.Gate) (h : x.inside = true) (c : CallerId) :
    (x.grip c).inGate = false := by
  apply Bool.eq_false_iff.2
  intro hc
  rw [hx.caller, hx.worker.1 h] at hc
  cases hc

theorem Gate.not_isLanding (hx : x.Gate) (h : x.inside = true) (c : CallerId) :
    (x.grip c).isLanding = false := by
  apply Bool.eq_false_iff.2
  intro hc
  have hgate := Grip.inGate_of_isLanding hc
  rw [hx.not_inGate h c] at hgate
  cases hgate

theorem Gate.step (hx : x.Gate) (h : x.Step y) : y.Gate := by
  have hgate := hx
  obtain ⟨hworker, hcaller, hcoming⟩ := hx
  cases h with
  | @enter c h hfree =>
    obtain ⟨hinside, hnone⟩ := hgate.of_gate_eq_none hfree
    constructor <;> grind [Grip.inGate]
  | begin _ hfree _ | goIn hfree _ =>
    obtain ⟨-, hnone⟩ := hgate.of_gate_eq_none hfree
    constructor <;> grind
  | @leave c landed h =>
    obtain ⟨hinside, hothers⟩ := hgate.of_inGate (c := c) (by rw [h]; rfl)
    constructor <;> grind [Grip.inGate]
  | goOut hinside hnone =>
    have hcallers := hgate.not_inGate hinside
    constructor <;> grind
  -- whoever moves stays at the gate, or away from it
  | see h _ | miss h _ | land h | raise h | terminate h | quell h =>
    constructor <;> first | assumption | grind [Grip.inGate]
  | _ => constructor <;> first | assumption | grind [Flight.coming?]

/-- Which job was accepted last, and which ones never were. -/
structure Course (x : Signals) : Prop where
  accepted : ∀ t, x.flight.accepted? = some t → lastAccepted? x.log = some t
  coming : ∀ t, x.flight.coming? = some t → .accepted t ∉ x.log
  answered : ∀ t a, .published t (.ok a) ∈ x.log → .accepted t ∈ x.log

theorem Course.step (hx : x.Course) (h : x.Step y) : y.Course := by
  obtain ⟨haccepted, hcoming, hanswered⟩ := hx
  cases h with
  | @begin t _ _ hnew => exact ⟨nofun, by rintro _ ⟨⟩; exact hnew, hanswered⟩
  | @accept t h =>
    refine ⟨?_, nofun, ?_⟩
    · rintro _ ⟨⟩
      rfl
    · intro t' a ha
      exact List.mem_cons_of_mem _ (hanswered t' a (by simpa using ha))
  | @publish t a h =>
    -- the answered job was accepted last
    have hmem := mem_of_lastAccepted? (haccepted t (by rw [h]; rfl))
    refine ⟨nofun, nofun, ?_⟩
    grind
  | @aside e h _ =>
    have hlast : lastAccepted? (e :: x.log) = lastAccepted? x.log := lastAccepted?_aside h
    constructor <;> grind [Event.isForQueues]
  | _ =>
    constructor <;> first
      | assumption
      | grind -linarith [Flight.coming?, Flight.accepted?, lastAccepted?]

/-- Whether a job is in flight.  A caller that has found one in flight keeps it there. -/
structure Solving (x : Signals) : Prop where
  course : x.flight.isLast = false → x.solving = x.flight.isOpen
  landing : ∀ c, (x.grip c).isLanding = true → x.solving = true

theorem Solving.step (hx : x.Solving) (hgate : x.Gate) (h : x.Step y) : y.Solving := by
  obtain ⟨hcourse, hlanding⟩ := hx
  cases h with
  | close h hinside | clearEnd h hinside =>
    have hnone := hgate.not_isLanding hinside
    constructor <;> grind [Flight.isOpen, Flight.isLast]
  | _ =>
    constructor <;> first
      | assumption
      | grind -linarith [Grip.isLanding, Flight.isOpen, Flight.isLast]

/-- A job in flight is the one accepted last, and is not answered. -/
structure Unanswered (x : Signals) : Prop where
  accepted : ∀ t, x.flight.accepted? = some t → ∀ a, .published t (.ok a) ∉ x.log
  solving : x.solving = true → ∃ t, InFlight x.log t
  failing : ∀ t e, x.flight = .failing t e → x.solving = true → lastAccepted? x.log = some t

theorem Unanswered.step (hx : x.Unanswered) (hcourse : x.Course) (hsolving : x.Solving)
    (h : x.Step y) : y.Unanswered := by
  obtain ⟨haccepted, hflying, hfailing⟩ := hx
  have hlast := hcourse.accepted
  have hopen := hsolving.course
  cases h with
  | @accept t h =>
    -- a job that was never accepted was never answered
    have hnew : ∀ a, .published t (.ok a) ∉ x.log := fun a ha =>
      hcourse.coming t (by rw [h]; rfl) (hcourse.answered t a ha)
    constructor
    · grind [Flight.accepted?]
    · exact fun _ => ⟨t, rfl, by simpa using hnew⟩
    · exact nofun
  | @publish t a h =>
    -- the worker has closed the job before it answers
    have hclosed : x.solving = false := (hopen (by rw [h]; rfl)).trans (by rw [h]; rfl)
    constructor <;> grind [Flight.accepted?]
  | @unarmed t reason h =>
    have hjob := hlast t (by rw [h]; rfl)
    constructor <;> grind [Flight.accepted?]
  | @giveUp t s h =>
    have hclosed : x.solving = false := (hopen (by rw [h]; rfl)).trans (by rw [h]; rfl)
    constructor <;> grind [Flight.accepted?]
  | @mismatch t e h _ =>
    have hclosed : x.solving = false := (hopen (by rw [h]; rfl)).trans (by rw [h]; rfl)
    constructor <;> grind [Flight.accepted?]
  | @aside e h _ =>
    have hsame : lastAccepted? (e :: x.log) = lastAccepted? x.log := lastAccepted?_aside h
    refine ⟨?_, fun hs => (hflying hs).imp fun t ht => ht.aside h, ?_⟩
    · grind [Event.isForQueues]
    · grind
  | _ =>
    constructor <;> first
      | assumption
      | simp only [InFlight] at hflying ⊢
        grind -linarith [Flight.accepted?, Flight.isOpen, Flight.isLast, lastAccepted?]

/-- No interrupt lands on a job that is answered. -/
theorem Unanswered.ne_of_landing (hx : x.Unanswered) (hsolving : x.Solving)
    (hc : (x.grip c).isLanding = true) {t : Ticket} {a : Answer}
    (h : .published t (.ok a) ∈ x.log) : lastAccepted? x.log ≠ some t := by
  obtain ⟨t', hlast, hnone⟩ := hx.solving (hsolving.landing c hc)
  intro ht
  rw [ht] at hlast
  cases hlast
  exact hnone a h

theorem meetsJobs_step (hx : MeetsJobs x.log) (hsolving : x.Solving) (hunanswered : x.Unanswered)
    (h : x.Step y) : MeetsJobs y.log := by
  cases h with
  | @land c h =>
    have hflying := hsolving.landing c (by rw [h]; rfl)
    exact meetsJobs_cons.2 ⟨fun _ _ => hunanswered.solving hflying, hx⟩
  | _ => first | assumption | grind -linarith [meetsJobs_cons, Event.isForQueues]

/-- While an interrupt lands, the job accepted last is the only one that the worker may have. -/
theorem Unanswered.eq_of_landing (hx : x.Unanswered) (hcourse : x.Course) (hsolving : x.Solving)
    {t' : Ticket} (hc : (x.grip c).isLanding = true) (hlast : lastAccepted? x.log = some t)
    (ht' : x.flight.Allows t') : t' = t := by
  have hflying := hsolving.landing c hc
  rcases ht' with hidle | hcoming | haccepted | ⟨e, hfailing⟩
  · have hclosed := hsolving.course (by rw [hidle]; rfl)
    rw [hflying, hidle] at hclosed
    cases hclosed
  · have hclosed := hsolving.course (Flight.timed?_of_coming? hcoming).2
    rw [hflying, Flight.isOpen_of_coming? hcoming] at hclosed
    cases hclosed
  · have := hcourse.accepted t' haccepted
    rw [hlast] at this
    exact (Option.some.inj this).symm
  · have := hx.failing t' e hfailing hflying
    rw [hlast] at this
    exact (Option.some.inj this).symm

/-! ## §4 Timers -/

/-- Where the timers are. -/
structure Timers (x : Signals) : Prop where
  /-- Only the timer of the job accepted last may be at work. -/
  last : ∀ t, isRunning (x.timers t) = true → lastAccepted? x.log = some t
  /-- It may be so only until the worker has seen its end, or has given up. -/
  resting : x.flight.timed? = none → x.flight.isLast = false → ∀ t, isRunning (x.timers t) = false
  /-- A worker that fails leaves no timer at work but that of its job. -/
  failing : ∀ t e, x.flight = .failing t e → ∀ t', isRunning (x.timers t') = true → t' = t
  /-- Only accepted jobs have timers. -/
  known : ∀ t, x.timers t ≠ none → .accepted t ∈ x.log
  /-- A job that is just accepted has none yet. -/
  unarmed : ∀ t, x.flight = .opened t → x.timers t = none
  /-- From the search to the answer it has one. -/
  armed : ∀ t, x.flight.timed? = some t ∨ x.flight.untimed? = some t → x.timers t ≠ none

/-- A job that the worker is about to accept has no timer. -/
theorem Timers.eq_none (hx : x.Timers) (hcourse : x.Course) (h : x.flight.coming? = some t) :
    x.timers t = none := by
  apply Decidable.byContradiction
  intro ht
  exact hcourse.coming t h (hx.known t ht)

/-- The worker may move on as long as it waits for the same timer. -/
theorem Timers.moved (hx : x.Timers) (htimers : y.timers = x.timers)
    (hlast : lastAccepted? y.log = lastAccepted? x.log)
    (hknown : ∀ t, .accepted t ∈ x.log → .accepted t ∈ y.log)
    (htimed : y.flight.timed? = x.flight.timed?)
    (huntimed : ∀ t, y.flight.untimed? = some t → x.flight.untimed? = some t)
    (hgoing : y.flight.isLast = false → x.flight.isLast = false)
    (hfailing : ∀ t e, y.flight = .failing t e → x.flight = .failing t e)
    (hopened : ∀ t, y.flight = .opened t → x.flight = .opened t) : y.Timers where
  last t ht := by
    rw [htimers] at ht
    rw [hlast, hx.last t ht]
  resting hnone hnotLast t := by
    rw [htimers]
    exact hx.resting (htimed ▸ hnone) (hgoing hnotLast) t
  failing t e h t' ht' := hx.failing t e (hfailing t e h) t' (htimers ▸ ht')
  known t ht := hknown t (hx.known t (htimers ▸ ht))
  unarmed t h := by
    rw [htimers]
    exact hx.unarmed t (hopened t h)
  armed t h := by
    rw [htimers]
    exact hx.armed t (h.imp (fun h => htimed ▸ h) (huntimed t))

/-- A timer at work may go on to its next point. -/
theorem Timers.set (hx : x.Timers) {p q : TimerPoint} (ht : x.timers t = some q)
    (hrunning : isRunning (some q) = true) : (x.set t p).Timers := by
  have hgone : isRunning (x.timers t) = true := by rw [ht]; exact hrunning
  obtain ⟨hlast, hresting, hfailing, hknown, hunarmed, harmed⟩ := hx
  constructor <;> grind

/-- A job that is accepted has no timer, and no other timer is at work. -/
theorem Timers.accept (hx : x.Timers) (hcourse : x.Course) (h : x.flight = .admitted t) :
    (({ x with solving := true }.note (.accepted t)).fly (.opened t)).Timers := by
  have hnone := hx.resting (by rw [h]; rfl) (by rw [h]; rfl)
  have hunknown := hx.eq_none (t := t) hcourse (by rw [h]; rfl)
  obtain ⟨-, -, -, hknown, -, -⟩ := hx
  constructor <;> grind [Flight.timed?, Flight.untimed?]

/-- The timer that is started is the only one at work. -/
theorem Timers.arm (hx : x.Timers) (hcourse : x.Course) (h : x.flight = .opened t) :
    ((x.set t (.waiting false)).fly (.searching t)).Timers := by
  have hnone := hx.resting (by rw [h]; rfl) (by rw [h]; rfl)
  have hjob := hcourse.accepted t (by rw [h]; rfl)
  have hmem := mem_of_lastAccepted? hjob
  obtain ⟨-, -, -, hknown, -, -⟩ := hx
  constructor <;> grind [Flight.timed?, Flight.untimed?]

/-- The only timer that may have been at work is at its end. -/
theorem Timers.settle (hx : x.Timers) (hcourse : x.Course) {s : Status}
    (h : x.flight = .closed t s) (hdone : x.timers t = some .done) :
    (x.fly (.settled t s)).Timers := by
  have hjob := hcourse.accepted t (by rw [h]; rfl)
  have hnone : ∀ t', isRunning (x.timers t') = false := by
    intro t'
    apply Bool.eq_false_iff.2
    intro ht'
    rw [hx.last t' ht'] at hjob
    cases hjob
    rw [hdone] at ht'
    cases ht'
  obtain ⟨-, -, -, hknown, -, -⟩ := hx
  constructor <;> grind [Flight.timed?, Flight.untimed?]

/-- A worker that fails leaves no timer at work but that of its job. -/
theorem Timers.fail (hx : x.Timers) {e : EngineError}
    (hjob : ∀ t', isRunning (x.timers t') = true → t' = t) :
    (x.fly (.failing t e)).Timers := by
  obtain ⟨hlast, -, -, hknown, -, -⟩ := hx
  constructor <;> grind [Flight.timed?, Flight.untimed?, Flight.isLast]

theorem Timers.step (hx : x.Timers) (hcourse : x.Course) (h : x.Step y) : y.Timers := by
  have hlast := hx.last
  have haccepted := hcourse.accepted
  cases h with
  | accept h => exact hx.accept hcourse h
  | arm h => exact hx.arm hcourse h
  | settle h hdone => exact hx.settle hcourse h hdone
  | @unarmed t reason h | @giveUp t s h =>
    have hjob := haccepted t (by rw [h]; rfl)
    exact hx.fail fun t' ht' => by grind
  | mismatch h _ =>
    have hnone := hx.resting (by rw [h]; rfl) (by rw [h]; rfl)
    exact hx.fail fun t' ht' => by grind
  | cancel _ h | obey h | acknowledge h => exact hx.set h rfl
  | cutoff h | hurry h | alarm h =>
    -- besides the timer only flags and the log change
    apply (hx.set h rfl).moved <;> first | rfl | grind
  | @aside e h _ =>
    have hsame : lastAccepted? (e :: x.log) = lastAccepted? x.log := lastAccepted?_aside h
    apply hx.moved <;> first | rfl | grind
  | _ =>
    apply hx.moved <;> first
      | rfl
      | grind -linarith [Flight.isLast, Flight.timed?, Flight.untimed?, lastAccepted?]

/-- Once the worker has seen the end of a timer, the timer is gone. -/
theorem Timers.eq_done (hx : x.Timers) (h : x.flight.untimed? = some t) :
    x.timers t = some .done := by
  obtain ⟨htimed, hgoing⟩ := Flight.timed?_of_untimed? h
  have hresting := hx.resting htimed hgoing t
  have harmed := hx.armed t (Or.inr h)
  grind [isRunning]

/-- A timer at work belongs to the job that the worker has in hand. -/
theorem Timers.eq_of_isRunning (hx : x.Timers) (hcourse : x.Course) {t' : Ticket}
    (ht : isRunning (x.timers t) = true) (ht' : x.flight.Allows t') : t' = t := by
  have hrunning : ¬ (x.flight.timed? = none ∧ x.flight.isLast = false) := by
    rintro ⟨htimed, hgoing⟩
    rw [hx.resting htimed hgoing t] at ht
    cases ht
  rcases ht' with hidle | hcoming | haccepted | ⟨e, hfailing⟩
  · rw [hidle] at hrunning
    exact absurd ⟨rfl, rfl⟩ hrunning
  · exact absurd (Flight.timed?_of_coming? hcoming) hrunning
  · have hlast := hx.last t ht
    rw [hcourse.accepted t' haccepted] at hlast
    exact Option.some.inj hlast
  · exact (hx.failing t' e hfailing t ht).symm

/-- Whose time has run out. -/
structure Expiries (x : Signals) : Prop where
  unexpired : ∀ t, (x.timers t = none ∨ ∃ b, x.timers t = some (.waiting b)) → .expired t ∉ x.log
  expired : ∀ t, x.timers t = some .record ∨ x.timers t = some .raise → .expired t ∈ x.log

theorem Expiries.step (hx : x.Expiries) (htimers : x.Timers) (h : x.Step y) : y.Expiries := by
  obtain ⟨hunexpired, hexpired⟩ := hx
  cases h with
  | @arm t h =>
    have hnone := hunexpired t (Or.inl (htimers.unarmed t h))
    constructor <;> grind
  | _ => constructor <;> first | assumption | grind -linarith [Event.isForQueues]

/-! ## §5 Flags -/

/-- Whether the time of the job in flight is marked as run out. -/
structure Cutoffs (x : Signals) : Prop where
  fresh : ∀ t, x.flight = .unhurried t ∨ x.flight = .cleared t ∨ x.flight = .admitted t ∨
    x.flight = .opened t → x.timedOut = false
  timed : ∀ t, x.flight.timed? = some t →
    (x.timedOut = true ↔ .expired t ∈ x.log ∧ x.timers t ≠ some .record)
  settled : ∀ t s, x.flight = .settled t s → (x.timedOut = true ↔ .expired t ∈ x.log)
  unexpired : ∀ t s, x.flight = .unexpired t s → .expired t ∉ x.log

theorem Cutoffs.step (hx : x.Cutoffs) (hcourse : x.Course) (htimers : x.Timers)
    (hexpiries : x.Expiries) (h : x.Step y) : y.Cutoffs := by
  have hflying := @Flight.accepted?_of_timed?
  obtain ⟨hfresh, htimed, hsettled, hunexpired⟩ := hx
  obtain ⟨haccepted, -, -⟩ := hcourse
  obtain ⟨hout, hin⟩ := hexpiries
  have hdone := @htimers.eq_done
  cases h with
  | @arm t h =>
    have hnone := hout t (Or.inl (htimers.unarmed t h))
    constructor <;> grind [Flight.timed?]
  | @hurry t h =>
    -- the timer that marks the time is that of the job in flight
    have hexpired := hin t (Or.inl h)
    have hrunning : isRunning (x.timers t) = true := by rw [h]; rfl
    have hlast := htimers.last t hrunning
    have hresting := htimers.resting
    constructor <;> grind [Flight.timed?, Flight.untimed?, Flight.isLast]
  | _ =>
    constructor <;> first
      | assumption
      | grind -linarith [Flight.timed?, Flight.untimed?, Event.isForQueues]

/-- Whether the job in flight is marked as interrupted. -/
structure Interrupts (x : Signals) : Prop where
  fresh : ∀ t, x.flight = .uninterrupted t ∨ x.flight = .unhurried t ∨ x.flight = .cleared t ∨
    x.flight = .admitted t → x.interrupted = false
  flying : ∀ t, x.flight.accepted? = some t → (x.interrupted = true ↔ LandedOn x.log t)
  raising : ∀ c, x.grip c = .raising → HasLanded x.log c

theorem Interrupts.step (hx : x.Interrupts) (hgate : x.Gate) (hcourse : x.Course)
    (h : x.Step y) : y.Interrupts := by
  obtain ⟨hfresh, hflying, hraising⟩ := hx
  cases h with
  | @land c h =>
    -- the caller has the gate, so the worker is not about to accept a job
    have hgone : x.flight.coming? = none := by
      apply Option.eq_none_iff_forall_ne_some.2
      intro t ht
      have hnone := hgate.not_isLanding (hgate.coming (by rw [ht]; rfl)) c
      rw [h] at hnone
      cases hnone
    have hlast := hcourse.accepted
    constructor <;> grind [Flight.coming?, landedOn_cons, hasLanded_cons]
  | @accept t h =>
    have hcoming : x.flight.coming? = some t := by rw [h]; rfl
    have hnone := hgate.not_isLanding (hgate.coming (by rw [hcoming]; rfl))
    have hforgotten := hfresh t (by simp [h])
    -- nothing can have landed on a job that was never accepted
    have hunlanded : ¬ LandedOn x.log t := fun ht => hcourse.coming t hcoming ht.mem_accepted
    constructor <;> grind [Flight.accepted?, Grip.isLanding, landedOn_cons, hasLanded_cons]
  | @forgetInterrupt t h => exact ⟨fun _ _ => rfl, nofun, hraising⟩
  | @aside e h hcall => constructor <;> grind [Event.isForQueues, landedOn_cons, hasLanded_cons]
  | _ =>
    constructor <;> first
      | assumption
      | grind -linarith [Flight.accepted?, landedOn_cons, hasLanded_cons]

/-- The stop signal is up for an interrupted job, or about to go up. -/
def Alarms (x : Signals) : Prop :=
  ∀ t, x.flight = .opened t ∨ x.flight = .searching t → LandedOn x.log t →
    x.stop = true ∨ ∃ c, x.grip c = .raising

theorem Alarms.step (hx : x.Alarms) (hcourse : x.Course) (h : x.Step y) : y.Alarms := by
  cases h with
  | @land c h => exact fun _ _ _ => Or.inr ⟨c, if_pos rfl⟩
  | raise h | quell h | alarm h => exact fun _ _ _ => Or.inl rfl
  | @accept t h =>
    rintro t' (⟨⟨⟩⟩ | ⟨⟨⟩⟩) hlanded
    have hbefore : LandedOn x.log t := by simpa [landedOn_cons] using hlanded
    exact absurd hbefore.mem_accepted (hcourse.coming t (by rw [h]; rfl))
  | _ => first | assumption | grind -linarith [Alarms, landedOn_cons, Event.isForQueues]

/-! ## §6 Answers and Faults -/

/-- What the worker answers. -/
structure Outcomes (x : Signals) : Prop where
  /-- An answer that is about to be sent is TIMEOUT if the time ran out or an interrupt landed. -/
  answering : ∀ t a, x.flight = .answering t a →
    (a.verdict = .timeout ↔ .expired t ∈ x.log ∨ LandedOn x.log t)
  /-- So is an answer that was sent. -/
  answered : ∀ t a, .published t (.ok a) ∈ x.log →
    (a.verdict = .timeout ↔ .expired t ∈ x.log ∨ LandedOn x.log t)
  /-- The time of an answered job cannot run out any more. -/
  done : ∀ t a, .published t (.ok a) ∈ x.log → x.timers t = some .done

theorem Outcomes.step (hx : x.Outcomes) (hsolving : x.Solving) (hunanswered : x.Unanswered)
    (htimers : x.Timers) (hcutoffs : x.Cutoffs) (hinterrupts : x.Interrupts) (h : x.Step y) :
    y.Outcomes := by
  have hgone := @htimers.eq_done
  obtain ⟨hanswering, hanswered, hdone⟩ := hx
  cases h with
  | @land c h =>
    have hlanding : (x.grip c).isLanding = true := by rw [h]; rfl
    have hother := fun t a => hunanswered.ne_of_landing hsolving hlanding (t := t) (a := a)
    have hflying := hsolving.landing c hlanding
    have hcourse := hsolving.course
    constructor <;> grind [landedOn_cons, Flight.isOpen, Flight.isLast]
  | @arm t h =>
    have hnone := htimers.unarmed t h
    constructor <;> grind [landedOn_cons]
  | @expire t s h hout =>
    have hexpired := (hcutoffs.settled t s h).1 hout
    constructor <;> grind
  | @answer t s h =>
    -- the time has not run out, so the interrupt alone decides
    have hexpired := hcutoffs.unexpired t s h
    have hinterrupted := hinterrupts.flying t (by rw [h]; rfl)
    have hclassify := @classify_verdict_ne_timeout s
    constructor <;> grind
  | _ =>
    constructor <;> first
      | assumption
      | grind -linarith [landedOn_cons, Flight.untimed?, Event.isForQueues]

/-- What faults the worker sends for jobs that it has accepted: it gave up waiting for a timer, or
could not start one. -/
structure Faults (x : Signals) : Prop where
  failing : ∀ t e, x.flight = .failing t e → .accepted t ∈ x.log →
    e = .timerCancellation x.grace ∨ (x.timers t = none ∧ ∃ reason, e = .spawn reason)
  failed : ∀ t e, .published t (.error e) ∈ x.log → x.flight = .ended ∧ (.accepted t ∈ x.log →
    e = .timerCancellation x.grace ∨ (x.timers t = none ∧ ∃ reason, e = .spawn reason))

theorem Faults.step (hx : x.Faults) (htimers : x.Timers) (h : x.Step y) : y.Faults := by
  obtain ⟨hfailing, hfailed⟩ := hx
  cases h with
  | @mismatch t e h hnew =>
    constructor
    · rintro _ _ ⟨⟩ haccepted
      exact absurd haccepted hnew
    · grind
  | @unarmed t reason h =>
    have hnone := htimers.unarmed t h
    constructor
    · rintro _ _ ⟨⟩ _
      exact Or.inr ⟨hnone, reason, rfl⟩
    · grind
  | @giveUp t s h =>
    constructor
    · rintro _ _ ⟨⟩ _
      exact Or.inl rfl
    · grind
  | @publishFailure t e h =>
    have hfault := hfailing t e h
    constructor <;> grind
  | @arm t h | @accept t h =>
    -- no fault was sent yet, since the worker is not at its end
    constructor <;> grind
  | _ => constructor <;> first | assumption | grind -linarith [Event.isForQueues]

/-! ## §7 Runs -/

/-- All invariants of the signals. -/
structure Sound (x : Signals) : Prop where
  gate : x.Gate
  course : x.Course
  solving : x.Solving
  unanswered : x.Unanswered
  meetsJobs : MeetsJobs x.log
  timers : x.Timers
  expiries : x.Expiries
  cutoffs : x.Cutoffs
  interrupts : x.Interrupts
  alarms : x.Alarms
  outcomes : x.Outcomes
  faults : x.Faults

theorem Sound.step (hx : x.Sound) (h : x.Step y) : y.Sound where
  gate := hx.gate.step h
  course := hx.course.step h
  solving := hx.solving.step hx.gate h
  unanswered := hx.unanswered.step hx.course hx.solving h
  meetsJobs := meetsJobs_step hx.meetsJobs hx.solving hx.unanswered h
  timers := hx.timers.step hx.course h
  expiries := hx.expiries.step hx.timers h
  cutoffs := hx.cutoffs.step hx.course hx.timers hx.expiries h
  interrupts := hx.interrupts.step hx.gate hx.course h
  alarms := hx.alarms.step hx.course h
  outcomes := hx.outcomes.step hx.solving hx.unanswered hx.timers hx.cutoffs hx.interrupts h
  faults := hx.faults.step hx.timers h

end Signals

end Search

end SpectrumPacking
