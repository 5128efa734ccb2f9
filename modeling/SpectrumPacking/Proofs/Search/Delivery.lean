import SpectrumPacking.Proofs.Search.Exchange
import SpectrumPacking.Search.Script

/-!
# Answers Reach Their Callers

Callers share the two queues of a driver, and answers carry no name.  A caller still gets the answer
to its own job, whatever the order of steps: it keeps its turn from before it sends a job until it
has an answer, so at most one job is on its way.

The invariants are kept apart by what they speak of: the end of the worker (`Exchange.Ended`), turns
(`Exchange.Turns`), jobs and answers on their way (`Exchange.Line`), calls (`Exchange.Calls`), where
answers come from (`Exchange.Sources`), and what was published and delivered (`Exchange.Ledger`).
Each has one statement about a step; `Driver.answersOwnJobs_of_reaches` puts them together.
-/

namespace SpectrumPacking

open Search

namespace Search

/-! ## §1 Records of Calls -/

/-- A caller is in a call for a job, or back from it, and since it started the call there have been
some events. -/
def InCall (log : List Event) (c : CallerId) (job : Job) (events : List Event) : Prop :=
  ∃ since before, log = since ++ .called c (.solve job) :: before ∧
    (∀ r, ¬ .called c r ∈ since) ∧ ∀ e ∈ events, e ∈ since

theorem inCall_start {log : List Event} {c : CallerId} {job : Job} :
    InCall (.called c (.solve job) :: log) c job [] :=
  ⟨[], log, rfl, by simp, by simp⟩

theorem InCall.cons {log events : List Event} {c : CallerId} {job : Job} {e : Event}
    (h : InCall log c job events) (he : ∀ r, e ≠ .called c r) :
    InCall (e :: log) c job (e :: events) := by
  obtain ⟨since, before, rfl, hsince, hevents⟩ := h
  refine ⟨e :: since, before, rfl, ?_, ?_⟩
  · intro r hr
    rcases List.mem_cons.1 hr with hr | hr
    · exact he r hr.symm
    · exact hsince r hr
  · intro e' he'
    rcases List.mem_cons.1 he' with rfl | he'
    · exact List.mem_cons_self
    · exact List.mem_cons_of_mem _ (hevents e' he')

theorem InCall.mono {log events events' : List Event} {c : CallerId} {job : Job}
    (h : InCall log c job events) (hsub : ∀ e ∈ events', e ∈ events) :
    InCall log c job events' := by
  obtain ⟨since, before, hlog, hsince, hevents⟩ := h
  exact ⟨since, before, hlog, hsince, fun e he => hevents e (hsub e he)⟩

theorem InCall.note {log events : List Event} {c : CallerId} {job : Job} {e : Event}
    (h : InCall log c job events) (he : ∀ r, e ≠ .called c r) : InCall (e :: log) c job events :=
  (h.cons he).mono fun _ he' => List.mem_cons_of_mem _ he'

/-- A caller is in one call at a time. -/
theorem InCall.unique {log events events' : List Event} {c : CallerId} {job job' : Job}
    (h : InCall log c job events) (h' : InCall log c job' events') : job = job' := by
  obtain ⟨since, before, rfl, hsince, -⟩ := h
  obtain ⟨since', before', hlog, hsince', -⟩ := h'
  -- of two starts of calls the later one would lie in the other call
  rcases List.append_eq_append_iff.1 hlog with ⟨l, hl, hrest⟩ | ⟨l, hl, hrest⟩
  · cases l with
    | nil =>
      cases hrest
      rfl
    | cons e l =>
      cases hrest
      exact absurd (hl ▸ List.mem_append_right _ List.mem_cons_self) (hsince' _)
  · cases l with
    | nil =>
      cases hrest
      rfl
    | cons e l =>
      cases hrest
      exact absurd (hl ▸ List.mem_append_right _ List.mem_cons_self) (hsince _)

theorem InCall.mem {log events : List Event} {c : CallerId} {job : Job} {e : Event}
    (h : InCall log c job events) (he : e ∈ events) : e ∈ log := by
  obtain ⟨since, before, rfl, -, hevents⟩ := h
  exact List.mem_append_left _ (hevents e he)

/-- What has happened in the call of a caller, by its role. -/
def Role.Recorded (log : List Event) (c : CallerId) : Role → Prop
  | .away | .closing => True
  | .asking job | .holding job | .sending job => InCall log c job []
  | .waiting t => ∃ job, InCall log c job [.sent c t job]
  | .leaving _ (.ok a) | .back (.ok a) =>
    ∃ t job, InCall log c job [.delivered c t t (.ok a), .sent c t job]
  | .leaving _ (.error _) | .back (.error _) => True

/-- What has happened in a call stays so until the caller starts the next one. -/
theorem Role.Recorded.note {log : List Event} {c : CallerId} {r : Role} {e : Event}
    (h : r.Recorded log c) (he : ∀ r, e ≠ .called c r) : r.Recorded (e :: log) c := by
  cases r with
  | away => trivial
  | closing => trivial
  | asking job => exact InCall.note h he
  | holding job => exact InCall.note h he
  | sending job => exact InCall.note h he
  | waiting t =>
    obtain ⟨job, h⟩ := h
    exact ⟨job, h.note he⟩
  -- a result that is no answer says nothing about the job
  | leaving ticket result =>
    cases result with
    | error => trivial
    | ok a =>
      obtain ⟨t, job, h⟩ := h
      exact ⟨t, job, h.note he⟩
  | back result =>
    cases result with
    | error => trivial
    | ok a =>
      obtain ⟨t, job, h⟩ := h
      exact ⟨t, job, h.note he⟩

namespace Exchange

variable {ε : Type} {x x' : Exchange ε} {o : Option CallerId}

/-! ## §2 The End of the Worker -/

/-- Whoever is at its end, or ends something, knows that the worker has to end. -/
structure Ended (x : Exchange ε) : Prop where
  finished : x.hand.isOver = true → x.terminated = true
  closing : ∀ c, x.role c = .closing → x.terminated = true
  closed : x.isClosed = true → x.terminated = true

theorem entry_role_ne_closing {r : Request} : r.entry.role ≠ .closing := by
  cases r <;> exact Role.noConfusion

theorem hasTurn_entry_role {r : Request} : r.entry.role.hasTurn = false := by
  cases r <;> rfl

theorem Ended.of_eq {y : Exchange ε} (hx : x.Ended) (hhand : y.hand = x.hand)
    (hrole : y.role = x.role) (hterm : y.terminated = x.terminated)
    (hclosed : y.isClosed = x.isClosed) : y.Ended := by
  refine ⟨?_, ?_, ?_⟩
  · rw [hhand, hterm]
    exact hx.finished
  · rw [hrole, hterm]
    exact hx.closing
  · rw [hclosed, hterm]
    exact hx.closed

theorem Ended.cast (hx : x.Ended) {c : CallerId} {r : Role}
    (hr : r = .closing → x.terminated = true) : (x.cast c r).Ended := by
  refine ⟨hx.finished, ?_, hx.closed⟩
  intro c' hc'
  dsimp only at hc'
  split at hc'
  · exact hr hc'
  · exact hx.closing c' hc'

theorem Ended.grasp (hx : x.Ended) {h : Hand} (hh : h.isOver = true → x.terminated = true) :
    (x.grasp h).Ended := ⟨hh, hx.closing, hx.closed⟩

theorem ended_of_terminated (h : x.terminated = true) : x.Ended :=
  ⟨fun _ => h, fun _ _ => h, fun _ => h⟩

theorem Ended.step [SearchEngine ε] (hx : x.Ended) (h : x.Step o x') : x'.Ended := by
  cases h with
  | quiet => exact hx
  | aside _ => exact hx.of_eq rfl rfl rfl rfl
  | call _ =>
    apply Ended.cast
    · exact hx.of_eq rfl rfl rfl rfl
    · exact fun h => absurd h entry_role_ne_closing
  | refuse _ _ | pass _ _ | giveUp _ | hangUp _ _ _ => exact hx.cast nofun
  | lock _ _ | send _ | deliver _ _ | unlock _ =>
    apply Ended.cast
    · exact hx.of_eq rfl rfl rfl rfl
    · nofun
  | terminate _ => exact ended_of_terminated rfl
  | close hc => exact ended_of_terminated (hx.closing _ hc)
  -- the worker comes to its end only when it has to
  | stop _ hend => exact hx.grasp fun _ => hend.elim hx.closed id
  | drop _ hterm => exact ended_of_terminated hterm
  | record _ => exact ended_of_terminated rfl
  | publishFailure h =>
    have hterm := hx.finished (by rw [h]; rfl)
    exact ended_of_terminated hterm
  | exit h =>
    have hterm := hx.finished (by rw [h]; rfl)
    exact ended_of_terminated hterm
  | answer _ _ | fail _ => exact hx.grasp nofun
  | take _ _ | accept _ | arm _ | conclude _ _ | publish _ =>
    apply Ended.grasp
    · exact hx.of_eq rfl rfl rfl rfl
    · nofun
  | search _ _ => exact hx.of_eq rfl rfl rfl rfl

/-! ## §3 Turns -/

/-- It is the turn of the caller that holds the lock of the answer queue. -/
def Turns (x : Exchange ε) : Prop := ∀ c, (x.role c).hasTurn = true ↔ x.turn = some c

theorem Turns.unique (hx : x.Turns) {c c' : CallerId} (hc : (x.role c).hasTurn = true)
    (hc' : (x.role c').hasTurn = true) : c = c' :=
  Option.some.inj (((hx c).1 hc).symm.trans ((hx c').1 hc'))

theorem Turns.step [SearchEngine ε] (hx : x.Turns) (h : x.Step o x') : x'.Turns := by
  cases h with
  | call _ =>
    have hentry := @hasTurn_entry_role
    grind [Turns]
  | lock _ _ | unlock _ => grind [Turns, Role.hasTurn]
  -- whoever has its turn keeps it, and whoever has not does not get it
  | refuse _ _ | pass _ _ | send _ | giveUp _ | deliver _ _ | hangUp _ _ _ | terminate _
  | close _ =>
    grind [Turns, Role.hasTurn]
  | _ => exact hx

/-! ## §4 Jobs and Answers on Their Way -/

/-- The tickets on their way, from those next to be delivered on. -/
def line (x : Exchange ε) : List Ticket :=
  x.answers.map Prod.fst ++ (x.hand.ticket?.toList ++ x.problems.map Prod.fst)

/-- At most one job is on its way, and its sender waits for it. -/
structure Line (x : Exchange ε) : Prop where
  single : x.line.length ≤ 1
  /-- Only a job that the worker left behind at its end has no one who waits for it. -/
  awaited : ∀ t ∈ x.line, (∃ c, x.role c = .waiting t) ∨ (x.hand = .gone ∧ x.answers = [])
  unsent : ∀ c job, x.role c = .sending job → x.line = []

/-- In the turn of a caller that has nothing on its way, only a job left behind may be there. -/
theorem Line.eq_nil (hx : x.Line) (hturns : x.Turns) (hended : x.Ended)
    (hterm : x.terminated = false) {c : CallerId} (hc : (x.role c).hasTurn = true)
    (hwaiting : ∀ t, x.role c ≠ .waiting t) : x.line = [] := by
  apply List.eq_nil_iff_forall_not_mem.2
  intro t ht
  rcases hx.awaited t ht with ⟨c', hc'⟩ | ⟨hgone, -⟩
  · have hsame := hturns.unique hc (by rw [hc']; rfl : (x.role c').hasTurn = true)
    exact hwaiting t (hsame ▸ hc')
  · have := hended.finished (by rw [hgone]; rfl)
    rw [hterm] at this
    cases this

/-- The first answer in the queue is for the caller that waits for one. -/
theorem Line.ticket_eq (hx : x.Line) (hturns : x.Turns) {c : CallerId} {t t' : Ticket}
    {r : Except EngineError Answer} {rest : List (Ticket × Except EngineError Answer)}
    (hc : x.role c = .waiting t) (hanswers : x.answers = (t', r) :: rest) : t' = t := by
  rcases hx.awaited t' (by simp [line, hanswers]) with ⟨c', hc'⟩ | ⟨-, hnil⟩
  · have hsame := hturns.unique (by rw [hc]; rfl : (x.role c).hasTurn = true)
      (by rw [hc']; rfl : (x.role c').hasTurn = true)
    rw [← hsame, hc] at hc'
    injection hc' with h
    exact h.symm
  · rw [hanswers] at hnil
    cases hnil

theorem Line.eq_of_mem (hx : x.Line) {t t' : Ticket} (ht : t ∈ x.line) (ht' : t' ∈ x.line) :
    t = t' := by
  have hsingle := hx.single
  generalize x.line = l at ht ht' hsingle
  match l, hsingle with
  | [u], _ => rw [List.mem_singleton.1 ht, List.mem_singleton.1 ht']

theorem Line.step [SearchEngine ε] (hx : x.Line) (hturns : x.Turns) (hended : x.Ended)
    (h : x.Step o x') : x'.Line := by
  have hentry := @hasTurn_entry_role
  have hline := hx
  obtain ⟨hsingle, hawaited, hunsent⟩ := hx
  cases h with
  | @pass c job hc hterm =>
    have hnil : x.line = [] := by
      apply hline.eq_nil hturns hended hterm (c := c) (by rw [hc]; rfl)
      intro t ht
      rw [hc] at ht
      cases ht
    constructor <;> grind [line]
  | @send c job hc =>
    -- nothing is on its way before, and the new job alone after
    have hnil : x.line = [] := hunsent c job hc
    have hothers : ∀ c' job', x.role c' = .sending job' → c' = c := by
      intro c' job' hc'
      exact hturns.unique (by rw [hc']; rfl) (by rw [hc]; rfl)
    constructor <;> grind [line]
  | @deliver c t t' r rest hc hanswers =>
    have hticket : t' = t := hline.ticket_eq hturns hc hanswers
    have hnil : rest.map Prod.fst ++ (x.hand.ticket?.toList ++ x.problems.map Prod.fst) = [] := by
      rw [line, hanswers] at hsingle
      simpa using hsingle
    constructor <;> grind [line]
  | _ => constructor <;> grind [line, Hand.ticket?, Role.hasTurn]

/-! ## §5 Calls -/

/-- A step adds at most one event, and that of a call only when the call starts. -/
theorem log_step [SearchEngine ε] (h : x.Step o x') :
    x'.log = x.log ∨ ∃ e, x'.log = e :: x.log ∧ ∀ c r, e = .called c r → o = some c := by
  cases h with
  | aside he =>
    refine Or.inr ⟨_, rfl, ?_⟩
    rintro c r rfl
    cases he
  | call =>
    refine Or.inr ⟨_, rfl, ?_⟩
    rintro c r ⟨⟩
    rfl
  | _ => first | exact Or.inl rfl | exact Or.inr ⟨_, rfl, nofun⟩

/-- A caller stays in its call until it starts another one. -/
theorem inCall_step [SearchEngine ε] (h : x.Step o x') {c : CallerId} (ho : o ≠ some c) {job : Job}
    {events : List Event} (hcall : InCall x.log c job events) : InCall x'.log c job events := by
  rcases log_step h with hlog | ⟨e, hlog, he⟩
  · rw [hlog]
    exact hcall
  · rw [hlog]
    exact hcall.note fun r hr => ho (he c r hr)

/-- What has happened in every call. -/
def Calls (x : Exchange ε) : Prop := ∀ c, (x.role c).Recorded x.log c

/-- Nothing but the start of a call changes what has happened in the calls. -/
theorem Calls.note (hx : x.Calls) (e : Event) (he : ∀ c r, e ≠ .called c r)
    (hrole : x'.role = x.role) (hlog : x'.log = e :: x.log) : x'.Calls := by
  intro c
  rw [hrole, hlog]
  exact (hx c).note (he c)

theorem Calls.cast (hx : x.Calls) {c : CallerId} {r : Role} (hr : r.Recorded x.log c) :
    (x.cast c r).Calls := by
  intro i
  show (if i = c then r else x.role i).Recorded x.log i
  split
  · rename_i hi
    rw [hi]
    exact hr
  · exact hx i

theorem Calls.recorded (hx : x.Calls) {c : CallerId} {r : Role} (hc : x.role c = r) :
    r.Recorded x.log c := hc ▸ hx c

theorem Calls.call (hx : x.Calls) {c : CallerId} {r : Request} :
    ((x.note (.called c r)).cast c r.entry.role).Calls := by
  intro i
  show (if i = c then r.entry.role else x.role i).Recorded (.called c r :: x.log) i
  split
  · rename_i hi
    rw [hi]
    cases r with
    | solve job => exact inCall_start
    | interrupt => trivial
    | shutdown => trivial
  · rename_i hi
    -- the call of one caller is no event of the call of another
    apply (hx i).note
    intro r' hr'
    injection hr' with hr'
    exact hi hr'.symm

theorem Calls.step [SearchEngine ε] (hx : x.Calls) (hturns : x.Turns) (hline : x.Line)
    (h : x.Step o x') : x'.Calls := by
  cases h with
  | quiet => exact hx
  | @aside e he =>
    refine hx.note e ?_ rfl rfl
    rintro c r rfl
    cases he
  | call _ => exact hx.call
  | @lock c job hc _ | @pass c job hc _ =>
    have hcall : InCall x.log c job [] := hx.recorded hc
    exact hx.cast hcall
  | refuse _ _ | giveUp _ | hangUp _ _ _ | close _ => exact hx.cast trivial
  | @send c job hc =>
    have hnote : (x.note (.sent c x.fresh job)).Calls :=
      hx.note (.sent c x.fresh job) nofun rfl rfl
    have hcall : InCall x.log c job [] := hx.recorded hc
    exact hnote.cast (r := .waiting x.fresh) ⟨job, hcall.cons nofun⟩
  | @deliver c t t' r rest hc hanswers =>
    have hnote : (x.note (.delivered c t t' r)).Calls :=
      hx.note (.delivered c t t' r) nofun rfl rfl
    -- the answer is that to the job which the caller has sent in this call
    have hticket := hline.ticket_eq hturns hc hanswers
    obtain ⟨job, hsent⟩ := hx.recorded hc
    apply hnote.cast
    cases r with
    | error => trivial
    | ok a =>
      subst hticket
      exact ⟨_, job, hsent.cons nofun⟩
  | @unlock c ticket r hc =>
    have hleaving := hx.recorded hc
    apply hx.cast
    cases r with
    | error => trivial
    | ok a => exact hleaving
  | terminate _ =>
    have hnote : x.terminate.Calls := hx.note .terminated nofun rfl rfl
    exact hnote.cast trivial
  -- the worker takes no part in calls
  | take _ _ | stop _ _ | drop _ _ | arm _ | search _ _ | answer _ _ | fail _ | exit _ => exact hx
  | accept _ => exact hx.note (.accepted _) nofun rfl rfl
  | conclude _ _ => exact hx.note (.concluded _ _) nofun rfl rfl
  | record _ => exact hx.note .terminated nofun rfl rfl
  | publish _ => exact hx.note (.published _ _) nofun rfl rfl
  | publishFailure _ => exact hx.note (.published _ _) nofun rfl rfl

/-! ## §6 Where Answers Come From -/

section Sources

variable [SearchEngine ε] {e₀ : ε}

/-- The status with which the engine ended its search for the formula of a ticket. -/
def HasConcluded (e₀ : ε) (log : List Event) (t : Ticket) (s : Status) : Prop :=
  .concluded t s ∈ log ∧ ∃ c job, .sent c t job ∈ log ∧ Concludes e₀ job s

/-- A result is for a job that was sent, and if it is SAT or UNSAT it is the status of the engine on
the formula of that job. -/
def IsBacked (e₀ : ε) (log : List Event) (t : Ticket) (r : Except EngineError Answer) : Prop :=
  (∃ c job, .sent c t job ∈ log) ∧
    ∀ a, r = .ok a →
      (a.verdict = .sat → HasConcluded e₀ log t (.sat a.literals)) ∧
        (a.verdict = .unsat → HasConcluded e₀ log t .unsat)

theorem HasConcluded.note {log : List Event} {t : Ticket} {s : Status} (e : Event)
    (h : HasConcluded e₀ log t s) : HasConcluded e₀ (e :: log) t s := by
  obtain ⟨hconcluded, c, job, hsent, hformula⟩ := h
  exact ⟨List.mem_cons_of_mem _ hconcluded, c, job, List.mem_cons_of_mem _ hsent, hformula⟩

theorem IsBacked.note {log : List Event} {t : Ticket} {r : Except EngineError Answer}
    (e : Event) (h : IsBacked e₀ log t r) : IsBacked e₀ (e :: log) t r := by
  obtain ⟨⟨c, job, hsent⟩, hanswer⟩ := h
  refine ⟨⟨c, job, List.mem_cons_of_mem _ hsent⟩, ?_⟩
  intro a ha
  obtain ⟨hsat, hunsat⟩ := hanswer a ha
  exact ⟨fun h => (hsat h).note e, fun h => (hunsat h).note e⟩

/-- A status of the engine backs the answer that it amounts to, and a timeout needs none. -/
theorem HasConcluded.isBacked {log : List Event} {t : Ticket} {s : Status} {a : Answer}
    (h : HasConcluded e₀ log t s) (ha : a = ⟨.timeout, []⟩ ∨ a = Driver.classify s) :
    IsBacked e₀ log t (.ok a) := by
  obtain ⟨c, job, hsent, -⟩ := h.2
  refine ⟨⟨c, job, hsent⟩, ?_⟩
  rintro b hb
  cases hb
  rcases ha with rfl | rfl
  · exact ⟨nofun, nofun⟩
  · cases s with
    | sat literals => exact ⟨fun _ => h, nofun⟩
    | unsat => exact ⟨nofun, fun _ => h⟩
    | unknown => exact ⟨nofun, nofun⟩

/-- What backs the thing in the hand of the worker. -/
def HandBacked (e₀ e : ε) (log : List Event) : Hand → Prop
  | .free | .ending | .gone => True
  | .taken t job | .inFlight t job => ∃ c, .sent c t job ∈ log
  | .searching t job => (∃ c, .sent c t job ∈ log) ∧ RunsFrom e₀ (some job) e
  | .finished t s => HasConcluded e₀ log t s
  | .answering t a => IsBacked e₀ log t (.ok a)
  | .failing t e | .failed t e => IsBacked e₀ log t (.error e)

theorem HandBacked.note {e' : ε} {log : List Event} {h : Hand} (e : Event)
    (hh : HandBacked e₀ e' log h) : HandBacked e₀ e' (e :: log) h := by
  cases h with
  | free | ending | gone => trivial
  | taken | inFlight =>
    obtain ⟨c, hsent⟩ := hh
    exact ⟨c, List.mem_cons_of_mem _ hsent⟩
  | searching =>
    obtain ⟨⟨c, hsent⟩, hruns⟩ := hh
    exact ⟨⟨c, List.mem_cons_of_mem _ hsent⟩, hruns⟩
  | finished => exact HasConcluded.note e hh
  | answering | failing | failed => exact IsBacked.note e hh

/-- The ticket in the hand of the worker is that of a job that was sent. -/
theorem HandBacked.exists_sent {e : ε} {log : List Event} {h : Hand} {t : Ticket}
    (hh : HandBacked e₀ e log h) (ht : h.ticket? = some t) : ∃ c job, .sent c t job ∈ log := by
  cases h with
  -- in these hands is no job
  | free | ending | gone => cases ht
  | taken | inFlight =>
    cases ht
    obtain ⟨c, hsent⟩ := hh
    exact ⟨c, _, hsent⟩
  | searching =>
    cases ht
    obtain ⟨⟨c, hsent⟩, -⟩ := hh
    exact ⟨c, _, hsent⟩
  | finished =>
    cases ht
    obtain ⟨-, c, job, hsent, -⟩ := hh
    exact ⟨c, job, hsent⟩
  | answering | failing | failed =>
    cases ht
    exact hh.1

/-- A ticket is that of one job, and everything done with it has to do with that job. -/
structure Sources (e₀ : ε) (x : Exchange ε) : Prop where
  fresh : ∀ c t job, .sent c t job ∈ x.log → t < x.fresh
  unique : ∀ c c' t job job', .sent c t job ∈ x.log → .sent c' t job' ∈ x.log →
    c = c' ∧ job = job'
  problem : ∀ t job, (t, job) ∈ x.problems → ∃ c, .sent c t job ∈ x.log
  runs : ∃ o, RunsFrom e₀ o x.engine
  inHand : HandBacked e₀ x.engine x.log x.hand
  published : ∀ t r, .published t r ∈ x.log → IsBacked e₀ x.log t r

/-- Callers, turns and flags have nothing to do with where answers come from. -/
theorem Sources.of_eq {y : Exchange ε} (hx : x.Sources e₀) (hengine : y.engine = x.engine)
    (hhand : y.hand = x.hand) (hproblems : y.problems = x.problems) (hfresh : y.fresh = x.fresh)
    (hlog : y.log = x.log) : y.Sources e₀ := by
  obtain ⟨engine, hand, role, turn, problems, answers, fresh, terminated, isClosed, log⟩ := y
  subst hengine hhand hproblems hfresh hlog
  exact ⟨hx.fresh, hx.unique, hx.problem, hx.runs, hx.inHand, hx.published⟩

theorem Sources.cast (hx : x.Sources e₀) {c : CallerId} {r : Role} : (x.cast c r).Sources e₀ :=
  hx.of_eq rfl rfl rfl rfl rfl

theorem Sources.grasp (hx : x.Sources e₀) {h : Hand} (hh : HandBacked e₀ x.engine x.log h) :
    (x.grasp h).Sources e₀ :=
  ⟨hx.fresh, hx.unique, hx.problem, hx.runs, hh, hx.published⟩

theorem Sources.note (hx : x.Sources e₀) (e : Event) (hsent : ∀ c t job, e ≠ .sent c t job)
    (hpublished : ∀ t r, e = .published t r → IsBacked e₀ x.log t r) : (x.note e).Sources e₀ := by
  -- no job is sent, so all that were sent are old
  have hold : ∀ c t job, .sent c t job ∈ e :: x.log → .sent c t job ∈ x.log := by
    intro c t job h
    rcases List.mem_cons.1 h with rfl | h
    · exact absurd rfl (hsent c t job)
    · exact h
  refine ⟨?_, ?_, ?_, hx.runs, hx.inHand.note e, ?_⟩
  · intro c t job h
    exact hx.fresh c t job (hold c t job h)
  · intro c c' t job job' h h'
    exact hx.unique c c' t job job' (hold c t job h) (hold c' t job' h')
  · intro t job h
    obtain ⟨c, hc⟩ := hx.problem t job h
    exact ⟨c, List.mem_cons_of_mem _ hc⟩
  · intro t r h
    rcases List.mem_cons.1 h with rfl | h
    · exact (hpublished t r rfl).note _
    · exact (hx.published t r h).note e

theorem Sources.publish (hx : x.Sources e₀) {t : Ticket} {r : Except EngineError Answer}
    (hr : IsBacked e₀ x.log t r) : (x.publish t r).Sources e₀ := by
  have hnote := hx.note (.published t r) nofun (by rintro _ _ ⟨⟩; exact hr)
  exact hnote.of_eq rfl rfl rfl rfl rfl

/-- A new ticket is that of the job just sent. -/
theorem Sources.send (hx : x.Sources e₀) {c : CallerId} {job : Job} :
    ({ x with problems := x.problems ++ [(x.fresh, job)], fresh := x.fresh + 1 }.note
      (.sent c x.fresh job)).Sources e₀ := by
  -- tickets in the log are below the fresh one
  have hnew : ∀ c' job', ¬ .sent c' x.fresh job' ∈ x.log :=
    fun c' job' h => absurd (hx.fresh c' x.fresh job' h) (Nat.lt_irrefl _)
  refine ⟨?_, ?_, ?_, hx.runs, hx.inHand.note _, fun t r h => ?_⟩
  · intro c' t job' h
    rcases List.mem_cons.1 h with h | h
    · cases h
      exact Nat.lt_succ_self _
    · exact Nat.lt_succ_of_lt (hx.fresh c' t job' h)
  · intro c₁ c₂ t job₁ job₂ h₁ h₂
    rcases List.mem_cons.1 h₁ with h₁ | h₁ <;> rcases List.mem_cons.1 h₂ with h₂ | h₂
    · cases h₁
      cases h₂
      exact ⟨rfl, rfl⟩
    · cases h₁
      exact absurd h₂ (hnew _ _)
    · cases h₂
      exact absurd h₁ (hnew _ _)
    · exact hx.unique c₁ c₂ t job₁ job₂ h₁ h₂
  · intro t job' h
    rcases List.mem_append.1 h with h | h
    · obtain ⟨c', hc'⟩ := hx.problem t job' h
      exact ⟨c', List.mem_cons_of_mem _ hc'⟩
    · cases List.mem_singleton.1 h
      exact ⟨c, List.mem_cons_self⟩
  · rcases List.mem_cons.1 h with h | h
    · cases h
    · exact (hx.published t r h).note _

theorem Sources.step (hx : x.Sources e₀) (h : x.Step o x') : x'.Sources e₀ := by
  have hhand := hx.inHand
  cases h with
  | quiet => exact hx
  | @aside e he =>
    apply hx.note e
    · rintro c t job rfl
      cases he
    · rintro t r rfl
      cases he
  | @call c r _ => exact (hx.note (.called c r) nofun nofun).cast
  | send _ => exact hx.send.cast
  | refuse _ _ | pass _ _ | giveUp _ | hangUp _ _ _ => exact hx.cast
  | lock _ _ | unlock _ | close _ => exact hx.of_eq rfl rfl rfl rfl rfl
  | @deliver c t t' r rest _ _ =>
    have hnote := hx.note (.delivered c t t' r) nofun nofun
    exact hnote.of_eq rfl rfl rfl rfl rfl
  | terminate _ =>
    have hnote := hx.note .terminated nofun nofun
    exact hnote.of_eq rfl rfl rfl rfl rfl
  | @take t job rest _ hproblems =>
    -- what is in the queue was sent, so what comes into the hand was
    have hsent := hx.problem t job (by rw [hproblems]; exact List.mem_cons_self)
    refine ⟨hx.fresh, hx.unique, ?_, hx.runs, hsent, hx.published⟩
    intro t' job' h
    exact hx.problem t' job' (by rw [hproblems]; exact List.mem_cons_of_mem _ h)
  | stop _ _ | drop _ _ | exit _ => exact hx.grasp trivial
  | @accept t job htaken =>
    rw [htaken] at hhand
    obtain ⟨c, hsent⟩ := hhand
    exact (hx.note (.accepted t) nofun nofun).grasp ⟨c, List.mem_cons_of_mem _ hsent⟩
  -- from here on the engine is on the run for the formula of the job in hand
  | @arm t job hflight =>
    rw [hflight] at hhand
    obtain ⟨o, hruns⟩ := hx.runs
    have hstart := hruns.start job
    exact ⟨hx.fresh, hx.unique, hx.problem, ⟨_, hstart⟩, ⟨hhand, hstart⟩, hx.published⟩
  | @search t job e stop hsearching hpoll =>
    rw [hsearching] at hhand
    have hruns := hhand.2.poll hpoll
    refine ⟨hx.fresh, hx.unique, hx.problem, ⟨_, hruns⟩, ?_, hx.published⟩
    rw [hsearching]
    exact ⟨hhand.1, hruns⟩
  | @conclude t job e stop s hsearching hpoll =>
    rw [hsearching] at hhand
    obtain ⟨⟨c, hsent⟩, hruns⟩ := hhand
    have hnote := hx.note (.concluded t s) nofun nofun
    have hconcluded : HasConcluded e₀ (.concluded t s :: x.log) t s :=
      ⟨List.mem_cons_self, c, job, List.mem_cons_of_mem _ hsent, _, e, stop, hruns, hpoll⟩
    exact ⟨hnote.fresh, hnote.unique, hnote.problem, ⟨_, hruns.finish hpoll⟩, hconcluded,
      hnote.published⟩
  | answer hfinished ha =>
    rw [hfinished] at hhand
    exact hx.grasp (HasConcluded.isBacked hhand ha)
  | fail hticket => exact hx.grasp ⟨hhand.exists_sent hticket, nofun⟩
  | @record t e hfailing =>
    rw [hfailing] at hhand
    have hterminate : x.terminate.Sources e₀ :=
      (hx.note .terminated nofun nofun).of_eq rfl rfl rfl rfl rfl
    exact hterminate.grasp (IsBacked.note _ hhand)
  | publish hanswering =>
    rw [hanswering] at hhand
    exact (hx.publish hhand).grasp trivial
  | publishFailure hfailed =>
    rw [hfailed] at hhand
    exact (hx.publish hhand).grasp trivial

end Sources

/-! ## §7 What Was Published and Delivered -/

/-- What an event published. -/
def published? : Event → Option (Ticket × Except EngineError Answer)
  | .published t r => some (t, r)
  | _ => none

/-- What an event delivered. -/
def delivered? : Event → Option (Ticket × Except EngineError Answer)
  | .delivered _ _ t r => some (t, r)
  | _ => none

/-- What was published, in order. -/
def publishedLog (log : List Event) : List (Ticket × Except EngineError Answer) :=
  log.reverse.filterMap published?

/-- What was delivered, in order. -/
def deliveredLog (log : List Event) : List (Ticket × Except EngineError Answer) :=
  log.reverse.filterMap delivered?

theorem publishedLog_cons {e : Event} {log : List Event} :
    publishedLog (e :: log) = publishedLog log ++ (published? e).toList := by
  rw [publishedLog, List.reverse_cons, List.filterMap_append]
  cases h : published? e <;> simp [publishedLog, h]

theorem deliveredLog_cons {e : Event} {log : List Event} :
    deliveredLog (e :: log) = deliveredLog log ++ (delivered? e).toList := by
  rw [deliveredLog, List.reverse_cons, List.filterMap_append]
  cases h : delivered? e <;> simp [deliveredLog, h]

theorem mem_publishedLog {log : List Event} {t : Ticket} {r : Except EngineError Answer} :
    (t, r) ∈ publishedLog log ↔ .published t r ∈ log := by
  simp only [publishedLog, List.mem_filterMap, List.mem_reverse]
  constructor
  · rintro ⟨e, he, heq⟩
    unfold published? at heq
    split at heq
    · cases heq
      exact he
    · cases heq
  · intro h
    exact ⟨_, h, rfl⟩

theorem mem_deliveredLog {log : List Event} {t : Ticket} {r : Except EngineError Answer} :
    (t, r) ∈ deliveredLog log ↔ ∃ c t', .delivered c t' t r ∈ log := by
  simp only [deliveredLog, List.mem_filterMap, List.mem_reverse]
  constructor
  · rintro ⟨e, he, heq⟩
    unfold delivered? at heq
    split at heq
    · rename_i c t' _ _
      cases heq
      exact ⟨c, t', he⟩
    · cases heq
  · rintro ⟨c, t', h⟩
    exact ⟨_, h, rfl⟩

/-- The books of an exchange: what was published was delivered or is in the queue, and nothing was
published for a job that is still on its way to the worker or in its hand. -/
structure Ledger (x : Exchange ε) : Prop where
  queue : publishedLog x.log = deliveredLog x.log ++ x.answers
  unanswered : ∀ t, x.hand.ticket? = some t ∨ t ∈ x.problems.map Prod.fst →
    ∀ r, ¬ .published t r ∈ x.log
  nodup : ((publishedLog x.log).map Prod.fst).Nodup
  accepted : ∀ t, .accepted t ∈ x.log → (∃ r, .published t r ∈ x.log) ∨ x.hand.owed? = some t
  own : ∀ c t t' r, .delivered c t t' r ∈ x.log → t' = t ∧ ∃ job, .sent c t job ∈ x.log

theorem mem_log_of_ne {e e' : Event} (h : e' ∈ (x.note e).log) (hne : e' ≠ e) : e' ∈ x.log :=
  List.mem_of_ne_of_mem hne h

/-- An event that publishes, delivers and accepts nothing leaves the books alone. -/
theorem Ledger.note (hx : x.Ledger) (e : Event) (hpublished : published? e = none)
    (hdelivered : delivered? e = none) (haccepted : ∀ t, e ≠ .accepted t) :
    (x.note e).Ledger := by
  constructor
  case queue =>
    -- both sides of the queue stay as they are
    rw [publishedLog_cons, deliveredLog_cons, hpublished, hdelivered]
    simpa using hx.queue
  case unanswered =>
    intro t ht r hr
    refine hx.unanswered t ht r (mem_log_of_ne hr ?_)
    rintro rfl
    cases hpublished
  case nodup =>
    rw [publishedLog_cons, hpublished]
    simpa using hx.nodup
  case accepted =>
    intro t ht
    rcases hx.accepted t (mem_log_of_ne ht (haccepted t).symm) with ⟨r, hr⟩ | howed
    · exact Or.inl ⟨r, List.mem_cons_of_mem _ hr⟩
    · exact Or.inr howed
  case own =>
    intro c t t' r h
    have hne : Event.delivered c t t' r ≠ e := by
      rintro rfl
      cases hdelivered
    obtain ⟨hticket, job, hsent⟩ := hx.own c t t' r (mem_log_of_ne h hne)
    exact ⟨hticket, job, List.mem_cons_of_mem _ hsent⟩

/-- Callers, turns, flags and the engine are not in the books. -/
theorem Ledger.of_eq {y : Exchange ε} (hx : x.Ledger) (hhand : y.hand = x.hand)
    (hproblems : y.problems = x.problems) (hanswers : y.answers = x.answers)
    (hlog : y.log = x.log) : y.Ledger := by
  obtain ⟨engine, hand, role, turn, problems, answers, fresh, terminated, isClosed, log⟩ := y
  subst hhand hproblems hanswers hlog
  exact ⟨hx.queue, hx.unanswered, hx.nodup, hx.accepted, hx.own⟩

theorem Ledger.cast (hx : x.Ledger) {c : CallerId} {r : Role} : (x.cast c r).Ledger :=
  hx.of_eq rfl rfl rfl rfl

/-- The worker may put down or turn over what it has in hand, if it still owes what it owed. -/
theorem Ledger.grasp (hx : x.Ledger) {h : Hand}
    (hticket : ∀ t, h.ticket? = some t → x.hand.ticket? = some t)
    (howed : ∀ t, x.hand.owed? = some t → h.owed? = some t) : (x.grasp h).Ledger := by
  refine ⟨hx.queue, ?_, hx.nodup, ?_, hx.own⟩
  · intro t ht
    exact hx.unanswered t (ht.imp_left (hticket t))
  · intro t ht
    exact (hx.accepted t ht).imp_right (howed t)

/-- The new ticket has no answer yet, since only tickets of sent jobs have. -/
theorem Ledger.send [SearchEngine ε] {e₀ : ε} (hx : x.Ledger) (hsources : x.Sources e₀)
    {c : CallerId} {job : Job} :
    ({ x with problems := x.problems ++ [(x.fresh, job)], fresh := x.fresh + 1 }.note
      (.sent c x.fresh job)).Ledger := by
  have hnote := hx.note (.sent c x.fresh job) rfl rfl nofun
  refine ⟨hnote.queue, ?_, hnote.nodup, hnote.accepted, hnote.own⟩
  intro t ht r hr
  have hr : .published t r ∈ x.log := by simpa using hr
  simp only [List.map_append, List.map_cons, List.map_nil, List.mem_append,
    List.mem_singleton] at ht
  rcases ht with ht | ht | rfl
  · exact hx.unanswered t (Or.inl ht) r hr
  · exact hx.unanswered t (Or.inr ht) r hr
  · obtain ⟨⟨c', job', hsent⟩, -⟩ := hsources.published _ r hr
    exact absurd (hsources.fresh c' _ job' hsent) (Nat.lt_irrefl _)

/-- The first answer in the queue is entered as delivered. -/
theorem Ledger.deliver (hx : x.Ledger) {c : CallerId} {t : Ticket}
    {r : Except EngineError Answer} {rest : List (Ticket × Except EngineError Answer)}
    (hanswers : x.answers = (t, r) :: rest) (hsent : ∃ job, .sent c t job ∈ x.log) :
    ({ x with answers := rest }.note (.delivered c t t r)).Ledger := by
  constructor
  case queue =>
    rw [publishedLog_cons, deliveredLog_cons, hx.queue, hanswers]
    simp [published?, delivered?]
  case unanswered =>
    intro t₁ ht₁ r₁ hr₁
    exact hx.unanswered t₁ ht₁ r₁ (mem_log_of_ne hr₁ nofun)
  case nodup =>
    rw [publishedLog_cons]
    simpa [published?] using hx.nodup
  case accepted =>
    intro t₁ ht₁
    rcases hx.accepted t₁ (mem_log_of_ne ht₁ nofun) with ⟨r₁, hr₁⟩ | howed
    · exact Or.inl ⟨r₁, List.mem_cons_of_mem _ hr₁⟩
    · exact Or.inr howed
  case own =>
    intro c₁ t₁ t₂ r₁ h₁
    rcases List.mem_cons.1 h₁ with h₁ | h₁
    · obtain ⟨job, hjob⟩ := hsent
      cases h₁
      exact ⟨rfl, job, List.mem_cons_of_mem _ hjob⟩
    · obtain ⟨hown, job, hjob⟩ := hx.own c₁ t₁ t₂ r₁ h₁
      exact ⟨hown, job, List.mem_cons_of_mem _ hjob⟩

/-- What the worker accepts is owed. -/
theorem Ledger.accept (hx : x.Ledger) {t : Ticket} {job : Job} (htaken : x.hand = .taken t job) :
    ((x.note (.accepted t)).grasp (.inFlight t job)).Ledger := by
  constructor
  case queue =>
    rw [publishedLog_cons, deliveredLog_cons, hx.queue]
    simp [published?, delivered?]
  case unanswered =>
    intro t₁ ht₁ r₁ hr₁
    exact hx.unanswered t₁ (by rw [htaken]; exact ht₁) r₁ (mem_log_of_ne hr₁ nofun)
  case nodup =>
    rw [publishedLog_cons]
    simpa [published?] using hx.nodup
  case accepted =>
    intro t₁ ht₁
    rcases List.mem_cons.1 ht₁ with ht₁ | ht₁
    · cases ht₁
      exact Or.inr rfl
    · rcases hx.accepted t₁ ht₁ with ⟨r₁, hr₁⟩ | howed
      · exact Or.inl ⟨r₁, List.mem_cons_of_mem _ hr₁⟩
      · rw [htaken] at howed
        cases howed
  case own =>
    intro c t₁ t₂ r₁ h₁
    obtain ⟨hown, job₁, hsent⟩ := hx.own c t₁ t₂ r₁ (mem_log_of_ne h₁ nofun)
    exact ⟨hown, job₁, List.mem_cons_of_mem _ hsent⟩

/-- The answer to the job in hand is the first for it. -/
theorem Ledger.publish (hx : x.Ledger) (hline : x.Line) {t : Ticket}
    {r : Except EngineError Answer} (ht : x.hand.ticket? = some t) {h : Hand}
    (hh : h.ticket? = none) : ((x.publish t r).grasp h).Ledger := by
  -- the job in hand is the only one in line
  have hproblems : x.problems.map Prod.fst = [] := by
    have hsingle := hline.single
    rw [line, ht] at hsingle
    apply List.eq_nil_of_length_eq_zero
    simp only [List.length_append, Option.toList_some, List.length_singleton] at hsingle
    omega
  constructor
  case queue =>
    rw [publishedLog_cons, deliveredLog_cons, hx.queue]
    simp [published?, delivered?]
  case unanswered =>
    intro t' ht'
    rw [hh, hproblems] at ht'
    rcases ht' with ht' | ht' <;> cases ht'
  case nodup =>
    rw [publishedLog_cons, List.map_append, List.nodup_append]
    refine ⟨hx.nodup, by simp [published?], ?_⟩
    rintro t₁ ht₁ t₂ ht₂ rfl
    obtain ⟨⟨t₁, r₁⟩, hmem, rfl⟩ := List.mem_map.1 ht₁
    cases List.mem_singleton.1 ht₂
    exact hx.unanswered t (Or.inl ht) r₁ (mem_publishedLog.1 hmem)
  case accepted =>
    intro t' ht'
    rcases hx.accepted t' (mem_log_of_ne ht' nofun) with ⟨r', hr'⟩ | howed
    · exact Or.inl ⟨r', List.mem_cons_of_mem _ hr'⟩
    · rw [Hand.ticket?_of_owed? howed] at ht
      cases ht
      exact Or.inl ⟨r, List.mem_cons_self⟩
  case own =>
    intro c t₁ t₂ r' h'
    obtain ⟨hticket, job, hsent⟩ := hx.own c t₁ t₂ r' (mem_log_of_ne h' nofun)
    exact ⟨hticket, job, List.mem_cons_of_mem _ hsent⟩

/-- A job that the worker takes off the queue has no answer yet, like those left in it. -/
theorem Ledger.take (hx : x.Ledger) {t : Ticket} {job : Job} {rest : List (Ticket × Job)}
    (hfree : x.hand = .free) (hproblems : x.problems = (t, job) :: rest) :
    ({ x with problems := rest }.grasp (.taken t job)).Ledger := by
  have hunanswered := hx.unanswered
  rw [hfree, hproblems] at hunanswered
  have haccepted := hx.accepted
  rw [hfree] at haccepted
  refine ⟨hx.queue, ?_, hx.nodup, haccepted, hx.own⟩
  intro t' ht'
  apply hunanswered t'
  rw [List.map_cons, List.mem_cons]
  rcases ht' with ht' | ht'
  · cases ht'
    exact Or.inr (Or.inl rfl)
  · exact Or.inr (Or.inr ht')

theorem Ledger.step [SearchEngine ε] {e₀ : ε} (hx : x.Ledger) (hturns : x.Turns) (hline : x.Line)
    (hcalls : x.Calls) (hsources : x.Sources e₀) (h : x.Step o x') : x'.Ledger := by
  cases h with
  | quiet => exact hx
  | @aside e he =>
    apply hx.note e
    · cases e <;> first | rfl | cases he
    · cases e <;> first | rfl | cases he
    · rintro t rfl
      cases he
  | @call c r _ => exact (hx.note (.called c r) rfl rfl nofun).cast
  | send _ => exact (hx.send hsources).cast
  | refuse _ _ | pass _ _ | giveUp _ | hangUp _ _ _ => exact hx.cast
  | lock _ _ | unlock _ | close _ | search _ _ => exact hx.of_eq rfl rfl rfl rfl
  | @deliver c t t' r rest hc hanswers =>
    -- the first answer is for this caller, which has sent its job in this call
    cases hline.ticket_eq hturns hc hanswers
    obtain ⟨job, hcall⟩ := hcalls.recorded hc
    exact (hx.deliver hanswers ⟨job, hcall.mem List.mem_cons_self⟩).cast
  | terminate _ =>
    have hnote := hx.note .terminated rfl rfl nofun
    exact hnote.of_eq rfl rfl rfl rfl
  | take hfree hproblems => exact hx.take hfree hproblems
  -- nothing is owed for a job that was not accepted
  | stop hfree _ => exact hx.grasp nofun (by rw [hfree]; exact nofun)
  | drop htaken _ => exact hx.grasp nofun (by rw [htaken]; exact nofun)
  | exit hending => exact hx.grasp nofun (by rw [hending]; exact nofun)
  | accept htaken => exact hx.accept htaken
  | @arm t job hflight =>
    have hgrasp := hx.grasp (h := .searching t job) (by simp [hflight, Hand.ticket?])
      (by simp [hflight, Hand.owed?])
    exact hgrasp.of_eq rfl rfl rfl rfl
  | @conclude t job e stop s hsearching _ =>
    have hnote := hx.note (.concluded t s) rfl rfl nofun
    have hgrasp := hnote.grasp (h := .finished t s) (by simp [hsearching, Hand.ticket?])
      (by simp [hsearching, Hand.owed?])
    exact hgrasp.of_eq rfl rfl rfl rfl
  | answer hfinished _ =>
    exact hx.grasp (by simp [hfinished, Hand.ticket?]) (by simp [hfinished, Hand.owed?])
  | fail hticket =>
    apply hx.grasp
    · rintro t ⟨⟩
      exact hticket
    · intro t howed
      rw [Hand.ticket?_of_owed? howed] at hticket
      cases hticket
      rfl
  | @record t e hfailing =>
    have hnote := hx.note .terminated rfl rfl nofun
    have hgrasp := hnote.grasp (h := .failed t e) (by simp [hfailing, Hand.ticket?])
      (by simp [hfailing, Hand.owed?])
    exact hgrasp.of_eq rfl rfl rfl rfl
  | publish hanswering => exact hx.publish hline (by rw [hanswering]; rfl) rfl
  | publishFailure hfailed => exact hx.publish hline (by rw [hfailed]; rfl) rfl

/-! ## §8 Runs -/

/-- All invariants of an exchange whose engine began as `e₀`. -/
structure Sound [SearchEngine ε] (e₀ : ε) (x : Exchange ε) : Prop where
  ended : x.Ended
  turns : x.Turns
  line : x.Line
  calls : x.Calls
  sources : x.Sources e₀
  ledger : x.Ledger

theorem Sound.step [SearchEngine ε] {e₀ : ε} (hx : x.Sound e₀) (h : x.Step o x') : x'.Sound e₀ where
  ended := hx.ended.step h
  turns := hx.turns.step h
  line := hx.line.step hx.turns hx.ended h
  calls := hx.calls.step hx.turns hx.line h
  sources := hx.sources.step h
  ledger := hx.ledger.step hx.turns hx.line hx.calls hx.sources h

end Exchange

end Search

namespace Driver

variable {ε : Type} [SearchEngine ε] {e₀ : ε} {seed : Nat} {grace : Duration} {d : Driver ε}

theorem sound_spawn : (spawn e₀ seed grace).exchange.Sound e₀ where
  ended := ⟨nofun, nofun, nofun⟩
  turns := fun _ => ⟨nofun, nofun⟩
  line := ⟨Nat.zero_le 1, nofun, nofun⟩
  calls := fun _ => trivial
  sources := ⟨nofun, nofun, nofun, ⟨none, .built⟩, trivial, nofun⟩
  ledger := ⟨rfl, nofun, List.nodup_nil, nofun, nofun⟩

theorem sound_of_reaches (h : (spawn e₀ seed grace).Reaches d) : d.exchange.Sound e₀ := by
  induction h with
  | start => exact sound_spawn
  | next l _ hstep ih => exact ih.step (exchange_step hstep)

/-- The job of a ticket is in the queue, or it was accepted and is not answered. -/
def IsPending (d : Driver ε) (t : Ticket) : Prop :=
  t ∈ d.problems.map Prod.fst ∨ (.accepted t ∈ d.history ∧ ∀ r, ¬ .published t r ∈ d.history)

/-- A call that was made for a job sent it, under a ticket of its own, and returned the answer that
was published for this ticket.  An answer SAT or UNSAT is the status with which the engine ended its
search for the formula of the job. -/
structure OwnAnswer (e₀ : ε) (log : List Event) (c : CallerId) (t : Ticket) (job : Job)
    (a : Answer) : Prop where
  call : InCall log c job [.sent c t job, .delivered c t t (.ok a)]
  own : ∀ c' job', .sent c' t job' ∈ log → c' = c ∧ job' = job
  published : .published t (.ok a) ∈ log
  sat : a.verdict = .sat →
    .concluded t (.sat a.literals) ∈ log ∧ Concludes e₀ job (.sat a.literals)
  unsat : a.verdict = .unsat → .concluded t .unsat ∈ log ∧ Concludes e₀ job .unsat

/-- Every caller of a driver gets the answer to its own job. -/
structure AnswersOwnJobs (e₀ : ε) (d : Driver ε) : Prop where
  /-- At most one job is in the queue. -/
  one_problem : d.problems.length ≤ 1
  /-- At most one job is in the queue, or accepted and not answered. -/
  one_pending : ∀ t t', d.IsPending t → d.IsPending t' → t = t'
  /-- At most one answer is in the queue. -/
  one_answer : d.answers.length ≤ 1
  /-- A call that returned an answer returned that to the job it was made for. -/
  own_answer : ∀ c a, d.calls c = .returned (.answer (.ok a)) →
    ∃ t job, OwnAnswer e₀ d.history c t job a
  /-- What was published has come to the caller that sent the job, or this caller waits for it. -/
  none_lost : ∀ t r, .published t r ∈ d.history → ∃ c job, .sent c t job ∈ d.history ∧
    (.delivered c t t r ∈ d.history ∨
      ((t, r) ∈ d.answers ∧ (d.calls c = .receive t ∨ d.calls c = .unlockProblems (some t))))
  /-- Nothing is delivered twice. -/
  delivered_once : ((Exchange.deliveredLog d.history).map Prod.fst).Nodup
  /-- What was delivered was published, and came to the caller that sent the job. -/
  delivered_own : ∀ c t t' r, .delivered c t t' r ∈ d.history →
    t' = t ∧ .published t r ∈ d.history ∧ ∃ job, .sent c t job ∈ d.history

/-- A pending job is on its way. -/
theorem mem_line_of_isPending (hd : d.exchange.Sound e₀) {t : Ticket} (h : d.IsPending t) :
    t ∈ d.exchange.line := by
  rw [Exchange.line]
  rcases h with h | ⟨haccepted, hunanswered⟩
  · exact List.mem_append_right _ (List.mem_append_right _ h)
  · rcases hd.ledger.accepted t haccepted with ⟨r, hr⟩ | howed
    · exact absurd hr (hunanswered r)
    · rw [Hand.ticket?_of_owed? howed]
      exact List.mem_append_right _ (List.mem_append_left _ List.mem_cons_self)

theorem mem_published_of_delivered (hd : d.exchange.Sound e₀) {c : CallerId} {t t' : Ticket}
    {r : Except EngineError Answer} (h : .delivered c t t' r ∈ d.history) :
    .published t' r ∈ d.history := by
  have hmem := Exchange.mem_deliveredLog.2 ⟨c, t, h⟩
  have hqueue : (t', r) ∈ Exchange.publishedLog d.history := by
    rw [show d.history = d.exchange.log from rfl, hd.ledger.queue]
    exact List.mem_append_left _ hmem
  exact Exchange.mem_publishedLog.1 hqueue

/-- What a call returned is the answer to the job it was made for. -/
theorem ownAnswer_of_returned (hd : d.exchange.Sound e₀) {c : CallerId} {a : Answer}
    (hc : d.calls c = .returned (.answer (.ok a))) :
    ∃ t job, OwnAnswer e₀ d.history c t job a := by
  have hrecorded := hd.calls c
  rw [exchange_role, hc] at hrecorded
  obtain ⟨t, job, hcall⟩ := hrecorded
  have hsent : .sent c t job ∈ d.history := hcall.mem (by simp)
  have hpublished := mem_published_of_delivered hd (hcall.mem List.mem_cons_self)
  obtain ⟨-, hbacked⟩ := hd.sources.published t (.ok a) hpublished
  obtain ⟨hsat, hunsat⟩ := hbacked a rfl
  have hown : ∀ c' job', .sent c' t job' ∈ d.history → c' = c ∧ job' = job :=
    fun c' job' h' => hd.sources.unique c' c t job' job h' hsent
  -- what the engine concluded for the ticket, it concluded for the job of the call
  have hconcludes : ∀ {s}, Exchange.HasConcluded e₀ d.history t s →
      .concluded t s ∈ d.history ∧ Concludes e₀ job s := by
    intro s hs
    obtain ⟨hconcluded, c', job', hsent', hformula⟩ := hs
    obtain ⟨-, rfl⟩ := hown c' job' hsent'
    exact ⟨hconcluded, hformula⟩
  exact ⟨t, job, hcall.mono (by simp), hown, hpublished, fun h => hconcludes (hsat h),
    fun h => hconcludes (hunsat h)⟩

/-- In every state that any run can reach, every caller gets the answer to its own job. -/
theorem answersOwnJobs_of_reaches (h : (spawn e₀ seed grace).Reaches d) :
    d.AnswersOwnJobs e₀ := by
  have hd := sound_of_reaches h
  -- queues and hand together hold one ticket at most
  have hsingle : d.answers.length +
      (d.worker.hand.ticket?.toList.length + d.problems.length) ≤ 1 := by
    simpa [Exchange.line, exchange] using hd.line.single
  constructor
  case one_problem =>
    omega
  case one_pending =>
    intro t t' ht ht'
    exact hd.line.eq_of_mem (mem_line_of_isPending hd ht) (mem_line_of_isPending hd ht')
  case one_answer =>
    omega
  case own_answer =>
    intro c a hc
    exact ownAnswer_of_returned hd hc
  case none_lost =>
    intro t r hpublished
    have hqueue := Exchange.mem_publishedLog.2 hpublished
    rw [show d.history = d.exchange.log from rfl, hd.ledger.queue, List.mem_append] at hqueue
    -- what was published has been delivered or is in the queue
    rcases hqueue with hdelivered | hanswer
    · obtain ⟨c, t', hdelivered⟩ := Exchange.mem_deliveredLog.1 hdelivered
      obtain ⟨rfl, job, hsent⟩ := hd.ledger.own c t' t r hdelivered
      exact ⟨c, job, hsent, Or.inl hdelivered⟩
    · have hline : t ∈ d.exchange.line :=
        List.mem_append_left _ (List.mem_map_of_mem (f := Prod.fst) hanswer)
      rcases hd.line.awaited t hline with ⟨c, hc⟩ | ⟨-, hnil⟩
      · have hrecorded := hd.calls c
        rw [hc] at hrecorded
        obtain ⟨job, hcall⟩ := hrecorded
        exact ⟨c, job, hcall.mem List.mem_cons_self, Or.inr ⟨hanswer, eq_of_role_waiting hc⟩⟩
      · rw [hnil] at hanswer
        cases hanswer
  case delivered_once =>
    have hnodup := hd.ledger.nodup
    rw [hd.ledger.queue, List.map_append, List.nodup_append] at hnodup
    exact hnodup.1
  case delivered_own =>
    intro c t t' r h
    obtain ⟨rfl, job, hsent⟩ := hd.ledger.own c t t' r h
    exact ⟨rfl, mem_published_of_delivered hd h, job, hsent⟩

/-- Takes steps one after another, if each can be taken. -/
def run? (d : Driver ε) : List Label → Option (Driver ε)
  | [] => some d
  | l :: rest => (d.step l).bind fun d => d.run? rest

theorem Reaches.run {d₀ d d' : Driver ε} (h : d₀.Reaches d) {l : List Label}
    (hl : d.run? l = some d') : d₀.Reaches d' := by
  induction l generalizing d with
  | nil =>
    cases hl
    exact h
  | cons a rest ih =>
    obtain ⟨e, he, hrest⟩ := Option.bind_eq_some_iff.1 hl
    exact ih (h.next a he) hrest

/-- The steps of a caller, the worker and a timer for a job that the engine ends at once. -/
def solveSteps (job : Job) : List Label :=
  .begin 0 (.solve job) :: List.replicate 5 (.call 0) ++ List.replicate 19 .worker ++
    List.replicate 2 (.timer 0) ++ List.replicate 4 .worker ++ List.replicate 2 (.call 0)

theorem answersOwnJobs_of_reaches_solved :
    ∃ d : Driver ScriptedEngine,
      (spawn (.ofReplies [.status (.sat [1])]) 7 ⟨0⟩).Reaches d ∧
        d.calls 0 = .returned (.answer (.ok ⟨.sat, [1]⟩)) ∧
          d.AnswersOwnJobs (.ofReplies [.status (.sat [1])]) := by
  have hrun : ∃ d, (spawn (ScriptedEngine.ofReplies [.status (.sat [1])]) 7 ⟨0⟩).run?
      (solveSteps ⟨⟨1, [[1]]⟩, ⟨1⟩, 7⟩) = some d ∧
        d.calls 0 = .returned (.answer (.ok ⟨.sat, [1]⟩)) := ⟨_, rfl, rfl⟩
  obtain ⟨d, hd, hc⟩ := hrun
  have hreaches := Reaches.start.run hd
  exact ⟨d, hreaches, hc, answersOwnJobs_of_reaches hreaches⟩

end Driver

end SpectrumPacking
