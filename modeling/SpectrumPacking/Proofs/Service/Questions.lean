import SpectrumPacking.Command.Run
import SpectrumPacking.Proofs.Service.Extractions
import SpectrumPacking.Proofs.Service.Requests
import SpectrumPacking.Proofs.Solve.Neighborhoods

/-!
# One Problem for Every Use of a Question

A question over a dataset makes one problem: the stations of the question, with their domains in the
dataset cut down to the channels of the question, and with their previous channels; unless a station
is unknown, and then the least of these is reported (`Question.makes_problem`).  Solving a question
goes by way of a request, whose problem is made by other means, and it hands that same problem to
the solver of a bundle; extraction saves the formula of it, and the decoder reads models of it
(`Question.usesOneProblem`).
-/

namespace SpectrumPacking

/-! ## §1 The Problem of a Question -/

namespace Question

variable {q : Question} {d : Domains} {channels : SortedSet Channel} {l : List StationId}
  {p : Problem} {e : DataError} {cutoff : Duration} {seed : Nat}

/-- The least station of a question that is not in a dataset. -/
structure LacksFirst (q : Question) (d : Domains) (s : StationId) : Prop where
  mem : s ∈ q.stations
  unknown : d.get? s = none
  least : ∀ t ∈ q.stations, d.get? t = none → s ≤ t

/-- What a question makes of the domains of a dataset. -/
inductive Makes (q : Question) (d : Domains) : Except DataError Problem → Prop where
  /-- All stations are known, and the problem is over them. -/
  | problem {p : Problem} (hknown : ∀ s ∈ q.stations, ∃ D, d.get? s = some D)
      (hdomain : ∀ s E, p.domain? s = some E ↔
        s ∈ q.stations ∧ ∃ D, d.get? s = some D ∧ E = D.inter q.channels)
      (hprevious : ∀ s c, p.previous.get? s = some c ↔
        s ∈ q.stations ∧ q.previous.get? s = some c) : Makes q d (.ok p)
  /-- A station is unknown. -/
  | unknown {s : StationId} (h : q.LacksFirst d s) : Makes q d (.error (.unknownStation s))

/-- The recursion stops at the first unknown station of a list. -/
theorem domainsWithin_eq_error (h : domainsWithin d channels l = .error e) :
    ∃ before s after, l = before ++ s :: after ∧ (∀ t ∈ before, d.get? t ≠ none) ∧
      d.get? s = none ∧ e = .unknownStation s := by
  induction l with
  | nil => cases h
  | cons s rest ih =>
    rw [domainsWithin] at h
    split at h
    · rename_i e' hlookup
      cases h
      obtain ⟨hs, rfl⟩ := Domains.lookup_eq_error_iff.1 hlookup
      exact ⟨[], s, rest, rfl, fun _ ht => absurd ht List.not_mem_nil, hs, rfl⟩
    · rename_i D hlookup
      -- the first station is known, so the fault is in the rest
      cases hrest : domainsWithin d channels rest with
      | ok entries =>
        rw [hrest] at h
        cases h
      | error e' =>
        rw [hrest] at h
        cases h
        obtain ⟨before, t, after, rfl, hbefore, ht, rfl⟩ := ih hrest
        refine ⟨s :: before, t, after, rfl, ?_, ht, rfl⟩
        intro t' ht'
        rcases List.mem_cons.1 ht' with rfl | ht'
        · rw [Domains.lookup_eq_ok_iff.1 hlookup]
          exact Option.some_ne_none D
        · exact hbefore t' ht'

/-- The fault of a question is its least unknown station, since stations are listed in order. -/
theorem lacksFirst_of_problem (h : q.problem d = .error e) :
    ∃ s, q.LacksFirst d s ∧ e = .unknownStation s := by
  rw [problem] at h
  cases hentries : domainsWithin d q.channels q.stations.toList with
  | ok entries =>
    rw [hentries] at h
    cases h
  | error e' =>
    rw [hentries] at h
    cases h
    obtain ⟨before, s, after, hlist, hbefore, hs, rfl⟩ := domainsWithin_eq_error hentries
    -- the stations are increasing, so the first unknown one is the least
    have hincreasing := q.stations.increasing
    rw [hlist, List.pairwise_append, List.pairwise_cons] at hincreasing
    refine ⟨s, ⟨?_, hs, ?_⟩, rfl⟩
    · rw [← SortedSet.mem_toList, hlist]
      simp
    · intro t ht hunknown
      rw [← SortedSet.mem_toList, hlist, List.mem_append, List.mem_cons] at ht
      rcases ht with ht | rfl | ht
      · exact absurd hunknown (hbefore t ht)
      · exact Nat.le_refl t
      · exact Nat.le_of_lt (hincreasing.2.1.1 t ht)

theorem admittedDomains_ofQuestion :
    (Request.ofQuestion q cutoff seed).admittedDomains d l = domainsWithin d q.channels l := by
  induction l with
  | nil => rfl
  | cons s rest ih =>
    rw [Request.admittedDomains, domainsWithin, ih]
    -- a request that a question makes reduces no domain
    rfl

/-- A question and the request that it makes come to the same problem. -/
theorem problem_ofQuestion : (Request.ofQuestion q cutoff seed).problem d = q.problem d := by
  rw [Request.problem, problem, admittedDomains_ofQuestion]
  rfl

/-- Previous channels are kept for the stations of the problem. -/
theorem get?_previous (h : q.problem d = .ok p) {s : StationId} :
    p.previous.get? s = (q.previous.get? s).filter fun _ => p.contains s := by
  rw [problem] at h
  cases hentries : domainsWithin d q.channels q.stations.toList with
  | error e =>
    rw [hentries] at h
    cases h
  | ok entries =>
    rw [hentries] at h
    cases h
    exact Problem.previous_ofDomains

theorem makes_problem : q.Makes d (q.problem d) := by
  cases hproblem : q.problem d with
  | error e =>
    obtain ⟨s, hs, rfl⟩ := lacksFirst_of_problem hproblem
    exact .unknown hs
  | ok p =>
    -- the facade makes the same problem, whose domains are known already
    have hrequest : (Request.ofQuestion q .zero 0).problem d = .ok p :=
      problem_ofQuestion.trans hproblem
    obtain ⟨hdomain, hknown⟩ := Request.problem_eq_ok (d := ⟨d, Interference.none⟩) hrequest
    refine .problem hknown hdomain fun s c => ?_
    have hcontains : p.contains s = true ↔ s ∈ q.stations := by
      rw [Problem.contains_iff]
      constructor
      · rintro ⟨E, hE⟩
        exact ((hdomain s E).1 hE).1
      · intro hs
        obtain ⟨D, hD⟩ := hknown s hs
        exact ⟨_, (hdomain s _).2 ⟨hs, D, hD, rfl⟩⟩
    rw [get?_previous hproblem, Option.filter_eq_some_iff, hcontains, and_comm]

end Question

/-! ## §2 Solving -/

section Solving

variable {σ : Type} [Timed σ] {m : Type → Type} [Monad m] [SolverMonad σ m]
  {q : Question} {d : Domains} {p : Problem} {r : Request} {cutoff : Duration} {seed : Nat}

/-- What a bundle answers to a question: it attempts the problem of it, if there is one. -/
def Question.answerBy (q : Question) (cutoff : Duration) (seed : Nat) (b : Bundle σ) :
    m (Except RequestError Outcome) :=
  match q.problem b.dataset.domains with
  | .error e => return .error (.data e)
  | .ok p =>
    return .ok (← SolverMonad.within ((Request.ofQuestion q cutoff seed).attempt p b.solver))

/-- The request of a question is answered by a bundle of its dataset, if there is one. -/
theorem Question.answer_ofQuestion [LawfulMonad m] (hstations : q.stations.isEmpty = false)
    (hcutoff : cutoff ≠ .zero) (source : BundleSource m (Bundle σ)) (g : Manager (Bundle σ)) :
    (Request.ofQuestion q cutoff seed).answer source g = do
      let (got, g) ← g.get source q.dataset
      match got with
      | .error e => return (.error (.manager e), g)
      | .ok b => return (← q.answerBy cutoff seed b, g) := by
  have hnonempty : ¬ (Request.ofQuestion q cutoff seed).stations.isEmpty = true := by
    show ¬ q.stations.isEmpty = true
    simp [hstations]
  rw [Request.answer, if_neg hnonempty]
  dsimp only
  rw [if_neg (show ¬ (Request.ofQuestion q cutoff seed).cutoff = .zero from hcutoff)]
  -- both get the bundle in the same way, and then make the problem
  refine bind_congr fun got => ?_
  obtain ⟨got | b, g'⟩ := got
  · rfl
  · dsimp only
    rw [problem_ofQuestion, answerBy]
    cases q.problem b.dataset.domains <;> simp

/-- A bundle whose solver leaves the problems that it is given in the trace. -/
def Bundle.noting (b : Bundle σ) : Bundle (Traced Problem σ) := ⟨b.dataset, b.solver.noting⟩

theorem Request.traces_attempt {solver : Solver σ} :
    Traces (r.attempt p solver.noting) (r.attempt p solver) fun _ handed => handed = [p] := by
  refine .seq .offTrace fun reading => ?_
  refine .seq Solver.traces_traced fun result => ?_
  exact .pure rfl

/-- The problem of the question is handed to the solver, and nothing else is; without a problem,
nothing is handed to it at all. -/
theorem Question.traces_answerBy {b : Bundle σ} :
    Traces (q.answerBy cutoff seed b.noting) (q.answerBy cutoff seed b) fun answer handed =>
      match q.problem b.dataset.domains with
      | .ok p => handed = [p] ∧ ∃ o, answer = .ok o
      | .error e => handed = [] ∧ answer = .error (.data e) := by
  have hdataset : b.noting.dataset = b.dataset := rfl
  rw [answerBy, answerBy, hdataset]
  cases q.problem b.dataset.domains with
  | error e => exact .pure ⟨rfl, rfl⟩
  | ok p =>
    refine .bind Request.traces_attempt fun o handed hhanded => .pure ?_
    rw [List.append_nil]
    exact ⟨hhanded, o, rfl⟩

end Solving

/-! ## §3 Extraction and Decoding -/

section Uses

variable {q : Question} {dataset : Dataset} {p : Problem}

/-- What extraction makes of a question: if it is saved, its file holds the formula of its problem;
without a problem, the fault is reported. -/
theorem Extraction.saved_of_ofQuestion {directory : CnfDirectory} {datasets : Datasets}
    {path : Path} {e : Extraction} {s t : FileStore}
    (hdataset : datasets.get? q.dataset = some (.ok dataset))
    (h : (ofQuestion directory datasets path (.ok q) : StateM FileStore _) s = (e, t)) :
    match q.problem dataset.domains with
    | .ok p => ∀ file, e.outcome = .ok file →
        file = directory.file p ∧ t.read file = .ok (formulaText p dataset.interference)
    | .error fault => e.outcome = .error (.data fault) := by
  cases hproblem : q.problem dataset.domains with
  | error fault =>
    have hposed : problemOf datasets q = .error (.data fault) := by
      simp only [problemOf, hdataset, hproblem]
    rw [ofQuestion_eq_error hposed] at h
    cases h
    rfl
  | ok p =>
    have hposed : problemOf datasets q = .ok (p, dataset.interference) := by
      simp only [problemOf, hdataset, hproblem]
    rw [ofQuestion_eq_save hposed] at h
    intro file hfile
    rcases hsave : (directory.save p (p.encode dataset.interference) p.comments :
      StateM FileStore _) s with ⟨r, u⟩
    rw [bind_eq hsave] at h
    cases h
    -- what was saved is still there, as nothing was written since
    obtain rfl := outcome_ofSaved_eq_ok_iff.1 hfile
    exact CnfDirectory.read_of_save hsave

/-- A report holds a model of the formula of a problem: it decodes to an assignment, which satisfies
the interference. -/
def Problem.AcceptsReport (p : Problem) (x : Interference) (report : List Char) : Prop :=
  ∃ literals, modelOfReport report = .ok literals ∧
    ∃ a, p.decode literals = .ok a ∧ x.isSatisfiedBy a = true

namespace Command

variable {σ : Type} {α ε : Type} {w w' : Transcript} {s s' : σ}

/-- A script comes to its end without a failure. -/
def EndsWell (x : Script (StateM σ) Unit) (w : Transcript) (s : σ) : Prop :=
  (x w s).1.1 = .ok ()

theorem endsWell_bind {x : Script (StateM σ) α} {f : α → Script (StateM σ) Unit}
    {r : Except Failure α} (h : x w s = ((r, w'), s')) :
    EndsWell (x >>= f) w s ↔ ∃ a, r = .ok a ∧ EndsWell (f a) w' s' := by
  have hbind : (x >>= f) w s = ExceptT.bindCont f (x w s).1.1 (x w s).1.2 (x w s).2 := rfl
  rw [EndsWell, hbind, h]
  cases r with
  | ok a =>
    simp only [Except.ok.injEq, exists_eq_left']
    rfl
  | error e => exact iff_of_false nofun nofun

theorem endsWell_expect {message : String} {chain : ε → List String} {r : Except ε α}
    {f : α → Script (StateM σ) Unit} :
    EndsWell (Script.expect message chain r >>= f) w s ↔ ∃ a, r = .ok a ∧ EndsWell (f a) w s := by
  cases r with
  | ok a => exact (endsWell_bind (r := .ok a) rfl).trans (by simp)
  | error e => exact iff_of_false nofun nofun

theorem endsWell_expectData {r : Except DataError α} {f : α → Script (StateM σ) Unit} :
    EndsWell (expectData r >>= f) w s ↔ ∃ a, r = .ok a ∧ EndsWell (f a) w s := by
  cases r with
  | ok a => exact (endsWell_bind (r := .ok a) rfl).trans (by simp)
  | error e => exact iff_of_false nofun nofun

theorem endsWell_perform {x : StateM σ α} {a : α} {f : α → Script (StateM σ) Unit}
    (h : x s = (a, s')) : EndsWell (Script.perform x >>= f) w s ↔ EndsWell (f a) w s' := by
  have hperform : (Script.perform x : Script (StateM σ) α) w s = ((.ok a, w), s') := by
    show ((Except.ok (x s).1, w), (x s).2) = _
    rw [h]
  rw [endsWell_bind hperform]
  simp

/-- A script that ends with a check ends well if the check does. -/
theorem endsWell_check {b : Bool} {output note message : String} :
    EndsWell (do Script.print output; if b then Script.remark note else Script.fail message [] :
      Script (StateM σ) Unit) w s ↔ b = true := by
  rw [endsWell_bind (r := .ok ()) rfl]
  cases b with
  | true => exact iff_of_true ⟨(), rfl, rfl⟩ rfl
  | false => exact iff_of_false (by rintro ⟨_, _, ⟨⟩⟩) nofun

/-- The decoder accepts the report in a file exactly if the problem of the question accepts it. -/
theorem endsWell_runDecode [HasFiles σ] {t : Terminal} {question solution config : Path}
    {o : Settings.Overrides} {settings : Settings} {s₁ s₂ s₃ : σ}
    (hsettings : (loadSettings t config o : Script (StateM σ) _) w s = ((.ok settings, w'), s₁))
    (hquestion : (Question.load question : StateM σ _) s₁ = (.ok q, s₂))
    (hdataset : (Dataset.load (some settings.dataRoot) q.dataset : StateM σ _) s₂
      = (.ok dataset, s₃)) :
    EndsWell (runDecode t question solution config o) w s ↔
      ∃ p, q.problem dataset.domains = .ok p ∧ ∃ text,
        (HasFiles.files s₃).read solution = .ok text ∧
        p.AcceptsReport dataset.interference text.toList := by
  have hread : (FileAccess.read solution : StateM σ _) s₃
      = ((HasFiles.files s₃).read solution, s₃) := rfl
  rw [runDecode, endsWell_bind hsettings]
  simp only [Except.ok.injEq, exists_eq_left', loadQuestion, loadText, bind_assoc,
    endsWell_perform hquestion, endsWell_perform hdataset, endsWell_perform hread, endsWell_expect,
    endsWell_expectData, endsWell_check]
  rfl

end Command

end Uses

/-! ## §4 One Problem -/

section Everywhere

variable {σ : Type} [Timed σ] {m : Type → Type} [Monad m] [SolverMonad σ m]

/-- Solving a question over a dataset, saving its formula and checking a model of it are about one
problem. -/
structure Question.UsesOneProblem (m : Type → Type) [Monad m] [SolverMonad σ m] (q : Question)
    (dataset : Dataset) (cutoff : Duration) (seed : Nat) : Prop where
  /-- The problem, or the fault if there is none. -/
  makes : q.Makes dataset.domains (q.problem dataset.domains)
  /-- The problem that solving makes of the request. -/
  request : (Request.ofQuestion q cutoff seed).problem dataset.domains = q.problem dataset.domains
  /-- A request is answered by the bundle of the dataset that it names, if there is one. -/
  answer : ∀ (source : BundleSource m (Bundle σ)) (g : Manager (Bundle σ)),
    (Request.ofQuestion q cutoff seed).answer source g = do
      let (got, g) ← g.get source q.dataset
      match got with
      | .error e => return (.error (.manager e), g)
      | .ok b => return (← q.answerBy cutoff seed b, g)
  /-- The bundle hands the problem to its solver, and nothing else. -/
  hands : ∀ solver : Solver σ,
    Traces (q.answerBy cutoff seed (Bundle.mk dataset solver).noting)
      (q.answerBy cutoff seed (Bundle.mk dataset solver)) fun answer handed =>
        match q.problem dataset.domains with
        | .ok p => handed = [p] ∧ ∃ o, answer = .ok o
        | .error e => handed = [] ∧ answer = .error (.data e)
  /-- The formula that extraction saves is that of the problem. -/
  saves : ∀ (directory : CnfDirectory) (datasets : Extraction.Datasets) (path : Path)
    (e : Extraction) (s t : FileStore), datasets.get? q.dataset = some (.ok dataset) →
    (Extraction.ofQuestion directory datasets path (.ok q) : StateM FileStore _) s = (e, t) →
      match q.problem dataset.domains with
      | .ok p => ∀ file, e.outcome = .ok file → file = directory.file p ∧
          t.read file = .ok (Extraction.formulaText p dataset.interference)
      | .error fault => e.outcome = .error (.data fault)
  /-- The models that the decoder accepts are models of the problem. -/
  accepts : ∀ {τ : Type} [HasFiles τ] (t : Terminal) (question solution config : Path)
    (o : Settings.Overrides) (settings : Settings) (w w' : Command.Transcript) (s s₁ s₂ s₃ : τ),
    (Command.loadSettings t config o : Command.Script (StateM τ) _) w s
      = ((.ok settings, w'), s₁) →
    (Question.load question : StateM τ _) s₁ = (.ok q, s₂) →
    (Dataset.load (some settings.dataRoot) q.dataset : StateM τ _) s₂ = (.ok dataset, s₃) →
      (Command.EndsWell (Command.runDecode t question solution config o) w s ↔
        ∃ p, q.problem dataset.domains = .ok p ∧ ∃ text,
          (HasFiles.files s₃).read solution = .ok text ∧
          p.AcceptsReport dataset.interference text.toList)

/-- A question with a station makes one problem of a dataset, or is at fault in one way, wherever it
is used: the solver of a bundle attempts this problem within any time limit, and it is the problem
that is encoded and that models are checked against. -/
theorem Question.usesOneProblem [LawfulMonad m] (q : Question) (dataset : Dataset)
    (cutoff : Duration) (seed : Nat) (hstations : q.stations.isEmpty = false)
    (hcutoff : cutoff ≠ .zero) : q.UsesOneProblem m dataset cutoff seed where
  makes := makes_problem
  request := problem_ofQuestion
  answer := answer_ofQuestion hstations hcutoff
  hands _ := traces_answerBy
  saves _ _ _ _ _ _ hdataset h := Extraction.saved_of_ofQuestion hdataset h
  accepts _ _ _ _ _ _ _ _ _ _ _ _ hsettings hquestion hdataset :=
    Command.endsWell_runDecode hsettings hquestion hdataset

end Everywhere

/-- Two stations without interference. -/
def Dataset.twoStations : Dataset :=
  ⟨SortedMap.ofList [(1, SortedSet.ofList [14, 15]), (2, SortedSet.ofList [15, 16])],
    Interference.none⟩

/-- A question on these stations, which leaves the second one a single channel. -/
def Question.capped : Question :=
  ⟨"two", .uhf, some 15, SortedSet.ofList [1, 2], SortedMap.ofList [(1, 14), (3, 15)]⟩

/-- A question on a known station and two unknown ones. -/
def Question.beyond : Question := ⟨"two", .uhf, none, SortedSet.ofList [0, 1, 3], SortedMap.empty⟩

theorem Question.usesOneProblem_capped :
    capped.stations.isEmpty = false ∧ Duration.ofParts 60 0 ≠ .zero ∧
      capped.UsesOneProblem (StateM (World CompleteEngine)) .twoStations (.ofParts 60 0) 0 ∧
      capped.problem Dataset.twoStations.domains = .ok (.ofDomains
        (SortedMap.ofList [(1, SortedSet.ofList [14, 15]), (2, SortedSet.ofList [15])])
        (SortedMap.ofList [(1, 14)])) ∧
      beyond.UsesOneProblem (StateM (World CompleteEngine)) .twoStations (.ofParts 60 0) 0 ∧
      beyond.problem Dataset.twoStations.domains = .error (.unknownStation 0) :=
  ⟨by decide, by decide, usesOneProblem capped .twoStations _ 0 (by decide) (by decide),
    by decide +kernel, usesOneProblem beyond .twoStations _ 0 (by decide) (by decide),
    by decide +kernel⟩

end SpectrumPacking
