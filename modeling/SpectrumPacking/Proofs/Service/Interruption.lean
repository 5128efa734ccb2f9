import SpectrumPacking.Proofs.Search.Stops
import SpectrumPacking.Proofs.Service.Verdicts
import SpectrumPacking.Proofs.Solve.Books

/-!
# Interrupts of a Pipeline

An interrupt ends the job that it meets and nothing else.  The certifier or the stage that waits for
the job comes to nothing, and the pipeline goes on with the next one.  So the pipeline of a bundle
gives up only if the last of its jobs comes to nothing, the one for exact search
(`Bundle.books_pipeline`), and an interrupt that meets an earlier job need not end the attempt
(`Bundle.unsat_of_interrupted_certifier`).
-/

namespace SpectrumPacking

open Search

variable {σ : Type} [Timed σ] {x : Interference} {p : Problem} {criterion : Criterion σ}
  {seed : Nat}

/-! ## §1 Stages -/

omit [Timed σ] in
/-- What an answer amounts to does not depend on the time that it took. -/
theorem Problem.verdict_resultOf {d d' : Duration} (answer : Except EngineError Answer) :
    (p.resultOf x d answer).verdict = (p.resultOf x d' answer).verdict := by
  unfold resultOf
  split
  · rfl
  · split <;> rfl
  · rfl

/-- How an attempt at a problem uses the engine: it has at most `n` jobs done for certifiers, then
at most one for exact search, and comes to nothing only if the latter does. -/
structure Attempt (p : Problem) (x : Interference) (seed n : Nat) (r : SolveResult)
    (certifying searching : Book) : Prop where
  certifying_le : certifying.length ≤ n
  searching_le : searching.length ≤ 1
  /-- Exact search is for the problem as it is, and what it says counts. -/
  job : ∀ e ∈ searching, e.1.formula = p.encode x ∧ e.1.seed = seed
  verdict : ∀ e ∈ searching, r.verdict =
    if (p.resultOf x .zero e.2).isConclusive then (p.resultOf x .zero e.2).verdict else .timeout
  /-- Only a problem that is settled already needs none. -/
  settled : searching = [] → r.isConclusive = true

/-- The entries that a program adds are those of an attempt at a problem. -/
def Attempts (p : Problem) (x : Interference) (seed n : Nat) (r : SolveResult) (added : Book) :
    Prop :=
  ∃ certifying searching, added = certifying ++ searching ∧
    Attempt p x seed n r certifying searching

/-- What is settled before exact search. -/
theorem Attempts.of_certifying {n : Nat} {r : SolveResult} {added : Book} (h : added.length ≤ n)
    (hr : r.isConclusive = true) : Attempts p x seed n r added :=
  ⟨added, [], (List.append_nil added).symm, h, Nat.zero_le 1, nofun, nofun, fun _ => hr⟩

omit [Timed σ] in
/-- What is left to exact search. -/
theorem Attempts.of_searched {r r' : SolveResult} {added : Book} (h : Searched p x seed r added)
    (hr : r'.verdict = if r.isConclusive then r.verdict else .timeout) :
    Attempts p x seed 0 r' added := by
  rcases h with ⟨rfl, hconclusive⟩ | ⟨cutoff, d, answer, rfl, rfl⟩
  · rw [if_pos hconclusive] at hr
    exact .of_certifying (Nat.le_refl 0) (by rw [SolveResult.isConclusive, hr]; exact hconclusive)
  · have hsame : (p.resultOf x d answer).verdict = (p.resultOf x .zero answer).verdict :=
      Problem.verdict_resultOf answer
    rw [SolveResult.isConclusive, hsame] at hr
    refine ⟨[], [_], rfl, Nat.le_refl 0, Nat.le_refl 1, by simp, ?_,
      (absurd · (List.cons_ne_nil _ _))⟩
    intro e he
    rw [List.mem_singleton.1 he]
    exact hr

/-- More jobs for certifiers, before all others. -/
theorem Attempts.after {m n : Nat} {r : SolveResult} {added more : Book}
    (h : Attempts p x seed n r more) (hadded : added.length ≤ m) :
    Attempts p x seed (m + n) r (added ++ more) := by
  obtain ⟨certifying, searching, rfl, hattempt⟩ := h
  have hle := hattempt.certifying_le
  refine ⟨added ++ certifying, searching, (List.append_assoc ..).symm, ?_, hattempt.searching_le,
    hattempt.job, hattempt.verdict, hattempt.settled⟩
  rw [List.length_append]
  omega

namespace Pipeline

variable {learner : Option (CacheAccess (Booked σ))} {start : Duration} {past : SolveResult}
  {stage : Stage (Booked σ)} {rest : List (Stage (Booked σ))} {Q R : SolveResult → Book → Prop}

omit [Timed σ] in
theorem offBook_learn {r : SolveResult} (h : ∀ cache ∈ learner, ∀ p, OffBook (cache.insert p)) :
    OffBook (learn learner p r) := by
  unfold learn
  split
  · exact .pure rfl
  split
  · exact h _ rfl p
  · exact .pure rfl

/-- A stage settles a problem, or leaves it to the stages after it. -/
theorem books_tryStages_cons (hlearner : ∀ cache ∈ learner, ∀ p, OffBook (cache.insert p))
    (hstop : criterion.NeverStops)
    (hstage : Books (stage.solver.solve p criterion.booked seed) Q)
    (hfound : ∀ r r' added, Q r added → r.isConclusive = true → r'.verdict = r.verdict →
      R r' added)
    (hrest : ∀ r added past, Q r added → r.isConclusive = false →
      Books (tryStages learner p criterion.booked seed start past rest)
        fun r' more => R r' (added ++ more)) :
    Books (tryStages learner p criterion.booked seed start past (stage :: rest)) R := by
  unfold tryStages
  refine .bind hstop.books ?_
  rintro stop added ⟨rfl, rfl⟩
  simp only [Bool.false_eq_true, if_false, List.nil_append]
  refine .bind hstage fun r added hr => ?_
  split
  · rename_i hconclusive
    refine .seq (offBook_learn hlearner) fun _ => .seq offBook_since fun d => .pure ?_
    rw [List.append_nil]
    -- time is charged to the result, which does not change the verdict
    exact hfound r _ added hr hconclusive rfl
  · rename_i hinconclusive
    exact hrest r added _ hr (Bool.eq_false_iff.2 hinconclusive)

/-- Exact search at the end of a pipeline. -/
theorem books_last {engine : EngineAccess σ}
    (hlearner : ∀ cache ∈ learner, ∀ p, OffBook (cache.insert p)) (hstop : criterion.NeverStops) :
    Books (tryStages learner p criterion.booked seed start past
      [⟨"exact", engine.booked.solver x⟩]) (Attempts p x seed 0) := by
  apply books_tryStages_cons hlearner hstop (EngineAccess.books_solver hstop)
  · intro r r' added hr hconclusive hverdict
    exact .of_searched hr (by rw [if_pos hconclusive, hverdict])
  · intro r added past hr hinconclusive
    -- no stage is left
    refine .seq offBook_since fun d => .pure ?_
    rw [List.append_nil]
    exact .of_searched hr (by rw [hinconclusive]; rfl)

/-- A stage in front of exact search. -/
theorem books_front {m n : Nat} (hlearner : ∀ cache ∈ learner, ∀ p, OffBook (cache.insert p))
    (hstop : criterion.NeverStops) (hstage : stage.solver.Asks criterion m)
    (hrest : ∀ past, Books (tryStages learner p criterion.booked seed start past rest)
      (Attempts p x seed n)) :
    Books (tryStages learner p criterion.booked seed start past (stage :: rest))
      (Attempts p x seed (m + n)) := by
  apply books_tryStages_cons hlearner hstop (hstage p seed)
  · intro r r' added hadded hconclusive hverdict
    apply Attempts.of_certifying (Nat.le_add_right_of_le hadded)
    rw [SolveResult.isConclusive, hverdict]
    exact hconclusive
  · intro r added past hadded _
    exact (hrest past).mono fun r' more hmore => hmore.after hadded

end Pipeline

/-! ## §2 Pipelines -/

namespace Bundle

/-- The pipeline of a bundle whose engine keeps a book. -/
def bookedPipeline (options : BundleOptions) (x : Interference) (engine : EngineAccess σ)
    (cache : Option (CacheAccess σ × Bool)) : Pipeline (Booked σ) :=
  pipeline options x (engine.booked.solver x) (cache.map fun c => (c.1.booked, c.2))

variable {options : BundleOptions} {engine : EngineAccess σ}
  {cache : Option (CacheAccess σ × Bool)}

theorem offBook_learner :
    ∀ c ∈ (bookedPipeline options x engine cache).learner, ∀ p, OffBook (c.insert p) := by
  intro c hc
  obtain ⟨d, hd, hlearns⟩ := Option.bind_eq_some_iff.1 hc
  obtain ⟨d', -, rfl⟩ := Option.map_eq_some_iff.1 hd
  split at hlearns
  · cases hlearns
    exact fun p => Books.offBook
  · cases hlearns

/-- The certifiers of the first stage have one job each for the engine. -/
theorem asks_neighborhoodStage {bounds : NeighborhoodBounds} (hstop : criterion.NeverStops) :
    (neighborhoodStage x (engine.booked.solver x) bounds).solver.Asks criterion 2 := by
  apply asks_presolver hstop
  intro c hc
  rcases List.mem_cons.1 hc with rfl | hc
  · exact Certifier.asks_unsat (EngineAccess.asks_solver hstop)
  · rw [List.mem_singleton.1 hc]
    exact Certifier.asks_sat (EngineAccess.asks_solver hstop)

/-- The stages after the first one have a job for exact search alone. -/
theorem books_laterStages {learner : Option (CacheAccess (Booked σ))} {start : Duration}
    (hlearner : ∀ c ∈ learner, ∀ p, OffBook (c.insert p)) (hstop : criterion.NeverStops)
    {past : SolveResult} :
    Books (Pipeline.tryStages learner p criterion.booked seed start past
      (((cache.map fun c => (c.1.booked, c.2)).map fun c => cacheStage c.1).toList ++
        [⟨"exact", engine.booked.solver x⟩])) (Attempts p x seed 0) := by
  cases cache with
  | none => exact Pipeline.books_last hlearner hstop
  | some c =>
    exact Pipeline.books_front hlearner hstop CacheAccess.asks_solver fun past =>
      Pipeline.books_last hlearner hstop

/-- The pipeline of a bundle comes to nothing only if exact search does, which has the last job.  No
answer to a job for a certifier makes it give up, and none to the last job makes it go on. -/
theorem books_pipeline (options : BundleOptions) (x : Interference) (engine : EngineAccess σ)
    (cache : Option (CacheAccess σ × Bool)) (p : Problem) (seed : Nat)
    (hstop : criterion.NeverStops) :
    Books ((bookedPipeline options x engine cache).solver.solve p criterion.booked seed)
      (Attempts p x seed (if options.presolve then 2 else 0)) := by
  refine .seq offBook_now fun start => ?_
  have hlearner : ∀ c ∈ (bookedPipeline options x engine cache).learner, ∀ p,
      OffBook (c.insert p) := offBook_learner
  unfold bookedPipeline pipeline at hlearner ⊢
  cases options.presolve with
  | true =>
    exact Pipeline.books_front hlearner hstop (asks_neighborhoodStage hstop) fun past =>
      books_laterStages hlearner hstop
  | false => exact books_laterStages hlearner hstop

theorem books_pipeline_clash :
    (Criterion.never : Criterion (World ExhaustiveEngine)).NeverStops ∧
      Books ((bookedPipeline {} Dataset.coPair.interference
          (World.engineAccess 0 : EngineAccess (World ExhaustiveEngine)) none).solver.solve
            .clash Criterion.never.booked 0)
        (Attempts .clash Dataset.coPair.interference 0 2) :=
  have hstop : (Criterion.never : Criterion (World ExhaustiveEngine)).NeverStops := fun _ => rfl
  ⟨hstop, books_pipeline {} _ _ none .clash 0 hstop⟩

end Bundle

/-! ## §3 Interrupted Certifiers -/

/-- A driver with one caller for jobs, and what happens from the start of each job to its end. -/
structure Scheduled (ε : Type) where
  driver : Driver ε
  /-- The steps of the jobs to come. -/
  schedules : List (List Driver.Label)

namespace Scheduled

variable {ε : Type}

instance : Timed (Scheduled ε) := ⟨pure default⟩

/-- What the last call of the first caller returned. -/
def answer (s : Scheduled ε) : Except EngineError Answer :=
  match s.driver.calls 0 with
  | .returned (.answer a) => a
  | _ => .error .workerTerminated

/-- Access to the driver; jobs alone make it go on. -/
def access [SearchEngine ε] : EngineAccess (Scheduled ε) where
  solve job := fun s =>
    match s.driver.run? (.begin 0 (.solve job) :: s.schedules.headD []) with
    | some d => (answer ⟨d, s.schedules.tail⟩, ⟨d, s.schedules.tail⟩)
    | none => (.error .workerTerminated, s)
  interrupt := pure ()
  shutdown := pure ()

/-- The steps of a job in the engine from the moment when it was sent. -/
def schedule (t : Ticket) (meanwhile : List Driver.Label) : List Driver.Label :=
  Driver.Label.times 5 (.call 0) ++ Driver.Label.times 13 .worker ++ meanwhile ++
    Driver.Label.times 6 .worker ++ Driver.Label.times 2 (.timer t) ++
    Driver.Label.times 4 .worker ++ Driver.Label.times 2 (.call 0)

/-- The steps of a second caller that interrupts a pipeline, which passes the interrupt on to both
certifiers and to exact search. -/
def interrupting : List Driver.Label :=
  (List.replicate 3 (.begin 1 .interrupt :: Driver.Label.times 5 (.call 1))).flatten

end Scheduled

open Scheduled in
/-- An interrupt that meets the job of the first certifier is lost on the pipeline: the problem is
settled, after two more jobs. -/
theorem Bundle.unsat_of_interrupted_certifier :
    let engine :=
      ScriptedEngine.ofReplies [.spin (.status .unknown), .status .unsat, .status .unsat]
    let s : Scheduled ScriptedEngine := ⟨.spawn engine 0 ⟨0⟩,
      [schedule 0 interrupting, schedule 1 [.worker], schedule 2 [.worker]]⟩
    let out := (bookedPipeline {} Dataset.coPair.interference access none).solver.solve
      .clash Criterion.never.booked 0 ⟨s, []⟩
    LandedOn out.2.world.driver.history 0 ∧
      out.2.book.map Prod.snd = [.ok ⟨.timeout, []⟩, .ok ⟨.unsat, []⟩, .ok ⟨.unsat, []⟩] ∧
        out.1.verdict = .unsat := by
  decide +kernel

end SpectrumPacking
