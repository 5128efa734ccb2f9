import SpectrumPacking.Proofs.Solve.Programs
import SpectrumPacking.Solve.Pipeline

/-!
# Runs of a Pipeline

A pipeline of any stages is run under any criterion and any clock, and leaves a trace of what it
does: looks at the clock, questions to the criterion, calls of stages, and problems learnt.  The
trace is that of a run (`Pipeline.Run.events`) which ends with the first stage that settles the
problem or with the first word to stop (`Pipeline.Run.EndsRightly`), and the result is that of the
called stages put together, charged with all the time that passed (`Pipeline.Run.Explains`).  Both
are said in `Pipeline.traces_solver`.
-/

namespace SpectrumPacking

/-! ## §1 Times -/

namespace Duration

variable {a b : Duration}

theorem eq_of_nanos_eq (h : a.nanos = b.nanos) : a = b := by
  cases a
  cases b
  exact congrArg mk h

/-- A time and what is missing from it to another one make the longer of the two. -/
theorem add_sub_eq_max : a + (b - a) = a.max b := by
  apply eq_of_nanos_eq
  rw [nanos_max]
  show a.nanos + (b.nanos - a.nanos) = _
  rcases Nat.le_total a.nanos b.nanos with h | h
  · rw [Nat.add_sub_cancel' h]
    exact (Nat.max_eq_right h).symm
  · rw [Nat.sub_eq_zero_of_le h]
    exact (Nat.max_eq_left h).symm

theorem max_le {c : Duration} (ha : a ≤ c) (hb : b ≤ c) : a.max b ≤ c := by
  unfold max
  split
  · exact hb
  · exact ha

end Duration

namespace SolveResult

variable {l : List SolveResult} {r : SolveResult} {d : Duration}

theorem totalTime_concat : totalTime (l ++ [r]) = totalTime l + r.runtime := by
  simp [totalTime]

/-- An attempt that settles the problem counts if it is the last one. -/
theorem combine_concat (h : r.isConclusive = true) :
    combine (l ++ [r]) =
      { r with runtime := totalTime (l ++ [r]), overflow := totalOverflow? (l ++ [r]) } := by
  have hlast : lastConclusive? (l ++ [r]) = some r := by simp [lastConclusive?, h]
  rw [combine, hlast]

theorem combine_of_inconclusive (h : ∀ q ∈ l, q.isConclusive = false) :
    combine l = { timeout (totalTime l) with overflow := totalOverflow? l } := by
  have hlast : lastConclusive? l = none := by
    rw [lastConclusive?, List.find?_eq_none]
    intro q hq
    simp [h q (List.mem_reverse.1 hq)]
  rw [combine, hlast]

/-- Charging more time marks a result only if clocks cannot keep the sum. -/
theorem overflow_addTime (h : r.overflow = none) (hd : r.runtime + d ≤ .greatest) :
    (r.addTime d).overflow = none := by
  simp [addTime, mark, tooLong?, h, hd]

end SolveResult

/-! ## §2 Runs -/

namespace Pipeline

/-- What a pipeline does where others can see it. -/
inductive Event where
  /-- It looked at the wall clock. -/
  | looked (wall : Duration)
  /-- It asked the criterion whether to stop. -/
  | asked (stop : Bool)
  /-- It called the stage at a place, which came to a result. -/
  | called (place : Nat) (p : Problem) (seed : Nat) (result : SolveResult)
  /-- It had a problem learnt. -/
  | learnt (p : Problem)

/-- A run of a pipeline. -/
structure Run where
  /-- What the clock showed at the start. -/
  start : Duration
  /-- The results of the called stages. -/
  results : List SolveResult
  /-- Whether the criterion said stop before another stage was called. -/
  stopped : Bool
  /-- What the clock showed at the end. -/
  finish : Duration

/-- The calls of stages from a place on, each after the criterion let the pipeline go on. -/
def calls (p : Problem) (seed : Nat) (place : Nat) (results : List SolveResult) : List Event :=
  (results.zipIdx place).flatMap fun e => [.asked false, .called e.2 p seed e.1]

/-- What is learnt of a result: the problem, if there is anyone to learn, no packing was found, and
nothing but a search proved that there is none. -/
def learning (learns : Bool) (p : Problem) (r : SolveResult) : List Event :=
  if learns = true ∧ r.verdict = .unsat ∧ r.justification = none then [.learnt p] else []

namespace Run

variable {run : Run} {learns : Bool} {p : Problem} {seed : Nat} {before : List SolveResult}
  {result : SolveResult}

/-- What a run does after the calls of stages, in order. -/
def ending (run : Run) (learns : Bool) (p : Problem) : List Event :=
  (if run.stopped then [.asked true] else []) ++
    learning learns p (SolveResult.combine run.results) ++ [.looked run.finish]

/-- What a run does once it has called some stages, in order. -/
def eventsAfter (run : Run) (called : Nat) (learns : Bool) (p : Problem) (seed : Nat) :
    List Event :=
  calls p seed called (run.results.drop called) ++ run.ending learns p

/-- All that a run does, in order. -/
def events (run : Run) (learns : Bool) (p : Problem) (seed : Nat) : List Event :=
  .looked run.start :: run.eventsAfter 0 learns p seed

theorem eventsAfter_length :
    run.eventsAfter run.results.length learns p seed = run.ending learns p := by
  simp [eventsAfter, calls]

theorem eventsAfter_call (h : before ++ [result] <+: run.results) :
    run.eventsAfter before.length learns p seed =
      [.asked false] ++ ([.called before.length p seed result] ++
        run.eventsAfter (before ++ [result]).length learns p seed) := by
  obtain ⟨rest, hrest⟩ := h
  unfold eventsAfter
  rw [← hrest, List.drop_left, List.append_assoc, List.drop_left]
  simp [calls]

/-- A run of `n` stages calls the first of them, up to the first one that settles the problem or to
the point at which the criterion says stop. -/
structure EndsRightly (run : Run) (n : Nat) : Prop where
  /-- There are stages enough. -/
  length_le : run.results.length ≤ n
  /-- No stage before the last one called settled the problem. -/
  inconclusive : ∀ r ∈ run.results.dropLast, r.isConclusive = false
  /-- The criterion is asked only if there is another stage, and nothing is settled. -/
  stopped : run.stopped = true →
    run.results.length < n ∧ ∀ r ∈ run.results, r.isConclusive = false
  /-- Unless it says stop, the last stage called settled the problem, or all stages were called. -/
  ended : run.stopped = false →
    (∃ r, run.results.getLast? = some r ∧ r.isConclusive = true) ∨ run.results.length = n

/-- The result of a run is that of the called stages put together, and no time is lost. -/
structure Explains (run : Run) (r : SolveResult) : Prop where
  /-- What is said is what the results of the called stages come to, as is what is known besides. -/
  verdict : r.verdict = (SolveResult.combine run.results).verdict
  assignment : r.assignment = (SolveResult.combine run.results).assignment
  justification : r.justification = (SolveResult.combine run.results).justification
  /-- The time of all called stages, or the time from start to finish if that is longer. -/
  runtime : r.runtime = (SolveResult.totalTime run.results).max (run.finish - run.start)
  /-- Nothing is said of a problem that no stage settled. -/
  timeout : (∀ q ∈ run.results, q.isConclusive = false) →
    r.verdict = .timeout ∧ r.assignment = SortedMap.empty
  /-- A pipeline does not crash, whatever its stages do. -/
  verdict_ne : r.verdict ≠ .crashed
  /-- The result is returned if clocks can keep the times of the stages, their sum and the whole
  time. -/
  returned : (∀ q ∈ run.results, q.overflow = none) →
    SolveResult.totalTime run.results ≤ .greatest → run.finish - run.start ≤ .greatest →
      r.kept = .ok r

end Run

/-! ## §3 Times of Called Stages -/

/-- What a pipeline has spent after some stages. -/
structure Tallies (past : SolveResult) (results : List SolveResult) : Prop where
  runtime : past.runtime = SolveResult.totalTime results
  overflow : (∀ q ∈ results, q.overflow = none) →
    SolveResult.totalTime results ≤ .greatest → past.overflow = none

theorem tallies_nil : Tallies default [] := ⟨rfl, fun _ _ => rfl⟩

namespace Tallies

variable {past result : SolveResult} {results : List SolveResult} {start finish : Duration}

theorem charge (h : Tallies past results) :
    Tallies (charge past result) (results ++ [result]) := by
  have hruntime : (Pipeline.charge past result).runtime
      = SolveResult.totalTime (results ++ [result]) := by
    rw [SolveResult.totalTime_concat, ← h.runtime]
    rfl
  refine ⟨hruntime, ?_⟩
  intro hkept hsum
  -- what clocks can keep in the end they could keep before
  have hbefore : SolveResult.totalTime results ≤ .greatest := by
    rw [SolveResult.totalTime_concat, Duration.le_def, Duration.nanos_add] at hsum
    exact Nat.le_trans (Nat.le_add_right _ _) hsum
  have hpast := h.overflow (fun q hq => hkept q (List.mem_append_left _ hq)) hbefore
  have hresult : result.overflow = none := hkept result (by simp)
  apply SolveResult.overflow_addTime
  · show (past.overflow <|> result.overflow) = none
    rw [hpast, hresult]
    rfl
  · rw [← hruntime] at hsum
    exact hsum

/-- Nothing is settled. -/
theorem explains_timeout {stopped : Bool} (h : Tallies past results)
    (hnone : ∀ q ∈ results, q.isConclusive = false) :
    Run.Explains ⟨start, results, stopped, finish⟩
      ((SolveResult.timeout (past.runtime.max (finish - start))).mark past.overflow) := by
  have hcombine := SolveResult.combine_of_inconclusive hnone
  constructor
  case verdict | assignment | justification =>
    rw [hcombine]
    rfl
  case runtime =>
    exact congrArg (Duration.max · _) h.runtime
  case timeout =>
    intro _
    exact ⟨rfl, rfl⟩
  case verdict_ne =>
    intro hcrashed
    cases hcrashed
  case returned =>
    intro hkept hsum _
    simp [SolveResult.kept, SolveResult.mark, SolveResult.timeout, SolveResult.bare,
      h.overflow hkept hsum]

/-- The last stage settled the problem, and the time outside of the stages is added to theirs. -/
theorem explains_conclusive (h : Tallies past results) (hresult : result.isConclusive = true) :
    Run.Explains ⟨start, results ++ [result], false, finish⟩
      ((Pipeline.charge past result).addTime
        ((finish - start) - (Pipeline.charge past result).runtime)) := by
  have hcombine := SolveResult.combine_concat (l := results) hresult
  have hcharge : Tallies (Pipeline.charge past result) (results ++ [result]) := h.charge
  -- adding what is missing to the whole time takes the longer of the two
  have hruntime : (Pipeline.charge past result).runtime +
      ((finish - start) - (Pipeline.charge past result).runtime)
        = (SolveResult.totalTime (results ++ [result])).max (finish - start) := by
    rw [← hcharge.runtime]
    exact Duration.add_sub_eq_max
  constructor
  case verdict | assignment | justification =>
    rw [hcombine]
    rfl
  case runtime =>
    exact hruntime
  case timeout =>
    intro hnone
    rw [hnone result (by simp)] at hresult
    cases hresult
  case verdict_ne =>
    intro hcrashed
    have hverdict : result.verdict = .crashed := hcrashed
    rw [SolveResult.isConclusive, hverdict] at hresult
    cases hresult
  case returned =>
    intro hkept hsum hwhole
    have hoverflow := SolveResult.overflow_addTime (hcharge.overflow hkept hsum)
      (hruntime ▸ Duration.max_le hsum hwhole)
    simp [SolveResult.kept, hoverflow]

end Tallies

/-! ## §4 From Stage to Stage -/

/-- After some stages, a run of `n` stages in all goes on with some events and comes to `r`. -/
def GoesOn (start : Duration) (before : List SolveResult) (n : Nat) (learns : Bool) (p : Problem)
    (seed : Nat) (r : SolveResult) (events : List Event) : Prop :=
  ∃ run : Run, run.start = start ∧ before <+: run.results ∧
    events = run.eventsAfter before.length learns p seed ∧ run.EndsRightly n ∧ run.Explains r

section Steps

variable {start finish : Duration} {before : List SolveResult} {n seed : Nat} {learns : Bool}
  {p : Problem} {past result r : SolveResult} {events : List Event}

/-- A run that goes on from the call of a stage goes on from before it. -/
theorem GoesOn.call (h : GoesOn start (before ++ [result]) n learns p seed r events) :
    GoesOn start before n learns p seed r
      ([.asked false] ++ ([.called before.length p seed result] ++ events)) := by
  obtain ⟨run, hstart, hbefore, hevents, hends, hexplains⟩ := h
  refine ⟨run, hstart, (List.prefix_append _ _).trans hbefore, ?_, hends, hexplains⟩
  rw [Run.eventsAfter_call hbefore, hevents]

/-- Another stage is called, which settles the problem. -/
theorem goesOn_of_conclusive (hbefore : ∀ q ∈ before, q.isConclusive = false)
    (hpast : Tallies past before) (hn : before.length < n) (hresult : result.isConclusive = true) :
    GoesOn start before n learns p seed
      ((charge past result).addTime ((finish - start) - (charge past result).runtime))
      ([.asked false] ++ ([.called before.length p seed result] ++
        (learning learns p result ++ [.looked finish]))) := by
  apply GoesOn.call
  refine ⟨⟨start, before ++ [result], false, finish⟩, rfl, List.prefix_rfl, ?_, ?_,
    hpast.explains_conclusive hresult⟩
  -- what is learnt depends on the last result alone
  · have hlearning : learning learns p (SolveResult.combine (before ++ [result]))
        = learning learns p result := by
      rw [SolveResult.combine_concat hresult]
      rfl
    refine Eq.trans ?_ Run.eventsAfter_length.symm
    simp [Run.ending, hlearning]
  · constructor
    · rw [List.length_append]
      exact hn
    · simpa using hbefore
    · intro hstopped
      cases hstopped
    · intro _
      exact Or.inl ⟨result, by simp, hresult⟩

/-- No other stage is called: there is none, or the criterion says stop. -/
theorem goesOn_of_inconclusive (stopped : Bool) (hbefore : ∀ q ∈ before, q.isConclusive = false)
    (hpast : Tallies past before) (hstop : stopped = true → before.length < n)
    (hend : stopped = false → before.length = n) :
    GoesOn start before n learns p seed
      ((SolveResult.timeout (past.runtime.max (finish - start))).mark past.overflow)
      ((if stopped then [.asked true] else []) ++ [.looked finish]) := by
  refine ⟨⟨start, before, stopped, finish⟩, rfl, List.prefix_rfl, ?_, ?_,
    hpast.explains_timeout hbefore⟩
  -- nothing is learnt from stages that settle nothing
  · have hlearning : learning learns p (SolveResult.combine before) = [] := by
      rw [SolveResult.combine_of_inconclusive hbefore]
      simp [learning, SolveResult.timeout, SolveResult.bare]
    refine Eq.trans ?_ Run.eventsAfter_length.symm
    simp [Run.ending, hlearning]
  · constructor
    · cases stopped with
      | true => exact Nat.le_of_lt (hstop rfl)
      | false => exact Nat.le_of_eq (hend rfl)
    · intro q hq
      exact hbefore q ((List.dropLast_sublist _).subset hq)
    · intro hstopped
      exact ⟨hstop hstopped, hbefore⟩
    · intro hgo
      exact Or.inr (hend hgo)

end Steps

/-! ## §5 Traces of Runs -/

section Traces

variable {σ : Type} {learner : Option (CacheAccess σ)} {criterion : Criterion σ} {p : Problem}
  {seed : Nat} {start : Duration} {before : List SolveResult} {past : SolveResult}

/-- A cache that leaves what it learns in the trace. -/
def tracedCache (cache : CacheAccess σ) : CacheAccess (Traced Event σ) where
  prove? q := offTrace (cache.prove? q)
  insert q := onTrace (cache.insert q) fun _ => .learnt q

/-- A criterion that leaves its words to stop or go on in the trace. -/
def tracedCriterion (criterion : Criterion σ) : Criterion (Traced Event σ) where
  hasToStop := onTrace criterion.hasToStop .asked
  remaining := offTrace criterion.remaining

/-- Stages that leave their calls in the trace, where the first one has a given place. -/
def tracedStages (place : Nat) (stages : List (Stage σ)) : List (Stage (Traced Event σ)) :=
  (stages.zipIdx place).map fun e => ⟨e.1.name, e.1.solver.traced (.called e.2)⟩

/-- A pipeline that leaves its calls and what it has learnt in the trace. -/
def traced (l : Pipeline σ) : Pipeline (Traced Event σ) :=
  ⟨tracedStages 0 l.stages, l.learner.map tracedCache⟩

theorem traces_learn {r : SolveResult} :
    Traces (learn (learner.map tracedCache) p r) (learn learner p r)
      fun _ events => events = learning learner.isSome p r := by
  cases learner with
  | none => exact .pure (by simp [learning])
  | some cache =>
    by_cases h : r.verdict = .unsat ∧ r.justification = none
    · have hlearning : learning (some cache).isSome p r = [.learnt p] := by simp [learning, h]
      simp only [learn, Option.map_some, if_pos h, hlearning]
      show Traces (onTrace (cache.insert p) fun _ => Event.learnt p) _ _
      exact Traces.onTrace
    · have hlearning : learning (some cache).isSome p r = [] := by simp [learning, h]
      simp only [learn, Option.map_some, if_neg h, hlearning]
      exact .pure rfl

variable [Timed σ]

instance : Timed (Traced Event σ) := ⟨onTrace Timed.read fun r => .looked r.wall⟩

theorem traces_now : Traces (Timed.now : StateM (Traced Event σ) Duration) Timed.now
    fun wall events => events = [.looked wall] :=
  .seq Traces.onTrace fun _ => .pure rfl

theorem traces_since : Traces (Timed.since start : StateM (Traced Event σ) Duration)
    (Timed.since start)
    fun d events => ∃ finish, events = [.looked finish] ∧ d = finish - start :=
  .seq traces_now fun finish => .pure ⟨finish, rfl, rfl⟩

theorem traces_giveUp :
    Traces (tryStages.giveUp start past : StateM (Traced Event σ) SolveResult)
      (tryStages.giveUp start past) fun r events => ∃ finish, events = [.looked finish] ∧
        r = (SolveResult.timeout (past.runtime.max (finish - start))).mark past.overflow := by
  refine .bind traces_since ?_
  intro d events h
  obtain ⟨finish, rfl, rfl⟩ := h
  exact .pure ⟨finish, rfl, rfl⟩

/-- After stages that have settled nothing, a pipeline does what is left of a run. -/
theorem traces_tryStages (stages : List (Stage σ)) (hbefore : ∀ q ∈ before, q.isConclusive = false)
    (hpast : Tallies past before) :
    Traces (tryStages (learner.map tracedCache) p (tracedCriterion criterion) seed start past
        (tracedStages before.length stages))
      (tryStages learner p criterion seed start past stages)
      (GoesOn start before (before.length + stages.length) learner.isSome p seed) := by
  -- the stages left are counted down, and those called so far tell where the run goes on
  induction stages generalizing before past with
  | nil =>
    refine traces_giveUp.mono ?_
    intro r events h
    obtain ⟨finish, rfl, rfl⟩ := h
    exact goesOn_of_inconclusive false hbefore hpast (by simp) (by simp)
  | cons stage rest ih =>
    refine .seq Traces.onTrace fun stop => ?_
    cases stop with
    | true =>
      refine traces_giveUp.mono ?_
      intro r events h
      obtain ⟨finish, rfl, rfl⟩ := h
      exact goesOn_of_inconclusive true hbefore hpast (by simp) (by simp)
    | false =>
      refine .seq Solver.traces_traced fun result => ?_
      dsimp only
      split
      · rename_i hresult
        refine .seq traces_learn fun _ => ?_
        refine .bind traces_since ?_
        intro d looked h
        obtain ⟨finish, rfl, rfl⟩ := h
        refine .pure ?_
        rw [List.append_nil]
        exact goesOn_of_conclusive hbefore hpast (by simp) hresult
      · rename_i hresult
        have hbefore' : ∀ q ∈ before ++ [result], q.isConclusive = false := by
          simpa [or_imp, forall_and] using And.intro hbefore hresult
        have hlength : (before ++ [result]).length + rest.length
            = before.length + (stage :: rest).length := by
          simp only [List.length_append, List.length_cons, List.length_nil]
          omega
        have hrest := ih hbefore' hpast.charge
        rw [hlength, List.length_append] at hrest
        refine hrest.mono ?_
        intro r events hevents
        exact hevents.call

/-- A pipeline calls its stages in order until one settles the problem or the criterion says stop.
Its result is that of the called stages put together, with the time that passed if that is longer
than theirs, and the problem is learnt exactly if a search found that there is no packing. -/
theorem traces_solver (l : Pipeline σ) (p : Problem) (criterion : Criterion σ) (seed : Nat) :
    Traces (l.traced.solver.solve p (tracedCriterion criterion) seed)
      (l.solver.solve p criterion seed) fun r events =>
        ∃ run : Run, run.EndsRightly l.stages.length ∧
          events = run.events l.learner.isSome p seed ∧ run.Explains r := by
  refine .seq traces_now fun start => ?_
  refine (traces_tryStages l.stages (by simp) tallies_nil).mono ?_
  intro r events h
  obtain ⟨run, rfl, -, rfl, hends, hexplains⟩ := h
  rw [List.length_nil, Nat.zero_add] at hends
  exact ⟨run, hends, rfl, hexplains⟩

end Traces

end Pipeline

end SpectrumPacking
