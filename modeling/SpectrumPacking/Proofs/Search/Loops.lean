import SpectrumPacking.Search.Engine

/-!
# Loops over Problems

A loop hands problem after problem to an engine and reports each status, until a report is refused.
An engine that works through problems without anybody to report to does so by a relation of its own
(`WorksThrough`), which says how its states follow one another.  The loop has the engine work
through the problems up to the one whose report is refused (`problemsTaken`), and the engine sees no
others.

The main statement is `runLoop_worksThrough`.
-/

namespace SpectrumPacking

universe u v

variable {ε : Type u} {π : Type v} {solve : ε → π → Status × ε} {e e' e'' : ε}
  {p : π} {problems rest seen : List π} {status : Status} {statuses statuses' : List Status}
  {accepts : List Bool}

/-! ## §1 Working Through Problems -/

/-- An engine works through problems in their order, each in the state in which the one before has
left it.  It comes to a status for each of them, and to a state at the end. -/
inductive WorksThrough (solve : ε → π → Status × ε) :
    ε → List π → List Status → ε → Prop where
  | nil {e : ε} : WorksThrough solve e [] [] e
  | cons {e e' e'' : ε} {p : π} {rest : List π} {status : Status} {statuses : List Status} :
      solve e p = (status, e') → WorksThrough solve e' rest statuses e'' →
      WorksThrough solve e (p :: rest) (status :: statuses) e''

namespace WorksThrough

/-- There is one status for each problem. -/
theorem length_eq (h : WorksThrough solve e problems statuses e') :
    statuses.length = problems.length := by
  induction h with
  | nil => rfl
  | cons _ _ ih => simp [ih]

/-- An engine can work through problems in one way only. -/
theorem unique (h : WorksThrough solve e problems statuses e')
    (h' : WorksThrough solve e problems statuses' e'') : statuses = statuses' ∧ e' = e'' := by
  induction h generalizing statuses' with
  | nil =>
    cases h'
    exact ⟨rfl, rfl⟩
  | cons hsolve _ ih =>
    cases h' with
    | cons hsolve' hrest' =>
      cases hsolve.symm.trans hsolve'
      obtain ⟨rfl, rfl⟩ := ih hrest'
      exact ⟨rfl, rfl⟩

end WorksThrough

/-! ## §2 Engines That Note What They See -/

/-- An engine that keeps a list of the problems that it was shown, the oldest first. -/
def noting (solve : ε → π → Status × ε) (e : ε × List π) (p : π) : Status × (ε × List π) :=
  ((solve e.1 p).1, (solve e.1 p).2, e.2 ++ [p])

/-- An engine comes to the same statuses if it notes what it sees, and it notes the problems that it
works through. -/
theorem WorksThrough.noted (h : WorksThrough solve e problems statuses e') :
    WorksThrough (noting solve) (e, seen) problems statuses (e', seen ++ problems) := by
  induction h generalizing seen with
  | nil =>
    rw [List.append_nil]
    exact .nil
  | @cons e e' e'' p rest status statuses hsolve _ ih =>
    have hnoted : noting solve (e, seen) p = (status, e', seen ++ [p]) := by
      simp [noting, hsolve]
    rw [List.append_cons]
    exact .cons hnoted ih

/-! ## §3 Taking Problems -/

/-- How many of `n` problems are taken: all of them, or those up to the first one whose report is
refused. -/
def problemsTaken (n : Nat) (accepts : List Bool) : Nat :=
  if false ∈ accepts then min n (accepts.idxOf false + 1) else n

theorem problemsTaken_zero : problemsTaken 0 accepts = 0 := by simp [problemsTaken]

/-- After a report that is accepted, what is taken is up to the reports that follow. -/
theorem problemsTaken_of_accepted {n : Nat} (h : accepts.headD true = true) :
    problemsTaken (n + 1) accepts = problemsTaken n accepts.tail + 1 := by
  cases accepts with
  | nil => simp [problemsTaken]
  | cons accept accepts =>
    simp only [List.headD_cons] at h
    subst h
    by_cases hrefused : false ∈ accepts
    · have hfirst : (true :: accepts).idxOf false = accepts.idxOf false + 1 := by
        rw [List.idxOf_cons]
        rfl
      rw [problemsTaken, if_pos (List.mem_cons_of_mem true hrefused), hfirst, List.tail_cons,
        problemsTaken, if_pos hrefused, Nat.add_min_add_right]
    · simp [problemsTaken, hrefused]

/-- A report that is refused is the last one. -/
theorem problemsTaken_of_refused {n : Nat} (h : accepts.headD true = false) :
    problemsTaken (n + 1) accepts = 1 := by
  cases accepts with
  | nil => simp at h
  | cons accept accepts =>
    simp only [List.headD_cons] at h
    subst h
    simp [problemsTaken]

theorem problemsTaken_le {n : Nat} : problemsTaken n accepts ≤ n := by
  unfold problemsTaken
  split <;> omega

/-! ## §4 The Loop -/

theorem runLoop_of_accepted (h : accepts.headD true = true) :
    runLoop solve e (p :: rest) accepts =
      { runLoop solve (solve e p).2 rest accepts.tail with
        statuses :=
          (solve e p).1 :: (runLoop solve (solve e p).2 rest accepts.tail).statuses } := by
  rw [runLoop]
  simp only [h, if_true]

theorem runLoop_of_refused (h : accepts.headD true = false) :
    runLoop solve e (p :: rest) accepts = ⟨[(solve e p).1], rest, (solve e p).2⟩ := by
  rw [runLoop]
  simp only [h, Bool.false_eq_true, if_false]

/-- The engine works through the problems that are taken, and the others are left. -/
theorem taken_runLoop (solve : ε → π → Status × ε) (e : ε) (problems : List π)
    (accepts : List Bool) :
    WorksThrough solve e (problems.take (problemsTaken problems.length accepts))
        (runLoop solve e problems accepts).statuses (runLoop solve e problems accepts).engine ∧
      (runLoop solve e problems accepts).left =
        problems.drop (problemsTaken problems.length accepts) := by
  induction problems generalizing e accepts with
  | nil =>
    rw [List.length_nil, problemsTaken_zero]
    exact ⟨.nil, rfl⟩
  | cons p rest ih =>
    rw [List.length_cons]
    -- a report that is accepted lets the loop go on with the engine as it is now
    cases h : accepts.headD true with
    | true =>
      obtain ⟨hworks, hleft⟩ := ih (solve e p).2 accepts.tail
      rw [runLoop_of_accepted h, problemsTaken_of_accepted h, List.take_succ_cons,
        List.drop_succ_cons]
      exact ⟨.cons rfl hworks, hleft⟩
    | false =>
      rw [runLoop_of_refused h, problemsTaken_of_refused h, List.take_succ_cons,
        List.drop_succ_cons, List.take_zero, List.drop_zero]
      exact ⟨.cons rfl .nil, rfl⟩

/-- A loop has its engine work through the problems from the front, up to the first one whose report
is refused, and reports one status for each of them.  The other problems are left as they are, and
the engine does not see them: one that notes what it is shown does the same, and notes the problems
that were taken. -/
theorem runLoop_worksThrough (solve : ε → π → Status × ε) (e : ε) (problems : List π)
    (accepts : List Bool) :
    let taken := problemsTaken problems.length accepts
    let o := runLoop solve e problems accepts
    WorksThrough solve e (problems.take taken) o.statuses o.engine ∧
      o.statuses.length = taken ∧ o.left = problems.drop taken ∧
      runLoop (noting solve) (e, []) problems accepts
        = ⟨o.statuses, o.left, o.engine, problems.take taken⟩ := by
  intro taken o
  obtain ⟨hworks, hleft⟩ : WorksThrough solve e (problems.take taken) o.statuses o.engine ∧
      o.left = problems.drop taken := taken_runLoop solve e problems accepts
  refine ⟨hworks, ?_, hleft, ?_⟩
  · rw [hworks.length_eq, List.length_take, Nat.min_eq_left problemsTaken_le]
  · -- both engines work through the same problems, and there is one way to do so
    obtain ⟨hnoted, hleft'⟩ :=
      taken_runLoop (noting solve) (e, []) problems accepts
    have hnoted' : WorksThrough (noting solve) (e, []) (problems.take taken) o.statuses
        (o.engine, problems.take taken) := hworks.noted
    obtain ⟨hstatuses, hengine⟩ := hnoted.unique hnoted'
    rw [← hstatuses, ← hengine, hleft, ← hleft']

/-- The second report is refused: the third number is left, and not added. -/
example :
    runLoop (fun (sum p : Int) => (.sat [p], sum + p)) 0 [5, 6, 7] [true, false, true] =
      ⟨[.sat [5], .sat [6]], [7], 11⟩ := rfl

end SpectrumPacking
