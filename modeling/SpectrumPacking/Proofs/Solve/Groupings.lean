import SpectrumPacking.Proofs.Solve.Pipelines

/-!
# Merging in Groups

The results of attempts that were made one after another are merged: the last one that settled the
problem counts, and every attempt is charged for.  It does not matter whether all are merged at once
or in two parts (`SolveResult.combine_append`).  Hence attempts may be merged group by group, and
the groups may be made of groups (`SolveResult.Grouped`): as long as clocks can keep the total time,
the merged result is the same, and no sum on the way to it overflows
(`SolveResult.combine_of_grouped`).
-/

namespace SpectrumPacking

namespace SolveResult

variable {l m : List SolveResult} {r : SolveResult}

/-! ## §1 Total Times -/

theorem totalTime_singleton : totalTime [r] = r.runtime := by
  apply Duration.eq_of_nanos_eq
  rw [totalTime, List.foldl_cons, List.foldl_nil, Duration.nanos_add]
  exact Nat.zero_add _

/-- Attempts take as long whatever time passed before them. -/
theorem nanos_foldl_runtime {d : Duration} :
    (l.foldl (fun d r => d + r.runtime) d).nanos = d.nanos + (totalTime l).nanos := by
  induction l generalizing d with
  | nil => rfl
  | cons r l ih =>
    have hzero : Duration.zero.nanos = 0 := rfl
    rw [totalTime, List.foldl_cons, List.foldl_cons, ih, ih, Duration.nanos_add,
      Duration.nanos_add, hzero, Nat.zero_add, Nat.add_assoc]

theorem totalTime_append : totalTime (l ++ m) = totalTime l + totalTime m := by
  apply Duration.eq_of_nanos_eq
  rw [totalTime, List.foldl_append, nanos_foldl_runtime, Duration.nanos_add]
  rfl

/-- Clocks can keep the time of some attempts if they can keep each of them and their sum. -/
theorem totalOverflow?_eq_none_iff :
    totalOverflow? l = none ↔ (∀ r ∈ l, r.overflow = none) ∧ totalTime l ≤ .greatest := by
  have htooLong : tooLong? .sum (totalTime l) = none ↔ totalTime l ≤ .greatest := by
    unfold tooLong?
    split <;> simp_all
  simp only [totalOverflow?, Option.orElse_eq_orElse, Option.orElse_eq_or, Option.or_eq_none_iff,
    List.findSome?_eq_none_iff, htooLong]

theorem totalOverflow?_append_eq_none_iff :
    totalOverflow? (l ++ m) = none ↔
      totalOverflow? l = none ∧ totalOverflow? m = none ∧
        totalTime l + totalTime m ≤ .greatest := by
  simp only [totalOverflow?_eq_none_iff, totalTime_append, List.forall_mem_append]
  simp only [Duration.le_def, Duration.nanos_add]
  constructor
  · rintro ⟨⟨hl, hm⟩, hsum⟩
    exact ⟨⟨hl, by omega⟩, ⟨hm, by omega⟩, hsum⟩
  · rintro ⟨⟨hl, -⟩, ⟨hm, -⟩, hsum⟩
    exact ⟨⟨hl, hm⟩, hsum⟩

/-! ## §2 The Attempt That Counts -/

theorem lastConclusive?_append :
    lastConclusive? (l ++ m) = (lastConclusive? m).or (lastConclusive? l) := by
  rw [lastConclusive?, List.reverse_append, List.find?_append]
  rfl

theorem lastConclusive?_singleton :
    lastConclusive? [r] = if r.isConclusive then some r else none := by
  cases h : r.isConclusive <;> simp [lastConclusive?, h]

theorem combine_of_last (h : lastConclusive? l = some r) :
    combine l = { r with runtime := totalTime l, overflow := totalOverflow? l } := by
  rw [combine, h]

theorem combine_of_none (h : lastConclusive? l = none) :
    combine l = { timeout (totalTime l) with overflow := totalOverflow? l } := by
  rw [combine, h]

theorem runtime_combine : (combine l).runtime = totalTime l := by
  unfold combine
  split <;> rfl

theorem overflow_combine : (combine l).overflow = totalOverflow? l := by
  unfold combine
  split <;> rfl

/-- A merged result settles the problem if one of the attempts did. -/
theorem isConclusive_combine : (combine l).isConclusive = (lastConclusive? l).isSome := by
  cases h : lastConclusive? l with
  | none =>
    rw [combine_of_none h]
    rfl
  | some r =>
    rw [combine_of_last h]
    exact (List.find?_some h : r.isConclusive = true)

theorem lastConclusive?_singleton_combine :
    lastConclusive? [combine l] = (lastConclusive? l).map fun _ => combine l := by
  rw [lastConclusive?_singleton, isConclusive_combine]
  cases lastConclusive? l <;> rfl

theorem lastConclusive?_pair_combine :
    lastConclusive? [combine l, combine m] =
      ((lastConclusive? m).map fun _ => combine m).or
        ((lastConclusive? l).map fun _ => combine l) := by
  rw [← List.singleton_append, lastConclusive?_append, lastConclusive?_singleton_combine,
    lastConclusive?_singleton_combine]

/-! ## §3 Two Parts -/

/-- Clocks can keep the time of merged attempts if they can keep that of the attempts. -/
theorem totalOverflow?_singleton_combine (h : totalOverflow? l = none) :
    totalOverflow? [combine l] = none ∧ totalTime [combine l] = totalTime l := by
  have htime : totalTime [combine l] = totalTime l := by
    rw [totalTime_singleton, runtime_combine]
  refine ⟨totalOverflow?_eq_none_iff.2 ⟨?_, ?_⟩, htime⟩
  · intro r hr
    rw [List.mem_singleton.1 hr, overflow_combine, h]
  · rw [htime]
    exact (totalOverflow?_eq_none_iff.1 h).2

theorem combine_singleton_combine (h : totalOverflow? l = none) :
    combine [combine l] = combine l := by
  obtain ⟨hkept, htime⟩ := totalOverflow?_singleton_combine h
  have hlast := lastConclusive?_singleton_combine (l := l)
  cases hl : lastConclusive? l with
  | none =>
    rw [hl] at hlast
    rw [combine_of_none hlast, htime, hkept, combine_of_none hl, h]
  | some r =>
    rw [hl] at hlast
    rw [combine_of_last hlast, htime, hkept, combine_of_last hl, h]

/-- Attempts may be merged in two parts. -/
theorem combine_append (h : totalOverflow? (l ++ m) = none) :
    combine (l ++ m) = combine [combine l, combine m] := by
  obtain ⟨hl, hm, hsum⟩ := totalOverflow?_append_eq_none_iff.1 h
  obtain ⟨hl', hltime⟩ := totalOverflow?_singleton_combine hl
  obtain ⟨hm', hmtime⟩ := totalOverflow?_singleton_combine hm
  have htime : totalTime [combine l, combine m] = totalTime (l ++ m) := by
    rw [← List.singleton_append, totalTime_append, hltime, hmtime, totalTime_append]
  have hkept : totalOverflow? [combine l, combine m] = none := by
    rw [← List.singleton_append, totalOverflow?_append_eq_none_iff, hltime, hmtime]
    exact ⟨hl', hm', hsum⟩
  have hlast := lastConclusive?_append (l := l) (m := m)
  have hlast' := lastConclusive?_pair_combine (l := l) (m := m)
  -- the last attempt that settled the problem is in the second part, in the first one, or nowhere
  cases hlastm : lastConclusive? m with
  | some r =>
    rw [hlastm] at hlast hlast'
    rw [combine_of_last hlast, combine_of_last hlast', htime, hkept, h, combine_of_last hlastm]
  | none =>
    rw [hlastm] at hlast hlast'
    cases hlastl : lastConclusive? l with
    | some r =>
      rw [hlastl] at hlast hlast'
      rw [combine_of_last hlast, combine_of_last hlast', htime, hkept, h, combine_of_last hlastl]
    | none =>
      rw [hlastl] at hlast hlast'
      rw [combine_of_none hlast, combine_of_none hlast', htime, hkept, h]

/-! ## §4 Groups -/

/-- Merging some groups of consecutive attempts turns one list of results into another.  A group may
be empty, and its attempts may have been grouped before. -/
inductive Grouped : List SolveResult → List SolveResult → Prop where
  | nil : Grouped [] []
  /-- An attempt outside of all groups. -/
  | attempt (r : SolveResult) {l m} (h : Grouped l m) : Grouped (r :: l) (r :: m)
  /-- A group of attempts, with a result for the whole group. -/
  | group {g g' l m} (hg : Grouped g g') (h : Grouped l m) : Grouped (g ++ l) (combine g' :: m)

theorem Grouped.refl : Grouped l l := by
  induction l with
  | nil => exact .nil
  | cons r l ih => exact ih.attempt r

/-- What was merged in groups comes to the same as what is merged at once. -/
theorem Grouped.combine_eq (h : Grouped l m) (hkept : totalOverflow? l = none) :
    combine m = combine l := by
  -- what follows a list of results does not see more of it than its merged result
  have happend : ∀ {f l m : List SolveResult}, combine m = combine l →
      totalOverflow? (f ++ l) = none →
        totalOverflow? (f ++ m) = none ∧ combine (f ++ m) = combine (f ++ l) := by
    intro f l m hcombine hfl
    have htime : totalTime m = totalTime l := by rw [← runtime_combine, hcombine, runtime_combine]
    have hfm : totalOverflow? (f ++ m) = none := by
      rw [totalOverflow?_append_eq_none_iff, ← overflow_combine (l := m), htime, hcombine,
        overflow_combine]
      exact totalOverflow?_append_eq_none_iff.1 hfl
    exact ⟨hfm, by rw [combine_append hfm, combine_append hfl, hcombine]⟩
  induction h with
  | nil => rfl
  | @attempt r l m _ ih =>
    rw [← List.singleton_append] at hkept
    obtain ⟨-, hl, -⟩ := totalOverflow?_append_eq_none_iff.1 hkept
    exact (happend (ih hl) hkept).2
  | @group g g' l m _ _ ihg ih =>
    obtain ⟨hg, hl, hsum⟩ := totalOverflow?_append_eq_none_iff.1 hkept
    obtain ⟨hg', hgtime⟩ := totalOverflow?_singleton_combine hg
    have hmerged : totalOverflow? ([combine g] ++ l) = none := by
      rw [totalOverflow?_append_eq_none_iff, hgtime]
      exact ⟨hg', hl, hsum⟩
    calc combine (combine g' :: m) = combine ([combine g] ++ m) := by rw [ihg hg]; rfl
      _ = combine ([combine g] ++ l) := (happend (ih hl) hmerged).2
      _ = combine [combine g, combine l] := by
        rw [combine_append hmerged, combine_singleton_combine hg]
      _ = combine (g ++ l) := (combine_append hkept).symm

/-- Attempts may be merged in two parts, and in any groups of groups: if clocks can keep the times
of the attempts and their sum, then they can keep every sum on the way, and the result is that of
merging all attempts at once. -/
theorem combine_of_grouped (xs ys : List SolveResult) (hkept : ∀ r ∈ xs ++ ys, r.overflow = none)
    (hsum : totalTime (xs ++ ys) ≤ .greatest) :
    combine (xs ++ ys) = combine [combine xs, combine ys] ∧
      ∀ l, Grouped (xs ++ ys) l → (combine l).kept = .ok (combine (xs ++ ys)) := by
  have htotal : totalOverflow? (xs ++ ys) = none := totalOverflow?_eq_none_iff.2 ⟨hkept, hsum⟩
  refine ⟨combine_append htotal, ?_⟩
  intro l hl
  rw [hl.combine_eq htotal]
  apply kept_eq_ok
  rw [overflow_combine, htotal]

/-- An attempt that fails. -/
def failedAttempt : SolveResult := crashed (.ofMillis 300)

/-- An attempt that finds a problem in a cache. -/
def cachedAttempt : SolveResult :=
  { unsat (.ofMillis 200) with justification := some "14_1-2" }

/-- An attempt that runs out of time. -/
def lateAttempt : SolveResult := timeout (.ofMillis 100)

/-- The answer of a cache stands when attempts fail or run out of time before and after it. -/
theorem combine_of_grouped_cached :
    (∀ r ∈ [failedAttempt, cachedAttempt] ++ [lateAttempt, failedAttempt], r.overflow = none) ∧
      totalTime ([failedAttempt, cachedAttempt] ++ [lateAttempt, failedAttempt]) ≤ .greatest ∧
      combine [failedAttempt, cachedAttempt, lateAttempt, failedAttempt]
        = combine [combine [failedAttempt, cachedAttempt],
            combine [lateAttempt, failedAttempt]] ∧
      (combine [failedAttempt, combine [cachedAttempt, combine [lateAttempt], failedAttempt]]).kept
        = .ok { cachedAttempt with runtime := .ofMillis 900 } := by
  have hkept : ∀ r ∈ [failedAttempt, cachedAttempt] ++ [lateAttempt, failedAttempt],
      r.overflow = none := by decide
  have hsum : totalTime ([failedAttempt, cachedAttempt] ++ [lateAttempt, failedAttempt])
      ≤ .greatest := by decide
  obtain ⟨happend, hgroups⟩ := combine_of_grouped _ _ hkept hsum
  -- groups within groups, and attempts outside of them
  have hgrouped : Grouped ([failedAttempt, cachedAttempt] ++ [lateAttempt, failedAttempt])
      [failedAttempt, combine [cachedAttempt, combine [lateAttempt], failedAttempt]] :=
    .attempt failedAttempt (.group (g := [cachedAttempt, lateAttempt, failedAttempt])
      (.attempt cachedAttempt (.group (g := [lateAttempt]) .refl .refl)) .nil)
  exact ⟨hkept, hsum, happend, hgroups _ hgrouped⟩

end SolveResult

end SpectrumPacking
