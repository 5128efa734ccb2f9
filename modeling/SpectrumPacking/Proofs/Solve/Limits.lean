import SpectrumPacking.Solve.Solver

/-!
# Limits of Time

A limit is a tree: several limits count together, and each of them may be of several.  What holds of
a composite limit follows from what holds of each of its parts (`Limit.induct`), where the time left
is the greatest one that fits into that of every part (`Limit.le_leastRemaining_iff`).

The main statement is `Limit.consistent_and_irrevocable`: a limit is reached exactly when it leaves
no time, and as the clocks go on it stays reached and leaves no more time than before.
-/

namespace SpectrumPacking

/-! ## §1 Comparing Durations -/

namespace Duration

variable {a b c d : Duration}

theorem le_refl : a ≤ a := Nat.le_refl _

theorem le_trans (hab : a ≤ b) (hbc : b ≤ c) : a ≤ c := Nat.le_trans hab hbc

theorem le_antisymm (hab : a ≤ b) (hba : b ≤ a) : a = b := by
  cases a
  cases b
  exact congrArg mk (Nat.le_antisymm hab hba)

theorem eq_zero_iff : d = zero ↔ d.nanos = 0 := by
  cases d
  simp [zero]

theorem eq_zero_of_le (h : d ≤ zero) : d = zero := le_antisymm h (Nat.zero_le _)

theorem sub_eq_zero_iff : a - b = zero ↔ a ≤ b :=
  eq_zero_iff.trans Nat.sub_eq_zero_iff_le

/-- A later moment is not closer to a start than an earlier one, and so it leaves no more of a
budget. -/
theorem sub_sub_le (h : a ≤ b) : d - (b - c) ≤ d - (a - c) :=
  Nat.sub_le_sub_left (Nat.sub_le_sub_right h c.nanos) d.nanos

theorem le_min_iff : d ≤ a.min b ↔ d ≤ a ∧ d ≤ b := by
  rw [min]
  split
  · rename_i h
    exact ⟨fun hd => ⟨hd, le_trans hd h⟩, fun hd => hd.1⟩
  · rename_i h
    have h : b ≤ a := Nat.le_of_not_le h
    exact ⟨fun hd => ⟨le_trans hd h, hd⟩, fun hd => hd.2⟩

theorem min_eq_zero_iff : a.min b = zero ↔ a = zero ∨ b = zero := by
  rw [min]
  split
  · rename_i h
    constructor
    · exact .inl
    · rintro (ha | hb)
      · exact ha
      · exact eq_zero_of_le (hb ▸ h)
  · rename_i h
    have h : b ≤ a := Nat.le_of_not_le h
    constructor
    · exact .inr
    · rintro (ha | hb)
      · exact eq_zero_of_le (ha ▸ h)
      · exact hb

theorem greatest_ne_zero : greatest ≠ zero := by decide

end Duration

/-! ## §2 Limits as Trees -/

namespace Limit

/-- What holds of a composite limit if it holds of its parts, and of all other limits, holds of
every limit. -/
@[elab_as_elim, induction_eliminator]
theorem induct {motive : Limit → Prop} (never : motive never)
    (wall : ∀ start budget, motive (wall start budget))
    (cpu : ∀ start budget, motive (cpu start budget))
    (any : ∀ limits, (∀ l ∈ limits, motive l) → motive (any limits)) (l : Limit) : motive l :=
  @Limit.rec motive (fun limits => ∀ l ∈ limits, motive l) never wall cpu any nofun
    (fun _ _ hfirst hrest => List.forall_mem_cons.2 ⟨hfirst, hrest⟩) l

/-- A limit without a budget in it is never reached. -/
inductive IsEndless : Limit → Prop where
  | never : IsEndless never
  | any {limits} (h : ∀ l ∈ limits, IsEndless l) : IsEndless (any limits)

variable {r r' : Reading} {l : Limit} {limits : List Limit} {d : Duration}

theorem anyHasToStop_iff : anyHasToStop r limits = true ↔ ∃ l ∈ limits, l.hasToStop r = true := by
  induction limits with
  | nil => simp [anyHasToStop]
  | cons l rest ih => simp [anyHasToStop, ih]

/-- The least time that several limits leave is the greatest that each of them leaves. -/
theorem le_leastRemaining_iff :
    d ≤ leastRemaining r limits ↔ d ≤ .greatest ∧ ∀ l ∈ limits, d ≤ l.remaining r := by
  induction limits with
  | nil => simp [leastRemaining]
  | cons l rest ih =>
    rw [leastRemaining, Duration.le_min_iff, ih, List.forall_mem_cons]
    exact and_left_comm

/-- Several limits leave no time exactly when one of them leaves none. -/
theorem leastRemaining_eq_zero_iff :
    leastRemaining r limits = .zero ↔ ∃ l ∈ limits, l.remaining r = .zero := by
  induction limits with
  | nil => simp [leastRemaining, Duration.greatest_ne_zero]
  | cons l rest ih => simp [leastRemaining, Duration.min_eq_zero_iff, ih]

/-- A limit is reached exactly when it leaves no time. -/
theorem hasToStop_iff_remaining : l.hasToStop r = true ↔ l.remaining r = .zero := by
  induction l with
  | never => simp [hasToStop, remaining, Duration.greatest_ne_zero]
  | wall start budget =>
    rw [hasToStop, decide_eq_true_iff, remaining]
    exact Duration.sub_eq_zero_iff.symm
  | cpu start budget =>
    rw [hasToStop, decide_eq_true_iff, remaining]
    exact Duration.sub_eq_zero_iff.symm
  | any limits ih =>
    rw [hasToStop, anyHasToStop_iff, remaining, leastRemaining_eq_zero_iff]
    exact exists_congr fun l => and_congr_right (ih l)

/-- As the clocks go on, no more time is left than before. -/
theorem remaining_le (hwall : r.wall ≤ r'.wall) (hcpu : r.cpu ≤ r'.cpu) :
    l.remaining r' ≤ l.remaining r := by
  induction l with
  | never => exact Duration.le_refl
  | wall start budget => exact Duration.sub_sub_le hwall
  | cpu start budget => exact Duration.sub_sub_le hcpu
  | any limits ih =>
    obtain ⟨hgreatest, hparts⟩ :=
      le_leastRemaining_iff.1 (Duration.le_refl (a := leastRemaining r' limits))
    refine le_leastRemaining_iff.2 ⟨hgreatest, ?_⟩
    intro l hl
    exact Duration.le_trans (hparts l hl) (ih l hl)

/-- As the clocks go on, a limit that is reached stays reached. -/
theorem hasToStop_of_le (hwall : r.wall ≤ r'.wall) (hcpu : r.cpu ≤ r'.cpu)
    (h : l.hasToStop r = true) : l.hasToStop r' = true := by
  rw [hasToStop_iff_remaining] at h ⊢
  exact Duration.eq_zero_of_le (h ▸ remaining_le hwall hcpu)

/-- Without a budget in it, a limit leaves the greatest time. -/
theorem IsEndless.remaining_eq (h : l.IsEndless) : l.remaining r = .greatest := by
  induction h with
  | never => rfl
  | any _ ih =>
    apply Duration.le_antisymm
    · exact (le_leastRemaining_iff.1 Duration.le_refl).1
    · refine le_leastRemaining_iff.2 ⟨Duration.le_refl, ?_⟩
      intro l hl
      rw [ih l hl]
      exact Duration.le_refl

end Limit

/-! ## §3 Limits as Criteria -/

/-- In a state the clocks show a reading, and they stand still. -/
def Timed.Shows {σ : Type} [Timed σ] (s : σ) (r : Reading) : Prop :=
  (Timed.read : StateM σ Reading) s = (r, s)

namespace Limit

variable {σ : Type} [Timed σ] {s : σ} {r : Reading} {l : Limit} {limits : List Limit}

mutual

/-- A limit as a criterion that asks its parts one after another. -/
def toCriterion : Limit → Criterion σ
  | never => .never
  | wall start budget => .ofLimit (wall start budget)
  | cpu start budget => .ofLimit (cpu start budget)
  | any limits => .any (toCriteria limits)

/-- Limits as criteria. -/
def toCriteria : List Limit → List (Criterion σ)
  | [] => []
  | l :: rest => toCriterion l :: toCriteria rest

end

/-- A criterion says what a limit does at a reading. -/
def IsAnsweredBy (l : Limit) (r : Reading) (c : Criterion σ) (s : σ) : Prop :=
  c.hasToStop s = (l.hasToStop r, s) ∧ c.remaining s = (l.remaining r, s)

theorem isAnsweredBy_ofLimit (hs : Timed.Shows s r) : l.IsAnsweredBy r (.ofLimit l) s :=
  ⟨congrArg (fun a : Reading × σ => (l.hasToStop a.1, a.2)) hs,
    congrArg (fun a : Reading × σ => (l.remaining a.1, a.2)) hs⟩

theorem isAnsweredBy_any (h : ∀ l ∈ limits, l.IsAnsweredBy r l.toCriterion s) :
    (any limits).IsAnsweredBy r (.any (toCriteria limits)) s := by
  induction limits with
  | nil => exact ⟨rfl, rfl⟩
  | cons l rest ih =>
    obtain ⟨⟨hstop, hremaining⟩, hrest⟩ := List.forall_mem_cons.1 h
    obtain ⟨hstops, hremains⟩ := ih hrest
    simp only [Criterion.any, hasToStop, remaining] at hstops hremains
    constructor
    · simp only [Criterion.any, toCriteria, Criterion.anyHasToStop, hasToStop, anyHasToStop, bind,
        StateT.bind, hstop]
      -- the criteria behind one that says stop are not asked any more
      cases l.hasToStop r with
      | true => rfl
      | false => exact hstops
    · simp only [Criterion.any, toCriteria, Criterion.leastRemaining, remaining, leastRemaining,
        bind, StateT.bind, hremaining, hremains]
      rfl

/-- While the clocks stand still, the criterion of a limit says what the limit does. -/
theorem isAnsweredBy_toCriterion (hs : Timed.Shows s r) : l.IsAnsweredBy r l.toCriterion s := by
  induction l with
  | never => exact ⟨rfl, rfl⟩
  | wall start budget => exact isAnsweredBy_ofLimit hs
  | cpu start budget => exact isAnsweredBy_ofLimit hs
  | any limits ih => exact isAnsweredBy_any ih

/-- At each reading of the clocks a limit is reached exactly when it leaves no time.  As the clocks
go on, a limit that is reached stays reached, and no more time is left than before.  Without a
budget in it, a limit is never reached and leaves the greatest time.  Criteria that are built as the
limit is say the same. -/
theorem consistent_and_irrevocable (l : Limit) :
    (∀ r, l.hasToStop r = true ↔ l.remaining r = .zero) ∧
      (∀ r r' : Reading, r.wall ≤ r'.wall → r.cpu ≤ r'.cpu →
        (l.hasToStop r = true → l.hasToStop r' = true) ∧ l.remaining r' ≤ l.remaining r) ∧
      (l.IsEndless → ∀ r, l.hasToStop r = false ∧ l.remaining r = .greatest) ∧
      ∀ (σ : Type) [Timed σ] (s : σ) (r : Reading), Timed.Shows s r →
        l.IsAnsweredBy r l.toCriterion s := by
  refine ⟨fun r => hasToStop_iff_remaining, ?_, ?_, fun _ _ _ _ => isAnsweredBy_toCriterion⟩
  · intro r r' hwall hcpu
    exact ⟨hasToStop_of_le hwall hcpu, remaining_le hwall hcpu⟩
  · intro h r
    refine ⟨?_, h.remaining_eq⟩
    rw [Bool.eq_false_iff, Ne, hasToStop_iff_remaining, h.remaining_eq]
    exact Duration.greatest_ne_zero

/-- A reading is a world whose clocks stand still. -/
instance : Timed Reading := ⟨get⟩

/-- A limit without a budget in it. -/
def endless : Limit := any [any [], never]

/-- A budget of either time, next to limits without one. -/
def eitherBudget : Limit := any [endless, cpu ⟨2⟩ ⟨5⟩, any [never, wall ⟨1⟩ ⟨3⟩]]

/-- The clocks when only the wall-clock budget is used up. -/
def early : Reading := ⟨⟨4⟩, ⟨3⟩⟩

/-- The clocks a while after that. -/
def late : Reading := ⟨⟨9⟩, ⟨6⟩⟩

theorem consistent_and_irrevocable_eitherBudget :
    (eitherBudget.hasToStop early = true ∧ early.wall ≤ late.wall ∧ early.cpu ≤ late.cpu ∧
        eitherBudget.hasToStop late = true) ∧
      (endless.IsEndless ∧ endless.remaining late = .greatest) ∧
      Timed.Shows early early ∧ eitherBudget.IsAnsweredBy early eitherBudget.toCriterion early := by
  have hreached : eitherBudget.hasToStop early = true := by decide
  have hwall : early.wall ≤ late.wall := by decide
  have hcpu : early.cpu ≤ late.cpu := by decide
  have hendless : endless.IsEndless :=
    .any (List.forall_mem_cons.2 ⟨.any nofun, List.forall_mem_singleton.2 .never⟩)
  obtain ⟨-, hlater, -, hcriteria⟩ := consistent_and_irrevocable eitherBudget
  obtain ⟨-, -, hnever, -⟩ := consistent_and_irrevocable endless
  exact ⟨⟨hreached, hwall, hcpu, (hlater early late hwall hcpu).1 hreached⟩,
    ⟨hendless, (hnever hendless late).2⟩, rfl, hcriteria Reading early early rfl⟩

end Limit

end SpectrumPacking
