import Mathlib.Data.List.Forall2
import SpectrumPacking.Solve.Solver

/-!
# Programs and What They Keep

Solvers are programs on a state.  `Triple P program Q` says that a program started in a state with
`P` returns a result and a state with `Q`; `Yields I program Q` is the case of an invariant `I` that
is kept.

What a program does on its way to a result can be seen if those that it calls leave entries in a
trace.  `Traces program plain Q` says that a program with a trace does what it does without one, and
that the entries it adds stand in the relation `Q` to its result.  For each of the three there is
one rule for each way to put programs together.
-/

namespace SpectrumPacking

variable {σ α β : Type}

/-- A program goes on with the result of its first part. -/
theorem bind_eq {program : StateM σ α} {f : α → StateM σ β} {a : α} {s s' : σ}
    (h : program s = (a, s')) : (program >>= f) s = f a s' := by
  show f (program s).1 (program s).2 = _
  rw [h]

/-! ## §1 Triples -/

/-- From a state with `P`, a program comes to a result and a state with `Q`. -/
def Triple (P : σ → Prop) (program : StateM σ α) (Q : α → σ → Prop) : Prop :=
  ∀ s, P s → Q (program s).1 (program s).2

namespace Triple

variable {P : σ → Prop} {program : StateM σ α} {Q : α → σ → Prop}

theorem pure {a : α} (h : ∀ s, P s → Q a s) : Triple P (pure a) Q := h

theorem bind {f : α → StateM σ β} {R : β → σ → Prop} (h : Triple P program Q)
    (hf : ∀ a, Triple (Q a) (f a) R) : Triple P (program >>= f) R :=
  fun s hs => hf _ _ (h s hs)

theorem mono {P' : σ → Prop} {Q' : α → σ → Prop} (h : Triple P program Q)
    (hP : ∀ s, P' s → P s) (hQ : ∀ a s, Q a s → Q' a s) : Triple P' program Q' :=
  fun s hs => hQ _ _ (h s (hP s hs))

end Triple

/-! ## §2 Invariants -/

/-- A program keeps an invariant and returns a result with a property. -/
def Yields (I : σ → Prop) (program : StateM σ α) (Q : α → Prop) : Prop :=
  Triple I program fun a s => Q a ∧ I s

/-- A program keeps an invariant. -/
abbrev Keeps (I : σ → Prop) (program : StateM σ α) : Prop := Yields I program fun _ => True

namespace Yields

variable {I : σ → Prop} {program : StateM σ α} {Q R : α → Prop}

theorem mono (h : Yields I program Q) (hQ : ∀ a, Q a → R a) : Yields I program R :=
  fun s hs => ⟨hQ _ (h s hs).1, (h s hs).2⟩

theorem and (hQ : Yields I program Q) (hR : Yields I program R) :
    Yields I program fun a => Q a ∧ R a :=
  fun s hs => ⟨⟨(hQ s hs).1, (hR s hs).1⟩, (hQ s hs).2⟩

theorem pure {a : α} (h : Q a) : Yields I (pure a) Q := fun _ hs => ⟨h, hs⟩

theorem bind {f : α → StateM σ β} {R : β → Prop} (h : Yields I program Q)
    (hf : ∀ a, Q a → Yields I (f a) R) : Yields I (program >>= f) R :=
  fun s hs => hf _ (h s hs).1 _ (h s hs).2

/-- A first part whose result does not matter. -/
theorem seq {f : α → StateM σ β} {R : β → Prop} (h : Keeps I program)
    (hf : ∀ a, Yields I (f a) R) : Yields I (program >>= f) R :=
  h.bind fun a _ => hf a

theorem forM {l : List β} {f : β → StateM σ PUnit} (h : ∀ b ∈ l, Keeps I (f b)) :
    Keeps I (l.forM f) := by
  induction l with
  | nil => exact Yields.pure trivial
  | cons b rest ih =>
    rw [List.forM_eq_forM, List.forM_cons]
    refine (h b List.mem_cons_self).seq fun _ => ih fun b' hb' => h b' (List.mem_cons_of_mem _ hb')

theorem mapM {l : List β} {f : β → StateM σ α} {Q : β → α → Prop}
    (h : ∀ b ∈ l, Yields I (f b) (Q b)) : Yields I (l.mapM f) (List.Forall₂ Q l) := by
  induction l with
  | nil => exact Yields.pure .nil
  | cons b rest ih =>
    rw [List.mapM_cons]
    apply Yields.bind (h b List.mem_cons_self)
    intro a ha
    apply Yields.bind (ih fun b' hb' => h b' (List.mem_cons_of_mem _ hb'))
    intro results hresults
    exact Yields.pure (.cons ha hresults)

end Yields

/-! ## §3 Clocks and Criteria -/

/-- Looking at the clocks keeps an invariant. -/
def KeptByClocks [Timed σ] (I : σ → Prop) : Prop := Keeps I (Timed.read : StateM σ Reading)

section Clocks

variable [Timed σ] {I : σ → Prop}

theorem KeptByClocks.now (h : KeptByClocks I) : Keeps I (Timed.now : StateM σ Duration) :=
  Yields.seq h fun _ => .pure trivial

theorem KeptByClocks.since (h : KeptByClocks I) {start : Duration} :
    Keeps I (Timed.since start : StateM σ Duration) :=
  Yields.seq h.now fun _ => .pure trivial

end Clocks

/-- Asking a criterion keeps an invariant. -/
structure Criterion.KeptBy (c : Criterion σ) (I : σ → Prop) : Prop where
  hasToStop : Keeps I c.hasToStop
  remaining : Keeps I c.remaining

theorem Criterion.keptBy_ofLimit [Timed σ] {I : σ → Prop} (h : KeptByClocks I) (l : Limit) :
    (Criterion.ofLimit l : Criterion σ).KeptBy I where
  hasToStop := Yields.seq h fun _ => .pure trivial
  remaining := Yields.seq h fun _ => .pure trivial

section Tracing

variable {ν : Type}

/-! ## §4 Traces -/

/-- A world with a trace of what was done in it, the oldest entry first. -/
structure Traced (ν σ : Type) where
  world : σ
  trace : List ν

/-- Does something to the world and leaves the trace alone. -/
def offTrace (program : StateM σ α) : StateM (Traced ν σ) α := fun s =>
  ((program s.world).1, ⟨(program s.world).2, s.trace⟩)

/-- Does something to the world and leaves an entry about its result. -/
def onTrace (program : StateM σ α) (entry : α → ν) : StateM (Traced ν σ) α := fun s =>
  ((program s.world).1, ⟨(program s.world).2, s.trace ++ [entry (program s.world).1]⟩)

/-- A program does what `plain` does to the world, and adds entries to the trace that stand in a
relation to its result. -/
def Traces (program : StateM (Traced ν σ) α) (plain : StateM σ α) (Q : α → List ν → Prop) : Prop :=
  ∀ s, ∃ added, program s = ((plain s.world).1, ⟨(plain s.world).2, s.trace ++ added⟩) ∧
    Q (plain s.world).1 added

namespace Traces

variable {program : StateM (Traced ν σ) α} {plain : StateM σ α} {Q R : α → List ν → Prop}

theorem mono (h : Traces program plain Q) (hQ : ∀ a added, Q a added → R a added) :
    Traces program plain R := by
  intro s
  obtain ⟨added, hs, ha⟩ := h s
  exact ⟨added, hs, hQ _ _ ha⟩

theorem pure {a : α} (h : Q a []) : Traces (pure a) (pure a : StateM σ α) Q := by
  intro s
  refine ⟨[], ?_, h⟩
  rw [List.append_nil]
  rfl

theorem bind {f : α → StateM (Traced ν σ) β} {g : α → StateM σ β} {R : β → List ν → Prop}
    (h : Traces program plain Q)
    (hf : ∀ a added, Q a added → Traces (f a) (g a) fun b more => R b (added ++ more)) :
    Traces (program >>= f) (plain >>= g) R := by
  intro s
  obtain ⟨added, hs, ha⟩ := h s
  obtain ⟨more, hs', hb⟩ := hf _ added ha ⟨(plain s.world).2, s.trace ++ added⟩
  refine ⟨added ++ more, ?_, hb⟩
  show f (program s).1 (program s).2 = _
  rw [hs, hs', List.append_assoc]
  rfl

theorem offTrace : Traces (offTrace plain) plain fun _ (added : List ν) => added = [] := by
  intro s
  exact ⟨[], by rw [List.append_nil]; rfl, rfl⟩

theorem onTrace {entry : α → ν} :
    Traces (onTrace plain entry) plain fun a added => added = [entry a] := by
  intro s
  exact ⟨_, rfl, rfl⟩

/-- A first part whose result tells what entries it leaves. -/
theorem seq {f : α → StateM (Traced ν σ) β} {g : α → StateM σ β} {R : β → List ν → Prop}
    {entries : α → List ν} (h : Traces program plain fun a added => added = entries a)
    (hf : ∀ a, Traces (f a) (g a) fun b more => R b (entries a ++ more)) :
    Traces (program >>= f) (plain >>= g) R := by
  refine h.bind fun a added hadded => ?_
  subst hadded
  exact hf a

end Traces

/-! ## §5 Traced Solvers -/

/-- A criterion beside a trace. -/
def Criterion.offTrace (criterion : Criterion σ) : Criterion (Traced ν σ) :=
  ⟨SpectrumPacking.offTrace criterion.hasToStop, SpectrumPacking.offTrace criterion.remaining⟩

/-- The criterion without the trace. -/
def Criterion.plain (criterion : Criterion (Traced ν σ)) : Criterion σ where
  hasToStop := fun s => ((criterion.hasToStop ⟨s, []⟩).1, (criterion.hasToStop ⟨s, []⟩).2.world)
  remaining := fun s => ((criterion.remaining ⟨s, []⟩).1, (criterion.remaining ⟨s, []⟩).2.world)

/-- A solver whose attempts leave an entry each.  What it does within an attempt leaves none. -/
def Solver.traced (solver : Solver σ) (entry : Problem → Nat → SolveResult → ν) :
    Solver (Traced ν σ) where
  solve p criterion seed := onTrace (solver.solve p criterion.plain seed) (entry p seed)
  interrupt := offTrace solver.interrupt
  shutdown := offTrace solver.shutdown

theorem Solver.traces_traced {solver : Solver σ} {entry : Problem → Nat → SolveResult → ν}
    {p : Problem} {criterion : Criterion (Traced ν σ)} {seed : Nat} :
    Traces ((solver.traced entry).solve p criterion seed) (solver.solve p criterion.plain seed)
      fun r added => added = [entry p seed r] :=
  Traces.onTrace

end Tracing

end SpectrumPacking
