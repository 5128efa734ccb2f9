import SpectrumPacking.Proofs.Solve.Programs
import SpectrumPacking.Solve.Neighborhood
import SpectrumPacking.Solve.World

/-!
# What Solvers Ask of an Engine

A book is kept of the jobs that an engine is given and of its answers.  `Books program Q` says that
a program adds entries to the book that stand in the relation `Q` to its result; there is one rule
for each way to put programs together.  Solvers that share an engine are then told apart by what
they add: exact search one entry at most, a certifier that of the solver it calls, a cache none.
-/

namespace SpectrumPacking

variable {σ α β : Type}

/-! ## §1 Books -/

/-- The jobs that an engine was given, each with its answer, the oldest first. -/
abbrev Book := List (Search.Job × Except EngineError Search.Answer)

/-- A world with a book. -/
structure Booked (σ : Type) where
  world : σ
  book : Book

/-- Does something to the world and leaves the book alone. -/
def offBook (program : StateM σ α) : StateM (Booked σ) α := fun s =>
  ((program s.world).1, ⟨(program s.world).2, s.book⟩)

instance [Timed σ] : Timed (Booked σ) := ⟨offBook Timed.read⟩

/-- An engine whose jobs and answers go into the book. -/
def EngineAccess.booked (engine : EngineAccess σ) : EngineAccess (Booked σ) where
  solve job := fun s =>
    let answer := (engine.solve job s.world).1
    (answer, ⟨(engine.solve job s.world).2, s.book ++ [(job, answer)]⟩)
  interrupt := offBook engine.interrupt
  shutdown := offBook engine.shutdown

/-- A cache beside a book. -/
def CacheAccess.booked (cache : CacheAccess σ) : CacheAccess (Booked σ) :=
  ⟨fun p => offBook (cache.prove? p), fun p => offBook (cache.insert p)⟩

/-- A criterion beside a book. -/
def Criterion.booked (criterion : Criterion σ) : Criterion (Booked σ) :=
  ⟨offBook criterion.hasToStop, offBook criterion.remaining⟩

/-- A program adds entries to the book, which stand in a relation to its result. -/
def Books (program : StateM (Booked σ) α) (Q : α → Book → Prop) : Prop :=
  ∀ s, ∃ added, (program s).2.book = s.book ++ added ∧ Q (program s).1 added

/-- A program leaves the book alone. -/
abbrev OffBook (program : StateM (Booked σ) α) : Prop := Books program fun _ added => added = []

namespace Books

variable {program : StateM (Booked σ) α} {Q R : α → Book → Prop}

theorem mono (h : Books program Q) (hQ : ∀ a added, Q a added → R a added) : Books program R := by
  intro s
  obtain ⟨added, hbook, ha⟩ := h s
  exact ⟨added, hbook, hQ _ _ ha⟩

theorem pure {a : α} (h : Q a []) : Books (pure a : StateM (Booked σ) α) Q := fun s =>
  ⟨[], (List.append_nil s.book).symm, h⟩

theorem bind {f : α → StateM (Booked σ) β} {R : β → Book → Prop} (h : Books program Q)
    (hf : ∀ a added, Q a added → Books (f a) fun b more => R b (added ++ more)) :
    Books (program >>= f) R := by
  intro s
  obtain ⟨added, hbook, ha⟩ := h s
  obtain ⟨more, hbook', hb⟩ := hf _ added ha (program s).2
  refine ⟨added ++ more, ?_, hb⟩
  show (f (program s).1 (program s).2).2.book = _
  rw [hbook', hbook, List.append_assoc]

/-- A first part that leaves the book alone. -/
theorem seq {f : α → StateM (Booked σ) β} {R : β → Book → Prop} (h : OffBook program)
    (hf : ∀ a, Books (f a) R) : Books (program >>= f) R := by
  refine h.bind fun a added hadded => ?_
  subst hadded
  exact hf a

theorem offBook {program : StateM σ α} : OffBook (offBook program) := fun s =>
  ⟨[], (List.append_nil s.book).symm, rfl⟩

end Books

/-- A criterion never says stop. -/
def Criterion.NeverStops (criterion : Criterion σ) : Prop :=
  ∀ s, (criterion.hasToStop s).1 = false

theorem Criterion.NeverStops.books {criterion : Criterion σ} (h : criterion.NeverStops) :
    Books criterion.booked.hasToStop fun stop added => stop = false ∧ added = [] := fun s =>
  ⟨[], (List.append_nil s.book).symm, h s.world, rfl⟩

theorem EngineAccess.books_solve {engine : EngineAccess σ} {job : Search.Job} :
    Books (engine.booked.solve job) fun answer added => added = [(job, answer)] := fun _ =>
  ⟨_, rfl, rfl⟩

section Solvers

variable [Timed σ] {x : Interference} {p : Problem} {criterion : Criterion σ} {seed : Nat}

theorem offBook_now : OffBook (Timed.now : StateM (Booked σ) Duration) :=
  Books.offBook.seq fun _ => .pure rfl

theorem offBook_since {start : Duration} :
    OffBook (Timed.since start : StateM (Booked σ) Duration) :=
  offBook_now.seq fun _ => .pure rfl

/-! ## §2 Solvers -/

/-- A result that was had without the engine settles the problem; otherwise the engine was given the
whole problem, and its answer is what counts. -/
def Searched (p : Problem) (x : Interference) (seed : Nat) (r : SolveResult) (added : Book) :
    Prop :=
  (added = [] ∧ r.isConclusive = true) ∨
    ∃ cutoff d answer, added = [(⟨p.encode x, cutoff, seed⟩, answer)] ∧ r = p.resultOf x d answer

theorem Searched.length_le {r : SolveResult} {added : Book} (h : Searched p x seed r added) :
    added.length ≤ 1 := by
  rcases h with ⟨rfl, -⟩ | ⟨cutoff, d, answer, rfl, -⟩
  · exact Nat.zero_le 1
  · exact Nat.le_refl 1

theorem EngineAccess.books_solver {engine : EngineAccess σ} (h : criterion.NeverStops) :
    Books ((engine.booked.solver x).solve p criterion.booked seed) (Searched p x seed) := by
  unfold EngineAccess.solver
  refine .seq offBook_now fun start => ?_
  refine .bind h.books ?_
  rintro stop added ⟨rfl, rfl⟩
  simp only [Bool.false_eq_true, if_false, List.nil_append]
  split
  · exact .seq offBook_since fun d => .pure (Or.inl ⟨rfl, rfl⟩)
  split
  · exact .seq offBook_since fun d => .pure (Or.inl ⟨rfl, rfl⟩)
  refine .seq Books.offBook fun cutoff => ?_
  refine .bind EngineAccess.books_solve ?_
  rintro answer added rfl
  exact .seq offBook_since fun d => .pure (Or.inr ⟨cutoff, d, answer, rfl, rfl⟩)

/-- A solver adds at most so many entries. -/
def Solver.Asks (solver : Solver (Booked σ)) (criterion : Criterion σ) (n : Nat) : Prop :=
  ∀ p seed, Books (solver.solve p criterion.booked seed) fun _ added => added.length ≤ n

theorem EngineAccess.asks_solver {engine : EngineAccess σ} (h : criterion.NeverStops) :
    (engine.booked.solver x).Asks criterion 1 := fun _ _ =>
  (EngineAccess.books_solver h).mono fun _ _ hadded => hadded.length_le

theorem CacheAccess.asks_solver {cache : CacheAccess σ} : cache.booked.solver.Asks criterion 0 := by
  intro p seed
  unfold CacheAccess.solver
  refine .seq offBook_now fun start => ?_
  refine .seq Books.offBook fun key => ?_
  split <;> exact .seq offBook_since fun d => .pure (Nat.le_refl 0)

/-- A certifier adds at most so many entries. -/
def Certifier.Asks (certifier : Certifier (Booked σ)) (criterion : Criterion σ) (n : Nat) : Prop :=
  ∀ p toPack seed, Books (certifier.certify p toPack criterion.booked seed) fun _ added =>
    added.length ≤ n

theorem Certifier.asks_unsat {solver : Solver (Booked σ)} {n : Nat} (h : solver.Asks criterion n) :
    (Certifier.unsat solver).Asks criterion n := by
  intro p toPack seed
  unfold Certifier.unsat
  refine .seq offBook_now fun start => ?_
  refine .seq offBook_since fun prepared => ?_
  refine .bind (h _ seed) fun result added hadded => .pure ?_
  rw [List.append_nil]
  exact hadded

theorem Certifier.asks_sat {solver : Solver (Booked σ)} {n : Nat} (h : solver.Asks criterion n) :
    (Certifier.sat x solver).Asks criterion n := by
  intro p toPack seed
  unfold Certifier.sat
  refine .seq offBook_now fun start => ?_
  dsimp only
  split
  · exact .seq offBook_since fun d => .pure (Nat.zero_le n)
  refine .seq offBook_since fun prepared => ?_
  refine .bind (h _ seed) fun result added hadded => ?_
  split
  · exact .pure (by rw [List.append_nil]; exact hadded)
  split
  · exact .pure (by rw [List.append_nil]; exact hadded)
  · exact .seq offBook_since fun d => .pure (by rw [List.append_nil]; exact hadded)

theorem asks_tryCertifiers {certifiers : List (Certifier (Booked σ))} (hstop : criterion.NeverStops)
    (h : ∀ c ∈ certifiers, c.Asks criterion 1) {toPack : SortedSet StationId} :
    Books (tryCertifiers p toPack criterion.booked seed certifiers) fun _ added =>
      added.length ≤ certifiers.length := by
  induction certifiers with
  | nil => exact .pure (Nat.le_refl 0)
  | cons c rest ih =>
    unfold tryCertifiers
    refine .bind hstop.books ?_
    -- the criterion never stops, so the certifier is asked, and is given one entry
    rintro stop added ⟨rfl, rfl⟩
    simp only [Bool.false_eq_true, if_false, List.nil_append]
    refine .seq offBook_now fun start => ?_
    refine .bind (h c List.mem_cons_self p toPack seed) fun result added hadded => ?_
    refine .seq offBook_since fun spent => ?_
    split
    · refine .pure ?_
      rw [List.append_nil, List.length_cons]
      omega
    · refine .bind (ih fun c' hc' => h c' (List.mem_cons_of_mem _ hc')) ?_
      rintro ⟨results, more⟩ added' hadded'
      refine .pure ?_
      rw [List.append_nil, List.length_append, List.length_cons]
      omega

theorem asks_presolver {certifiers : List (Certifier (Booked σ))} (hstop : criterion.NeverStops)
    (h : ∀ c ∈ certifiers, c.Asks criterion 1) {bounds : NeighborhoodBounds} :
    (presolver x certifiers bounds).Asks criterion certifiers.length := by
  intro p seed
  unfold presolver
  refine .seq offBook_now fun start => ?_
  dsimp only
  split
  · exact .seq offBook_since fun d => .pure (Nat.zero_le _)
  refine .bind (asks_tryCertifiers hstop h) ?_
  rintro ⟨results, certifying⟩ added hadded
  exact .seq offBook_since fun total => .pure (by rw [List.append_nil]; exact hadded)

end Solvers

end SpectrumPacking
