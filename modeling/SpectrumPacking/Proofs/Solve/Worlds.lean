import SpectrumPacking.Proofs.Search.Sessions
import SpectrumPacking.Proofs.Solve.Soundness
import SpectrumPacking.Service.Bundle

/-!
# Engines and Caches of a World

A world is in order when its engines are what they should be, and each cache that belongs to some
interference holds only problems that have no packing under it (`World.InOrder`).  Access to a
cache of such a world is sound and leaves it in order, and so does access to an engine if all
engines are runs of engines from which they should come.
-/

namespace SpectrumPacking

variable {ε σ α : Type}

/-! ## §1 States with a World -/

/-- A program that leaves the engines and the caches alone. -/
def LeavesWorld [HasWorld ε σ] (program : StateM σ α) : Prop :=
  ∀ s, (HasWorld.world (program s).2).engines = (HasWorld.world s).engines ∧
    (HasWorld.world (program s).2).caches = (HasWorld.world s).caches

/-- A state keeps the world that is put into it, and looking at its clocks leaves engines and
caches alone.  What clocks show may be anything. -/
class LawfulWorld (ε σ : Type) [HasWorld ε σ] [Timed σ] : Prop where
  world_withWorld : ∀ (s : σ) (w : World ε), HasWorld.world (HasWorld.withWorld s w) = w
  read : LeavesWorld (Timed.read : StateM σ Reading)

instance : LawfulWorld ε (World ε) where
  world_withWorld _ _ := rfl
  read _ := ⟨rfl, rfl⟩

/-- What is said of the world of a state. -/
def Inside [HasWorld ε σ] (P : World ε → Prop) (s : σ) : Prop := P (HasWorld.world s)

section Inside

variable [HasWorld ε σ] [Timed σ] [LawfulWorld ε σ] {P : World ε → Prop}

theorem yields_inside {f : StateM (World ε) α} {Q : α → Prop} (h : Yields P f Q) :
    Yields (Inside P) (HasWorld.inside f : StateM σ α) Q := by
  intro s hs
  obtain ⟨hQ, hP⟩ := h (HasWorld.world s) hs
  refine ⟨hQ, ?_⟩
  show P (HasWorld.world (HasWorld.withWorld s (f (HasWorld.world s)).2))
  rw [LawfulWorld.world_withWorld]
  exact hP

end Inside

/-! ## §2 Worlds in Order -/

namespace World

/-- The engines of a world are as `A` asks, and its caches belong to the listed interferences, if to
any: if `U` holds, there are only problems in them that have no packing under theirs. -/
structure InOrder (A : List (Session ε) → Prop) (owners : List (Option Interference)) (U : Prop)
    (w : World ε) : Prop where
  engines : A w.engines
  owned : w.caches.length = owners.length
  cache : ∀ i x, owners[i]? = some (some x) → U → ∀ e ∈ (w.cache i).entries, ¬ e.2.Packable x

variable {A : List (Session ε) → Prop} {owners : List (Option Interference)} {U : Prop}
  {w w' : World ε} {x : Interference}

theorem InOrder.of_eq (hw : w.InOrder A owners U) (hengines : w'.engines = w.engines)
    (hcaches : w'.caches = w.caches) : w'.InOrder A owners U := by
  refine ⟨by rw [hengines]; exact hw.engines, by rw [hcaches]; exact hw.owned, ?_⟩
  intro i x hi hU
  have hcache : w'.cache i = w.cache i := by rw [World.cache, World.cache, hcaches]
  rw [hcache]
  exact hw.cache i x hi hU

theorem yields_prove? {i : Nat} (hx : owners[i]? = some (some x)) (p : Problem) :
    Yields (InOrder A owners U) (fun w : World ε => ((w.cache i).prove? p, w)) fun o =>
      U → ∀ key, o = some key → ¬ p.Packable x := by
  intro w hw
  refine ⟨?_, hw⟩
  intro hU key hkey
  obtain ⟨e, he, -⟩ := Option.map_eq_some_iff.1 hkey
  have hmem := List.mem_of_find?_eq_some he
  have hproves : e.2.provesUnsat p = true := by simpa using List.find?_some he
  exact Problem.not_packable_of_provesUnsat hproves (hw.cache i x hx hU e hmem)

theorem entries_insert {c : UnsatCache} {p : Problem} {e : String × Problem}
    (h : e ∈ (c.insert p).entries) : e ∈ c.entries ∨ e.2 = p := by
  unfold UnsatCache.insert at h
  split at h
  · exact Or.inl h
  · rcases List.mem_append.1 h with h | h
    · exact Or.inl h
    · rw [List.mem_singleton.1 h]
      exact Or.inr rfl

/-- What is in a cache after an insertion was there before, or was inserted into this cache. -/
theorem entries_cache_modify {i j : Nat} {p : Problem} {e : String × Problem}
    (h : e ∈ (World.cache { w with caches := w.caches.modify i (·.insert p) } j).entries) :
    e ∈ (w.cache j).entries ∨ (i = j ∧ e.2 = p) := by
  unfold World.cache at h ⊢
  rw [List.getD_eq_getElem?_getD, List.getElem?_modify] at h
  rw [List.getD_eq_getElem?_getD]
  cases hj : w.caches[j]? with
  | none =>
    rw [hj] at h
    exact Or.inl h
  | some c =>
    rw [hj, Option.map_eq_map, Option.map_some, Option.getD_some] at h
    by_cases hij : i = j
    · rw [if_pos hij] at h
      exact (entries_insert h).imp_right fun he => ⟨hij, he⟩
    · rw [if_neg hij] at h
      exact Or.inl h

theorem keeps_insert {i : Nat} (hx : owners[i]? = some (some x)) {p : Problem}
    (hp : U → ¬ p.Packable x) :
    Keeps (InOrder A owners U) fun w : World ε =>
      ((), { w with caches := w.caches.modify i (·.insert p) }) := by
  intro w hw
  refine ⟨trivial, hw.engines, ?_, ?_⟩
  · rw [List.length_modify]
    exact hw.owned
  · intro j y hj hU e he
    rcases entries_cache_modify he with hold | ⟨rfl, rfl⟩
    · exact hw.cache j y hj hU e hold
    · rw [hx] at hj
      cases hj
      exact hp hU

section Caches

variable [HasWorld ε σ] [Timed σ] [LawfulWorld ε σ] {T : Terms σ}

theorem sound_cacheAccess (hinvariant : T.invariant = Inside (InOrder A owners U))
    (hU : T.trusts = U) {i : Nat} (hx : owners[i]? = some (some x)) :
    (cacheAccess i : CacheAccess σ).Sound T x := by
  refine ⟨?_, ?_⟩
  · intro p
    rw [hinvariant, hU]
    exact yields_inside (yields_prove? hx p)
  · intro p hp
    rw [hinvariant]
    rw [hU] at hp
    exact yields_inside (keeps_insert hx hp)

omit [Timed σ] [LawfulWorld ε σ] in
theorem inOrder_of_leavesWorld {program : StateM σ α} (h : LeavesWorld program) :
    Keeps (Inside (InOrder A owners U)) program :=
  fun s hs => ⟨trivial, InOrder.of_eq hs (h s).1 (h s).2⟩

theorem keptByClocks : KeptByClocks (Inside (InOrder A owners U) : σ → Prop) :=
  inOrder_of_leavesWorld LawfulWorld.read

/-- A new cache belongs to any interference, since it is empty. -/
theorem inOrder_addCache :
    Triple (Inside (InOrder A owners U)) (addCache : StateM σ (CacheAccess σ)) fun cache s =>
      cache = cacheAccess owners.length ∧ Inside (InOrder A (owners ++ [some x]) U) s := by
  intro s hs
  refine ⟨congrArg cacheAccess hs.owned, ?_⟩
  unfold Inside addCache
  rw [LawfulWorld.world_withWorld]
  refine ⟨hs.engines, by simp [hs.owned], ?_⟩
  intro j y hj u e he
  unfold World.cache at he
  rw [List.getD_eq_getElem?_getD] at he
  rcases Nat.lt_or_ge j owners.length with hlt | hge
  · rw [List.getElem?_append_left (by omega)] at hj
    rw [List.getElem?_append_left (by rw [hs.owned]; exact hlt)] at he
    refine hs.cache j y hj u e ?_
    unfold World.cache
    rw [List.getD_eq_getElem?_getD]
    exact he
  · -- nothing is in the new cache, nor in one that was not set up
    rw [List.getElem?_append_right (by rw [hs.owned]; exact hge)] at he
    cases hk : j - (HasWorld.world s).caches.length with
    | zero =>
      rw [hk] at he
      cases he
    | succ k =>
      rw [hk] at he
      cases he

end Caches

/-! ## §3 Engines -/

/-- Using an engine leaves the world in order if it leaves the engines as they should be. -/
theorem yields_useEngine {i : Nat} {missing : α} {f : Session ε → α × Session ε} {Q : α → Prop}
    (hmissing : ∀ l, A l → l[i]? = none → Q missing)
    (hf : ∀ (l : List (Session ε)) s clock, A l → l[i]? = some s →
      Q (f { s with clock := clock }).1 ∧ A (l.set i (f { s with clock := clock }).2)) :
    Yields (InOrder A owners U) (useEngine i missing f) Q := by
  intro w hw
  unfold useEngine
  split
  · rename_i hs
    exact ⟨hmissing _ hw.engines hs, hw⟩
  · rename_i s hs
    obtain ⟨hQ, hA⟩ := hf w.engines s w.clock.wall.nanos hw.engines hs
    exact ⟨hQ, hA, hw.owned, hw.cache⟩

section Engines

variable [SearchEngine ε] [HasWorld ε σ] [Timed σ] [LawfulWorld ε σ]

/-- Putting an engine to work leaves a world in order if the engines are as they should be with the
new one at its place. -/
theorem inOrder_addEngine {B : Nat → List (Session ε) → Prop} {e₀ : ε} {seed : Nat}
    {grace : Duration}
    (h : ∀ l clock, A l → B l.length (l ++ [Session.start e₀ seed grace clock])) :
    Triple (Inside (InOrder A owners U)) (addEngine e₀ seed grace : StateM σ (EngineAccess σ))
      fun engine s => ∃ i, engine = engineAccess i ∧ Inside (InOrder (B i) owners U) s := by
  intro s hs
  refine ⟨_, rfl, ?_⟩
  unfold Inside addEngine
  rw [LawfulWorld.world_withWorld]
  exact ⟨h _ _ hs.engines, hs.owned, hs.cache⟩

end Engines

end World

/-! ## §4 Engines That Are Runs -/

/-- An engine says UNSAT only of formulas without a model. -/
def UnsatCorrect [SearchEngine ε] (e₀ : ε) : Prop :=
  ∀ job : Search.Job, job.formula.IsWellFormed → Concludes e₀ job .unsat →
    ¬ job.formula.Satisfiable

section Runs

variable [SearchEngine ε] {E : ε → Prop} {owners : List (Option Interference)} {U : Prop}

/-- All engines at work began as one of some engines. -/
def AreRunsOf (E : ε → Prop) (l : List (Session ε)) : Prop :=
  ∀ s ∈ l, ∃ e₀, E e₀ ∧ s.IsRunOf e₀

theorem AreRunsOf.append {l : List (Session ε)} (h : AreRunsOf E l) {e₀ : ε} (he₀ : E e₀)
    {s : Session ε} (hs : s.IsRunOf e₀) : AreRunsOf E (l ++ [s]) := by
  intro s' hs'
  rcases List.mem_append.1 hs' with hs' | hs'
  · exact h s' hs'
  · rw [List.mem_singleton.1 hs']
    exact ⟨e₀, he₀, hs⟩

theorem AreRunsOf.set {l : List (Session ε)} (h : AreRunsOf E l) {i : Nat} {e₀ : ε} (he₀ : E e₀)
    {s : Session ε} (hs : s.IsRunOf e₀) : AreRunsOf E (l.set i s) := by
  intro s' hs'
  rcases List.mem_or_eq_of_mem_set hs' with hs' | rfl
  · exact h s' hs'
  · exact ⟨e₀, he₀, hs⟩

variable [HasWorld ε σ] [Timed σ] [LawfulWorld ε σ]

/-- Solvers may be used with any seed and any criterion that leaves the world in order. -/
def World.freeTerms (E : ε → Prop) (owners : List (Option Interference)) (U : Prop) : Terms σ where
  invariant := Inside (World.InOrder (AreRunsOf E) owners U)
  trusts := U
  allowsJob _ := True
  allowsCall criterion _ := criterion.KeptBy (Inside (World.InOrder (AreRunsOf E) owners U))
  clocks := World.keptByClocks
  hasToStop h := h.hasToStop
  remaining h := h.remaining.mono fun _ _ _ _ => trivial

/-- An engine of a world in order is as right as the engines that it may have begun as. -/
theorem World.sound_engineAccess {i : Nat} (hU : U → ∀ e₀, E e₀ → UnsatCorrect e₀) :
    (World.engineAccess i : EngineAccess σ).Sound (World.freeTerms E owners U) := by
  intro job _
  have huse : Yields (World.InOrder (AreRunsOf E) owners U)
      (World.useEngine i (.error .workerTerminated) fun s : Session ε => s.solve job none)
      fun r => ∀ a, r = .ok a → U → job.formula.IsWellFormed → a.verdict = .unsat →
        ¬ job.formula.Satisfiable := by
    apply World.yields_useEngine
    · nofun
    · intro l s clock hl hs
      obtain ⟨e₀, he₀, hrun⟩ := hl s (List.mem_of_getElem? hs)
      have hrun : Session.IsRunOf e₀ { s with clock := clock } := hrun
      refine ⟨?_, hl.set he₀ hrun.solve⟩
      intro a ha u hformula hv
      exact hU u e₀ he₀ job hformula ((Session.concludes_of_solve hrun ha).2 hv)
  exact yields_inside huse

end Runs

end SpectrumPacking
