import SpectrumPacking.Proofs.Solve.Conclusions
import SpectrumPacking.Proofs.Solve.Worlds

/-!
# Bundles and Their Worlds

A bundle is built around an engine and a cache of the world that nobody else has
(`Bundle.inOrder_build`).  Its pipeline is as sound as the engine, and settles every problem if
exact search does.  A bundle stays sound while the world stays in order, whatever engines and caches
other bundles add (`Bundle.sound_build`).
-/

namespace SpectrumPacking

variable {ε σ : Type}

/-! ## §1 Pipelines -/

section Pipelines

variable [Timed σ] {T : Terms σ} {x : Interference} {exact : Solver σ}
  {cache : Option (CacheAccess σ × Bool)} {options : BundleOptions}

theorem Bundle.sound_stages (hexact : exact.Sound T x) (hcache : ∀ c ∈ cache, c.1.Sound T x) :
    ∀ stage ∈ (pipeline options x exact cache).stages, stage.solver.Sound T x := by
  intro stage hstage
  simp only [pipeline, List.mem_append, List.mem_singleton, Option.mem_toList] at hstage
  rcases hstage with (hstage | hstage) | rfl
  · split at hstage
    · rw [List.mem_singleton.1 hstage]
      -- both certifiers ask the exact solver about smaller problems
      apply sound_presolver
      intro c hc
      rcases List.mem_cons.1 hc with rfl | hc
      · exact Certifier.sound_unsat hexact
      · rw [List.mem_singleton.1 hc]
        exact Certifier.sound_sat hexact
    · cases hstage
  · obtain ⟨c, hc, rfl⟩ := Option.map_eq_some_iff.1 hstage
    exact CacheAccess.sound_solver (hcache c hc)
  · exact hexact

theorem Bundle.sound_learner (hcache : ∀ c ∈ cache, c.1.Sound T x) :
    ∀ learner ∈ (pipeline options x exact cache).learner, learner.Sound T x := by
  intro learner hlearner
  obtain ⟨c, hc, hlearns⟩ := Option.bind_eq_some_iff.1 hlearner
  split at hlearns
  · cases hlearns
    exact hcache c hc
  · cases hlearns

/-- A pipeline over a sound solver and a sound cache is sound. -/
theorem Bundle.sound_pipeline (hexact : exact.Sound T x) (hcache : ∀ c ∈ cache, c.1.Sound T x) :
    (pipeline options x exact cache).solver.Sound T x :=
  Pipeline.sound_solver (sound_stages hexact hcache) (sound_learner hcache)

/-- Exact search comes last, so a pipeline settles what exact search settles. -/
theorem Bundle.settles_pipeline (hexact : exact.Sound T x) (hcache : ∀ c ∈ cache, c.1.Sound T x)
    (hsettles : exact.Settles T) (hT : T.NeverStop) :
    (pipeline options x exact cache).solver.Settles T := by
  have hlast : (⟨"exact", exact⟩ : Stage σ).solver.Settles T := hsettles
  exact Pipeline.settles_solver rfl (sound_stages hexact hcache) hlast (sound_learner hcache) hT

end Pipelines

/-! ## §2 Building -/

/-- A plan that lets no two bundles share a cache. -/
def CachePlan.IsPrivate (plan : CachePlan σ) : Prop :=
  ∀ cache learns, plan ≠ .shared cache learns

variable [SearchEngine ε] [HasWorld ε σ] [Timed σ] [LawfulWorld ε σ] [ConfiguredEngine ε]
  {A : List (Session ε) → Prop} {B : Nat → List (Session ε) → Prop} {E : ε → Prop}
  {owners owners' : List (Option Interference)} {U : Prop} {x : Interference}
  {plan : CachePlan σ} {options : BundleOptions} {dataset : Dataset}

/-- The cache that a plan provides belongs to the interference that it is meant for. -/
theorem Bundle.inOrder_cacheOf (hplan : plan.IsPrivate) :
    Triple (Inside (World.InOrder A owners U)) (cacheOf plan) fun cache s =>
      ∃ owners', owners <+: owners' ∧ Inside (World.InOrder A owners' U) s ∧
        ∀ c ∈ cache, ∃ i, c.1 = World.cacheAccess i ∧ owners'[i]? = some (some x) := by
  cases plan with
  | disabled => exact .pure fun s hs => ⟨owners, List.prefix_refl _, hs, nofun⟩
  | shared cache learns => exact absurd rfl (hplan cache learns)
  | own learns =>
    refine .bind (World.inOrder_addCache (x := x)) fun cache => .pure ?_
    rintro s ⟨rfl, hs⟩
    refine ⟨owners ++ [some x], List.prefix_append _ _, hs, ?_⟩
    rintro _ ⟨⟩
    exact ⟨owners.length, rfl, by simp⟩

/-- An engine is put to work unless there is none with the configuration. -/
theorem Bundle.inOrder_addEngine {config : String} {seed : Nat} {grace : Duration}
    (h : ∀ e₀ : ε, ConfiguredEngine.ofConfig? config = .ok e₀ →
      ∀ l clock, A l → B l.length (l ++ [Session.start e₀ seed grace clock])) :
    Triple (Inside (World.InOrder A owners U))
      (Host.addEngine config seed grace : StateM σ (Except EngineError (EngineAccess σ)))
      fun r s =>
        (∃ e, r = .error e ∧ (ConfiguredEngine.ofConfig? config : Except EngineError ε) = .error e ∧
          Inside (World.InOrder A owners U) s) ∨
        ∃ i, r = .ok (World.engineAccess i) ∧ Inside (World.InOrder (B i) owners U) s := by
  dsimp only [Host.addEngine]
  split
  · rename_i e hconfig
    exact .pure fun s hs => Or.inl ⟨e, rfl, hconfig, hs⟩
  · rename_i e₀ hconfig
    -- the new engine is put behind the others
    have hadd : Triple (Inside (World.InOrder A owners U))
        (World.addEngine e₀ seed grace : StateM σ (EngineAccess σ)) _ :=
      World.inOrder_addEngine (h e₀ hconfig)
    refine hadd.bind fun access => .pure ?_
    rintro s ⟨i, rfl, hs⟩
    exact Or.inr ⟨i, rfl, hs⟩

/-- A bundle is the pipeline of a dataset over the engine at a place, and over a cache that belongs
to the interference of the dataset, if there is a cache. -/
def Bundle.IsOver (b : Bundle σ) (options : BundleOptions) (dataset : Dataset) (i : Nat)
    (owners : List (Option Interference)) : Prop :=
  ∃ cache, (∀ c ∈ cache, ∃ j, c.1 = World.cacheAccess j ∧
      owners[j]? = some (some dataset.interference)) ∧
    b = ⟨dataset, (pipeline options dataset.interference
      ((World.engineAccess i).solver dataset.interference) cache).solver⟩

/-- Building a bundle puts an engine to work and adds at most one cache to a world in order. -/
theorem Bundle.inOrder_build (hplan : plan.IsPrivate)
    (h : ∀ e₀ : ε, ConfiguredEngine.ofConfig? options.engine = .ok e₀ → ∀ l clock, A l →
      B l.length (l ++ [Session.start e₀ options.seed options.grace clock])) :
    Triple (Inside (World.InOrder A owners U)) (build options plan dataset) fun r s =>
      (∃ e, r = .error (.engine e) ∧
        (ConfiguredEngine.ofConfig? options.engine : Except EngineError ε) = .error e ∧
          Inside (World.InOrder A owners U) s) ∨
      ∃ b i owners', r = .ok b ∧ b.IsOver options dataset i owners' ∧ owners <+: owners' ∧
        Inside (World.InOrder (B i) owners' U) s := by
  unfold build
  refine (inOrder_addEngine h).bind fun added => ?_
  rintro s (⟨e, rfl, hconfig, hs⟩ | ⟨i, rfl, hs⟩)
  · exact Or.inl ⟨e, rfl, hconfig, hs⟩
  · obtain ⟨owners', howners, hs', hcache⟩ :=
      inOrder_cacheOf hplan (x := dataset.interference) s hs
    exact Or.inr ⟨_, i, owners', rfl, ⟨_, hcache, rfl⟩, howners, hs'⟩

/-! ## §3 Built Bundles -/

section Built

variable {T : Terms σ} {b : Bundle σ} {i : Nat}

omit [SearchEngine ε] [ConfiguredEngine ε] in
theorem Bundle.sound_cache (hinvariant : T.invariant = Inside (World.InOrder A owners' U))
    (hU : T.trusts = U) (howners : owners <+: owners') {c : CacheAccess σ}
    (hc : ∃ j, c = World.cacheAccess j ∧ owners[j]? = some (some x)) : c.Sound T x := by
  obtain ⟨j, rfl, hx⟩ := hc
  apply World.sound_cacheAccess hinvariant hU
  -- the caches that were there when the bundle was built are still there
  obtain ⟨rest, rfl⟩ := howners
  rw [List.getElem?_append_left (List.getElem?_eq_some_iff.1 hx).1]
  exact hx

omit [ConfiguredEngine ε] in
theorem Bundle.IsOver.sound (hb : b.IsOver options dataset i owners) (howners : owners <+: owners')
    (hinvariant : T.invariant = Inside (World.InOrder A owners' U)) (hU : T.trusts = U)
    (hengine : (World.engineAccess i : EngineAccess σ).Sound T) :
    b.solver.Sound T dataset.interference := by
  obtain ⟨cache, hcache, rfl⟩ := hb
  apply sound_pipeline (EngineAccess.sound_solver hengine)
  intro c hc
  exact sound_cache hinvariant hU howners (hcache c hc)

omit [ConfiguredEngine ε] in
theorem Bundle.IsOver.settles (hb : b.IsOver options dataset i owners)
    (howners : owners <+: owners')
    (hinvariant : T.invariant = Inside (World.InOrder A owners' U)) (hU : T.trusts = U)
    (hengine : (World.engineAccess i : EngineAccess σ).Sound T)
    (hdecides : (World.engineAccess i : EngineAccess σ).Decides T) (hT : T.NeverStop) :
    b.solver.Settles T := by
  obtain ⟨cache, hcache, rfl⟩ := hb
  apply settles_pipeline (EngineAccess.sound_solver hengine) _
    (EngineAccess.settles_solver hdecides hT) hT
  intro c hc
  exact sound_cache hinvariant hU howners (hcache c hc)

end Built

/-- A bundle is sound in worlds in order that have at least the listed caches. -/
def Bundle.Sound (b : Bundle σ) (E : ε → Prop) (owners : List (Option Interference)) (U : Prop) :
    Prop :=
  ∀ owners', owners <+: owners' →
    b.solver.Sound (World.freeTerms E owners' U) b.dataset.interference

omit [ConfiguredEngine ε] in
theorem Bundle.Sound.mono {b : Bundle σ} (h : b.Sound E owners U) (howners : owners <+: owners') :
    b.Sound E owners' U :=
  fun owners'' h' => h owners'' (howners.trans h')

/-- Building a bundle adds at most one cache to a world in order, and the bundle is sound. -/
theorem Bundle.sound_build (options : BundleOptions) (dataset : Dataset)
    (hE : ∀ e₀ : ε, ConfiguredEngine.ofConfig? options.engine = .ok e₀ → E e₀)
    (hU : U → ∀ e₀, E e₀ → UnsatCorrect e₀) (hplan : plan.IsPrivate) :
    Triple (Inside (World.InOrder (AreRunsOf E) owners U)) (build options plan dataset) fun r s =>
      ∃ owners', owners <+: owners' ∧ Inside (World.InOrder (AreRunsOf E) owners' U) s ∧
        ∀ b, r = .ok b → b.dataset = dataset ∧ b.Sound E owners' U := by
  -- a new engine is at the start of its run
  have hnew : ∀ e₀ : ε, ConfiguredEngine.ofConfig? options.engine = .ok e₀ → ∀ l clock,
      AreRunsOf E l → AreRunsOf E (l ++ [Session.start e₀ options.seed options.grace clock]) := by
    intro e₀ hconfig l clock hl
    exact hl.append (hE e₀ hconfig) Session.isRunOf_start
  have hbuild : Triple (Inside (World.InOrder (AreRunsOf E) owners U))
      (build options plan dataset) _ := inOrder_build (B := fun _ => AreRunsOf E) hplan hnew
  refine hbuild.mono (fun _ hs => hs) fun r s => ?_
  rintro (⟨e, rfl, -, hs⟩ | ⟨b, i, owners', rfl, hb, howners, hs⟩)
  · exact ⟨owners, List.prefix_refl _, hs, nofun⟩
  · refine ⟨owners', howners, hs, ?_⟩
    rintro _ ⟨⟩
    have hdataset : b.dataset = dataset := by
      obtain ⟨cache, -, rfl⟩ := hb
      rfl
    refine ⟨hdataset, ?_⟩
    intro owners'' h'
    rw [hdataset]
    exact hb.sound h' rfl rfl (World.sound_engineAccess hU)

end SpectrumPacking
