import SpectrumPacking.Proofs.Service.Bundles
import SpectrumPacking.Proofs.Service.Requests
import SpectrumPacking.Proofs.Solve.Deciders
import SpectrumPacking.Settings.Basic

/-!
# Histories of Requests

Requests are answered one after another by bundles that are built when they are first asked for.
Whatever came before, an answer says nothing wrong of its request (`Settings.sound_answerAll`).
What carries over from one request to the next are the engines and the caches in the world and the
bundles of the manager; the invariant is that the world is in order and that every bundle is sound
in every such world in which the caches that it knows are the same (`Manager.Serves`).
-/

namespace SpectrumPacking

variable {ε σ : Type}

/-! ## §1 Sound Outcomes -/

/-- What an outcome says of a request over a dataset is right.  That there is no packing is right
under `U`. -/
structure Outcome.Sound (o : Outcome) (U : Prop) (r : Request) (d : Dataset) : Prop where
  sat : o.verdict = .sat → r.IsPacking d o.witness
  unsat : U → o.verdict = .unsat → ¬ ∃ m, r.IsPacking d m

/-- What an outcome says of a request is right: over the dataset that the manager got from the
loader and keeps for the key of the request, or over any dataset if no station is requested. -/
structure Outcome.SoundFor (o : Outcome) (U : Prop)
    (load : String → StateM σ (Except DataError Dataset)) (g : Manager (Bundle σ)) (r : Request) :
    Prop where
  empty : r.stations.isEmpty = true → ∀ d, o.Sound U r d
  kept : r.stations.isEmpty = false → ∃ b, g.bundles.get? r.dataset = some b ∧
    (∃ s, (load r.dataset s).1 = .ok b.dataset) ∧ o.Sound U r b.dataset

theorem Request.isPacking_empty {r : Request} (h : r.stations.isEmpty = true) {d : Dataset} :
    r.IsPacking d SortedMap.empty := by
  have hon : ∀ s c, ¬ Placement.On SortedMap.empty s c := by
    intro s c hc
    rw [Placement.On, SortedMap.get?_empty] at hc
    cases hc
  refine ⟨?_, fun s c hc => absurd hc (hon s c), fun s _ c hc => absurd hc (hon s c),
    fun s _ c hc => absurd hc (hon s c)⟩
  intro s hs
  rw [SortedSet.isEmpty_iff.1 h] at hs
  exact absurd hs SortedSet.not_mem_empty

theorem Outcome.sound_empty {r : Request} (h : r.stations.isEmpty = true) {U : Prop}
    {seconds : Binary64} {d : Dataset} : (Outcome.mk .sat seconds SortedMap.empty).Sound U r d :=
  ⟨fun _ => Request.isPacking_empty h, nofun⟩

theorem Outcome.sound_of_result {r : Request} {d : Dataset} {p : Problem} {result : SolveResult}
    {U : Prop} (hp : r.problem d.domains = .ok p) (h : result.Sound U p d.interference)
    {seconds : Binary64} :
    (Outcome.mk result.verdict seconds result.assignment.placement).Sound U r d := by
  refine ⟨fun hv => Request.isPacking_placement hp (h.sat hv), ?_⟩
  rintro hU hv ⟨m, hm⟩
  apply h.unsat hU hv
  exact ((Request.isPacking_iff hp).1 hm).packable

/-! ## §2 Managers -/

/-- The engines that settings ask for are among some engines, which are right under `U`, and loading
a dataset leaves engines and caches alone. -/
structure Settings.Admits [SearchEngine ε] [HasWorld ε σ] [ConfiguredEngine ε] (settings : Settings)
    (load : String → StateM σ (Except DataError Dataset)) (E : ε → Prop) (U : Prop) : Prop where
  builds : ∀ e₀, ConfiguredEngine.ofConfig? settings.engine = .ok e₀ → E e₀
  correct : U → ∀ e₀, E e₀ → UnsatCorrect e₀
  loads : ∀ key, LeavesWorld (load key)

theorem Settings.isPrivate_cachePlan {settings : Settings} :
    (settings.cachePlan : CachePlan σ).IsPrivate := by
  intro cache learns
  unfold cachePlan
  split <;> nofun

namespace Manager

variable {g g' g'' : Manager (Bundle σ)}

/-- A manager has the bundles that another one has. -/
def Extends (g g' : Manager (Bundle σ)) : Prop :=
  ∀ key b, g.bundles.get? key = some b → g'.bundles.get? key = some b

theorem Extends.refl : g.Extends g := fun _ _ h => h

theorem Extends.trans (h : g.Extends g') (h' : g'.Extends g'') : g.Extends g'' :=
  fun key b hb => h' key b (h key b hb)

theorem extends_insert {key : String} (h : g.has key = false) {b : Bundle σ} :
    g.Extends ⟨g.bundles.insert key b⟩ := by
  intro key' b' hb'
  rw [SortedMap.get?_insert]
  split
  · rename_i heq
    subst heq
    rw [has, SortedMap.contains_iff.2 ⟨b', hb'⟩] at h
    cases h
  · exact hb'

variable [SearchEngine ε] [HasWorld ε σ] [Timed σ] [LawfulWorld ε σ] {E : ε → Prop} {U : Prop}
  {load : String → StateM σ (Except DataError Dataset)}

/-- A manager at work in a state: the world is in order, and every bundle is sound and is that of a
dataset which was loaded for its key. -/
def Serves (g : Manager (Bundle σ)) (load : String → StateM σ (Except DataError Dataset))
    (E : ε → Prop) (U : Prop) (s : σ) : Prop :=
  ∃ owners, Inside (World.InOrder (AreRunsOf E) owners U) s ∧
    ∀ key b, g.bundles.get? key = some b →
      (∃ s₀, (load key s₀).1 = .ok b.dataset) ∧ b.Sound E owners U

variable [ConfiguredEngine ε] {settings : Settings} {key : String}

/-- A bundle that was made can be kept. -/
theorem serves_make (hsettings : settings.Admits load E U) :
    Triple (g.Serves load E U) (make (settings.bundleSource load) key) fun made s =>
      g.Serves load E U s ∧
        ∀ b, made = .ok b → Serves ⟨g.bundles.insert key b⟩ load E U s := by
  have hloading : Triple (g.Serves load E U) (load key) fun loaded s =>
      g.Serves load E U s ∧ ∀ dataset, loaded = .ok dataset →
        ∃ s₀, (load key s₀).1 = .ok dataset := by
    rintro s ⟨owners, hs, hbundles⟩
    obtain ⟨hengines, hcaches⟩ := hsettings.loads key s
    exact ⟨⟨owners, World.InOrder.of_eq hs hengines hcaches, hbundles⟩, fun _ h => ⟨s, h⟩⟩
  refine hloading.bind fun loaded => ?_
  split
  · exact .pure fun s hs => ⟨hs.1, by rintro _ ⟨⟩⟩
  · rename_i dataset
    rintro s ⟨⟨owners, hs, hbundles⟩, hloaded⟩
    obtain ⟨owners', howners, hs', hbuilt⟩ :=
      Bundle.sound_build settings.bundleOptions dataset hsettings.builds hsettings.correct
        Settings.isPrivate_cachePlan s hs
    -- the bundles that were there are sound with one more cache, too
    have hkept : ∀ key b, g.bundles.get? key = some b →
        (∃ s₀, (load key s₀).1 = .ok b.dataset) ∧ b.Sound E owners' U :=
      fun key b hb => (hbundles key b hb).imp_right fun h => h.mono howners
    refine ⟨⟨owners', hs', hkept⟩, ?_⟩
    intro b hb
    obtain ⟨hdataset, hsound⟩ := hbuilt b hb
    refine ⟨owners', hs', ?_⟩
    intro key' b' hb'
    rw [SortedMap.get?_insert] at hb'
    split at hb'
    · rename_i heq
      subst heq
      cases hb'
      rw [hdataset]
      exact ⟨hloaded dataset rfl, hsound⟩
    · exact hkept key' b' hb'

theorem serves_add (hsettings : settings.Admits load E U) :
    Triple (g.Serves load E U) (add (settings.bundleSource load) g key) fun added s =>
      added.2.Serves load E U s ∧ g.Extends added.2 := by
  unfold add
  split
  · exact .pure fun s hs => ⟨hs, .refl⟩
  · rename_i hnew
    refine (serves_make hsettings).bind fun made => ?_
    split
    · exact .pure fun s hs => ⟨hs.1, .refl⟩
    · rename_i b
      exact .pure fun s hs => ⟨hs.2 b rfl, extends_insert (eq_false_of_ne_true hnew)⟩

theorem serves_get (hsettings : settings.Admits load E U) :
    Triple (g.Serves load E U) (get (settings.bundleSource load) g key) fun got s =>
      got.2.Serves load E U s ∧ g.Extends got.2 ∧
        ∀ b, got.1 = .ok b → got.2.bundles.get? key = some b := by
  unfold get
  refine (serves_add hsettings).bind ?_
  rintro ⟨added, g'⟩
  dsimp only
  split
  · exact .pure fun s hs => ⟨hs.1, hs.2, by rintro _ ⟨⟩⟩
  · rename_i b hb
    refine .pure fun s hs => ⟨hs.1, hs.2, ?_⟩
    rintro _ ⟨⟩
    exact hb
  · exact .pure fun s hs => ⟨hs.1, hs.2, by rintro _ ⟨⟩⟩

end Manager

/-! ## §3 Histories -/

theorem Outcome.SoundFor.mono {o : Outcome} {U : Prop}
    {load : String → StateM σ (Except DataError Dataset)} {g g' : Manager (Bundle σ)} {r : Request}
    (h : o.SoundFor U load g r) (hg : g.Extends g') : o.SoundFor U load g' r := by
  refine ⟨h.empty, ?_⟩
  intro hr
  obtain ⟨b, hb, hloaded, hsound⟩ := h.kept hr
  exact ⟨b, hg _ _ hb, hloaded, hsound⟩

section Histories

variable [SearchEngine ε] [HasWorld ε σ] [Timed σ] [LawfulWorld ε σ] {E : ε → Prop} {U : Prop}
  {load : String → StateM σ (Except DataError Dataset)} {settings : Settings}
  {g : Manager (Bundle σ)}

theorem Request.sound_attempt {r : Request} {b : Bundle σ} {owners : List (Option Interference)}
    {p : Problem} (hb : b.Sound E owners U) (hp : r.problem b.dataset.domains = .ok p)
    (hfits : U → r.Fits) :
    Yields (Inside (World.InOrder (AreRunsOf E) owners U)) (r.attempt p b.solver) fun o =>
      o.Sound U r b.dataset := by
  have hclocks : KeptByClocks (Inside (World.InOrder (AreRunsOf E) owners U) : σ → Prop) :=
    World.keptByClocks
  unfold attempt
  refine .seq hclocks fun reading => ?_
  refine .bind (hb owners (List.prefix_refl _) p _ r.seed (Criterion.keptBy_ofLimit hclocks _)
    fun hU => fits_problem hp (hfits hU)) fun result hresult => .pure ?_
  exact Outcome.sound_of_result hp hresult

variable [ConfiguredEngine ε]

/-- A request is answered rightly, and those that follow can be. -/
theorem Request.serves_answer (hsettings : settings.Admits load E U) {r : Request}
    (hfits : U → r.Fits) :
    Triple (g.Serves load E U) (answer (settings.bundleSource load) g r) fun a s =>
      a.2.Serves load E U s ∧ g.Extends a.2 ∧ ∀ o, a.1 = .ok o → o.SoundFor U load a.2 r := by
  unfold answer
  split
  · rename_i hempty
    refine .pure fun s hs => ⟨hs, .refl, ?_⟩
    rintro _ ⟨⟩
    exact ⟨fun _ d => Outcome.sound_empty hempty, fun h => absurd hempty (by simp [h])⟩
  rename_i hstations
  split
  · exact .pure fun s hs => ⟨hs, .refl, by rintro _ ⟨⟩⟩
  refine (Manager.serves_get hsettings).bind ?_
  rintro ⟨got, g'⟩
  dsimp only
  split
  · exact .pure fun s hs => ⟨hs.1, hs.2.1, by rintro _ ⟨⟩⟩
  rename_i b
  split
  · exact .pure fun s hs => ⟨hs.1, hs.2.1, by rintro _ ⟨⟩⟩
  rename_i p hp
  -- the problem of the request goes to the bundle of its dataset
  rintro s ⟨⟨owners, hs, hbundles⟩, hextends, hgot⟩
  have hb := hgot b rfl
  obtain ⟨hloaded, hsound⟩ := hbundles _ b hb
  obtain ⟨ho, hs'⟩ := sound_attempt hsound hp hfits s hs
  refine ⟨⟨owners, hs', hbundles⟩, hextends, ?_⟩
  rintro _ ⟨⟩
  exact ⟨fun h => absurd h hstations, fun _ => ⟨b, hb, hloaded, ho⟩⟩

theorem Request.serves_answerAll (hsettings : settings.Admits load E U) {requests : List Request}
    (hfits : U → ∀ r ∈ requests, r.Fits) :
    Triple (g.Serves load E U) (answerAll (settings.bundleSource load) g requests) fun a s =>
      a.2.Serves load E U s ∧ g.Extends a.2 ∧
        List.Forall₂ (fun r outcome => ∀ o, outcome = .ok o → o.SoundFor U load a.2 r)
          requests a.1 := by
  induction requests generalizing g with
  | nil => exact .pure fun s hs => ⟨hs, .refl, .nil⟩
  | cons r rest ih =>
    have hfirst : U → r.Fits := fun u => hfits u r List.mem_cons_self
    have hrest : U → ∀ r ∈ rest, r.Fits := fun u r' hr' => hfits u r' (List.mem_cons_of_mem _ hr')
    unfold answerAll
    refine (serves_answer hsettings hfirst).bind ?_
    rintro ⟨outcome, g'⟩ s ⟨hs, hg, houtcome⟩
    obtain ⟨hs', hg', houtcomes⟩ := ih hrest s hs
    refine ⟨hs', hg.trans hg', .cons ?_ houtcomes⟩
    exact fun o ho => (houtcome o ho).mono hg'

/-- Whatever the engine, the loader, the settings and the requests are, every answer is right.  That
there is no packing is right if the engine says UNSAT only of formulas without a model and variables
can be numbered in 32 bits. -/
theorem Settings.sound_answerAll (settings : Settings) (hload : ∀ key, LeavesWorld (load key))
    (requests : List Request) {s : σ} (hengines : (HasWorld.world s).engines = [])
    (hcaches : (HasWorld.world s).caches = []) :
    let answered := (Request.answerAll (settings.bundleSource load) .empty requests s).1
    let trusts := (∀ e₀ : ε, ConfiguredEngine.ofConfig? settings.engine = .ok e₀ →
      UnsatCorrect e₀) ∧ ∀ r ∈ requests, r.Fits
    List.Forall₂
      (fun r outcome => ∀ o, outcome = .ok o → o.SoundFor trusts load answered.2 r)
      requests answered.1 := by
  intro answered trusts
  -- at first there are no bundles, engines or caches
  have hempty : Manager.empty.Serves load
      (fun e₀ : ε => ConfiguredEngine.ofConfig? settings.engine = .ok e₀) trusts s := by
    refine ⟨[], ⟨?_, ?_, nofun⟩, ?_⟩
    · rw [hengines]
      exact fun session hsession => absurd hsession List.not_mem_nil
    · rw [hcaches]
      rfl
    · intro key b hb
      rw [Manager.empty, SortedMap.get?_empty] at hb
      cases hb
  exact (Request.serves_answerAll ⟨fun _ h => h, (·.1), hload⟩ (·.2) s hempty).2.2

end Histories

/-- One station with one channel. -/
def Dataset.single : Dataset := ⟨SortedMap.ofList [(1, SortedSet.ofList [14])], Interference.none⟩

/-- A request for this station on a channel that it may not take. -/
def Request.offChannel : Request where
  stations := SortedSet.ofList [1]
  channels := SortedSet.ofList [15]
  reduced := SortedMap.empty
  previous := SortedMap.empty
  cutoff := .ofParts 60 0
  seed := 0
  dataset := "single"

/-- With an engine that decides, the answers UNSAT are right without a condition. -/
theorem Settings.sound_answerAll_offChannel :
    let load : String → StateM (World ExhaustiveEngine) (Except DataError Dataset) :=
      fun _ => pure (.ok .single)
    let requests := [Request.offChannel, .offChannel]
    let answered := (Request.answerAll (({} : Settings).bundleSource load) .empty requests {}).1
    answered.1.map (fun outcome => outcome.toOption.map Outcome.verdict) =
        [some .unsat, some .unsat] ∧
      List.Forall₂ (fun r outcome => ∀ o, outcome = .ok o → o.SoundFor True load answered.2 r)
        requests answered.1 := by
  intro load requests answered
  have hfits : ∀ r ∈ requests, r.Fits := by
    have hone : Request.offChannel.Fits := by unfold Request.Fits; decide
    simp [requests, hone]
  -- the engine is known to be right, and both requests fit
  have htrusts : ((∀ e₀ : ExhaustiveEngine, ConfiguredEngine.ofConfig? "default" = .ok e₀ →
      UnsatCorrect e₀) ∧ ∀ r ∈ requests, r.Fits) = True :=
    eq_true ⟨fun e₀ _ => (isDecider_exhaustive e₀).unsat, hfits⟩
  have hload : ∀ key, LeavesWorld (load key) := fun _ _ => ⟨rfl, rfl⟩
  have hsound := sound_answerAll {} hload requests (s := {}) rfl rfl
  refine ⟨by decide +kernel, ?_⟩
  rw [← htrusts]
  exact hsound

end SpectrumPacking
