import SpectrumPacking.Proofs.Solve.Programs
import SpectrumPacking.Service.Manager

/-!
# The Life of a Manager

A manager is called in any order, by a source of bundles that may fail at any time.  A journal keeps
every service of the source, and numbers the bundles by it so that no two are the same.  What one
call does is one of a few things (`Manager.Does`); from this, a whole life of calls that ends with
a shutdown loads once, fails without a trace and releases once what was built
(`Manager.rightful_performAll`).
-/

namespace SpectrumPacking

variable {σ β γ : Type}

/-- A bundle with the number of its build. -/
structure NumberedBundle (β : Type) where
  number : Nat
  bundle : β

namespace Manager

/-! ## §1 Calls and Replies -/

/-- What a manager can be called for. -/
inductive Call where
  | has (key : String)
  | add (key : String)
  | get (key : String)
  | shutdown
  deriving DecidableEq, Repr

/-- What a manager replies to a call. -/
inductive Reply (β : Type) where
  | has (answer : Bool)
  | add (answer : Except ManagerError Bool)
  | get (answer : Except ManagerError β)
  | shutdown

/-- The key for which a bundle is to be there after a call. -/
def Call.key? : Call → Option String
  | add key | get key => some key
  | has _ | shutdown => none

/-- Applies `f` to the bundle of a reply. -/
def Reply.map (f : β → γ) : Reply β → Reply γ
  | has answer => .has answer
  | add answer => .add answer
  | get answer => .get (answer.map f)
  | shutdown => .shutdown

/-- The error of a reply. -/
def Reply.error? : Reply β → Option ManagerError
  | add (.error e) | get (.error e) => some e
  | _ => none

section Calls

variable {m : Type → Type} [Monad m]

/-- Replies to a call. -/
def answer (source : BundleSource m β) (g : Manager β) : Call → m (Reply β × Manager β)
  | .has key => return (.has (g.has key), g)
  | .add key => do
    let (added, g) ← add source g key
    return (.add added, g)
  | .get key => do
    let (got, g) ← get source g key
    return (.get got, g)
  | .shutdown => return (.shutdown, ← shutdown source g)

/-- Replies to calls, one after another. -/
def answerAll (source : BundleSource m β) (g : Manager β) : List Call → m (List (Reply β))
  | [] => return []
  | call :: calls => do
    let (reply, g) ← g.answer source call
    return reply :: (← answerAll source g calls)

end Calls

section Equations

variable {source : BundleSource (StateM σ) β} {g : Manager β} {key : String} {s s' : σ}

theorem make_of_load_error {e : DataError} (h : source.load key s = (.error e, s')) :
    make source key s = (.error (.data e), s') := by
  rw [make, bind_eq h]
  rfl

theorem make_of_load_ok {dataset : Dataset} (h : source.load key s = (.ok dataset, s')) :
    make source key s = source.build dataset s' := by
  rw [make, bind_eq h]

theorem add_of_has (h : g.has key = true) : add source g key s = ((.ok false, g), s) := by
  rw [add, if_pos h]
  rfl

theorem add_of_make_error {e : ManagerError} (hkey : g.has key = false)
    (h : make source key s = (.error e, s')) : add source g key s = ((.error e, g), s') := by
  rw [add, if_neg (by simp [hkey]), bind_eq h]
  rfl

theorem add_of_make_ok {b : β} (hkey : g.has key = false)
    (h : make source key s = (.ok b, s')) :
    add source g key s = ((.ok true, ⟨g.bundles.insert key b⟩), s') := by
  rw [add, if_neg (by simp [hkey]), bind_eq h]
  rfl

theorem get_of_add_error {e : ManagerError} {g' : Manager β}
    (h : add source g key s = ((.error e, g'), s')) :
    get source g key s = ((.error e, g'), s') := by
  rw [get, bind_eq h]
  rfl

theorem get_of_add_ok {added : Bool} {g' : Manager β} {b : β}
    (h : add source g key s = ((.ok added, g'), s')) (hb : g'.bundles.get? key = some b) :
    get source g key s = ((.ok b, g'), s') := by
  rw [get, bind_eq h]
  simp only [hb]
  rfl

end Equations

/-! ## §2 Journals -/

/-- A service of a source of bundles, with its result. -/
inductive Service (β : Type) where
  | load (key : String) (loaded : Except DataError Dataset)
  | build (dataset : Dataset) (built : Except ManagerError (NumberedBundle β))
  | release (b : NumberedBundle β)

namespace Service

/-- The key that is loaded. -/
def loaded? : Service β → Option String
  | load key _ => some key
  | _ => none

/-- The bundle that is built. -/
def built? : Service β → Option (NumberedBundle β)
  | build _ (.ok b) => some b
  | _ => none

/-- The bundle that is released. -/
def released? : Service β → Option (NumberedBundle β)
  | release b => some b
  | _ => none

end Service

/-- A world, with all services of a source up to now. -/
structure Journal (σ β : Type) where
  world : σ
  services : List (Service β)

/-- A source that keeps a journal.  The number of a bundle is the place of its build. -/
def journaled (source : BundleSource (StateM σ) β) :
    BundleSource (StateM (Journal σ β)) (NumberedBundle β) where
  load key := fun j =>
    let (loaded, s) := source.load key j.world
    (loaded, ⟨s, j.services ++ [.load key loaded]⟩)
  build dataset := fun j =>
    let (built, s) := source.build dataset j.world
    let built := built.map (⟨j.services.length, ·⟩)
    (built, ⟨s, j.services ++ [.build dataset built]⟩)
  release b := fun j =>
    let (_, s) := source.release b.bundle j.world
    ((), ⟨s, j.services ++ [.release b]⟩)

/-- The manager of the bundles without their numbers. -/
def plain (g : Manager (NumberedBundle β)) : Manager β := ⟨g.bundles.map fun _ b => b.bundle⟩

/-- A call of a manager, with everything that came of it. -/
structure Deed (β : Type) where
  before : Manager (NumberedBundle β)
  call : Call
  /-- The services that the call used. -/
  services : List (Service β)
  reply : Reply (NumberedBundle β)
  after : Manager (NumberedBundle β)

/-- Replies to a call and says what came of it. -/
def perform (source : BundleSource (StateM σ) β) (g : Manager (NumberedBundle β)) (call : Call) :
    StateM (Journal σ β) (Deed β) := fun j =>
  let ((reply, after), j') := g.answer (journaled source) call j
  (⟨g, call, j'.services.drop j.services.length, reply, after⟩, j')

/-- Replies to calls, one after another, and says what came of each. -/
def performAll (source : BundleSource (StateM σ) β) (g : Manager (NumberedBundle β)) :
    List Call → StateM (Journal σ β) (List (Deed β))
  | [] => return []
  | call :: calls => do
    let d ← perform source g call
    return d :: (← performAll source d.after calls)

/-! ## §3 What a Call Does -/

/-- How a manager comes to a bundle for a key after `n` services: what services it uses, whether it
has to add the bundle, and which one it is. -/
inductive Fetches (n : Nat) (g : Manager (NumberedBundle β)) (key : String) :
    List (Service β) → Except ManagerError (Bool × NumberedBundle β) →
      Manager (NumberedBundle β) → Prop where
  /-- The bundle is there. -/
  | kept {b} (hkey : g.bundles.get? key = some b) : Fetches n g key [] (.ok (false, b)) g
  /-- The dataset cannot be loaded. -/
  | unloaded {e} (hkey : g.bundles.get? key = none) :
      Fetches n g key [.load key (.error e)] (.error (.data e)) g
  /-- The bundle cannot be built. -/
  | unbuilt {dataset e} (hkey : g.bundles.get? key = none) :
      Fetches n g key [.load key (.ok dataset), .build dataset (.error e)] (.error e) g
  /-- The bundle is built by the second service of the call. -/
  | built {dataset bundle} (hkey : g.bundles.get? key = none) :
      Fetches n g key [.load key (.ok dataset), .build dataset (.ok ⟨n + 1, bundle⟩)]
        (.ok (true, ⟨n + 1, bundle⟩)) ⟨g.bundles.insert key ⟨n + 1, bundle⟩⟩

/-- What a call does after `n` services. -/
inductive Does (n : Nat) (g : Manager (NumberedBundle β)) :
    Call → List (Service β) → Reply (NumberedBundle β) → Manager (NumberedBundle β) → Prop where
  | has {key} : Does n g (.has key) [] (.has (g.has key)) g
  | add {key services outcome g'} (h : Fetches n g key services outcome g') :
      Does n g (.add key) services (.add (outcome.map Prod.fst)) g'
  | get {key services outcome g'} (h : Fetches n g key services outcome g') :
      Does n g (.get key) services (.get (outcome.map Prod.snd)) g'
  | shutdown : Does n g .shutdown (g.bundles.values.map .release) .shutdown empty

section Steps

variable {source : BundleSource (StateM σ) β} {n : Nat} {g g' : Manager (NumberedBundle β)}
  {key : String} {services : List (Service β)}
  {outcome : Except ManagerError (Bool × NumberedBundle β)}

theorem get?_plain : g.plain.bundles.get? key = (g.bundles.get? key).map (·.bundle) :=
  SortedMap.get?_map

theorem has_plain : g.plain.has key = g.has key := by
  rw [has, has, SortedMap.contains, SortedMap.contains, get?_plain, Option.isSome_map]

theorem plain_insert {b : NumberedBundle β} :
    plain ⟨g.bundles.insert key b⟩ = ⟨g.plain.bundles.insert key b.bundle⟩ := by
  apply congrArg Manager.mk
  apply SortedMap.ext
  intro i
  rw [SortedMap.get?_map, SortedMap.get?_insert, SortedMap.get?_insert, get?_plain]
  split <;> rfl

theorem values_plain : g.plain.bundles.values = g.bundles.values.map (·.bundle) := by
  simp [plain, SortedMap.values, SortedMap.map]

/-- A bundle that was fetched is there. -/
theorem Fetches.get?_eq {added : Bool} {b : NumberedBundle β}
    (h : Fetches n g key services (.ok (added, b)) g') : g'.bundles.get? key = some b := by
  cases h with
  | kept hkey => exact hkey
  | built hkey => rw [SortedMap.get?_insert, if_pos rfl]

theorem load_journaled {j : Journal σ β} {loaded : Except DataError Dataset} {s : σ}
    (h : source.load key j.world = (loaded, s)) :
    (journaled source).load key j = (loaded, ⟨s, j.services ++ [.load key loaded]⟩) := by
  simp only [journaled, h]

theorem build_journaled {j : Journal σ β} {dataset : Dataset} {built : Except ManagerError β}
    {s : σ} (h : source.build dataset j.world = (built, s)) :
    (journaled source).build dataset j
      = (built.map (⟨j.services.length, ·⟩),
          ⟨s, j.services ++ [.build dataset (built.map (⟨j.services.length, ·⟩))]⟩) := by
  simp only [journaled, h]

/-- Adding with a journal is adding without one, and does what the journal says. -/
theorem add_journaled (source : BundleSource (StateM σ) β) (g : Manager (NumberedBundle β))
    (key : String) (j : Journal σ β) :
    ∃ services outcome g' s, Fetches j.services.length g key services outcome g' ∧
      add (journaled source) g key j
        = ((outcome.map Prod.fst, g'), ⟨s, j.services ++ services⟩) ∧
      add source g.plain key j.world = ((outcome.map Prod.fst, g'.plain), s) := by
  -- there is the bundle, or loading fails, or building fails, or neither
  cases hkey : g.bundles.get? key with
  | some b =>
    have hhas : g.has key = true := SortedMap.contains_iff.2 ⟨b, hkey⟩
    refine ⟨[], _, g, j.world, .kept hkey, ?_, ?_⟩
    · rw [add_of_has hhas, List.append_nil]
      rfl
    · rw [add_of_has (by rw [has_plain, hhas])]
      rfl
  | none =>
    have hhas : g.has key = false := by rw [has, SortedMap.contains, hkey, Option.isSome_none]
    have hplain : g.plain.has key = false := by rw [has_plain, hhas]
    rcases hload : source.load key j.world with ⟨e | dataset, s₁⟩
    · have hjournal := load_journaled hload
      exact ⟨_, _, g, s₁, .unloaded hkey,
        add_of_make_error hhas (make_of_load_error hjournal),
        add_of_make_error hplain (make_of_load_error hload)⟩
    have hjournal := load_journaled hload
    rcases hbuild : source.build dataset s₁ with ⟨e | bundle, s₂⟩
    · have hmake := (make_of_load_ok hjournal).trans (build_journaled hbuild)
      rw [List.append_assoc] at hmake
      exact ⟨_, _, g, s₂, .unbuilt hkey, add_of_make_error hhas hmake,
        add_of_make_error hplain ((make_of_load_ok hload).trans hbuild)⟩
    · have hmake := (make_of_load_ok hjournal).trans (build_journaled hbuild)
      rw [List.append_assoc, List.length_append] at hmake
      refine ⟨_, _, _, s₂, .built hkey, add_of_make_ok hhas hmake, ?_⟩
      rw [plain_insert]
      exact add_of_make_ok hplain ((make_of_load_ok hload).trans hbuild)

/-- Getting with a journal is getting without one, and does what the journal says. -/
theorem get_journaled (source : BundleSource (StateM σ) β) (g : Manager (NumberedBundle β))
    (key : String) (j : Journal σ β) :
    ∃ services outcome g' s, Fetches j.services.length g key services outcome g' ∧
      get (journaled source) g key j
        = ((outcome.map Prod.snd, g'), ⟨s, j.services ++ services⟩) ∧
      get source g.plain key j.world
        = (((outcome.map Prod.snd).map (·.bundle), g'.plain), s) := by
  obtain ⟨services, outcome, g', s, hfetches, hjournal, hplain⟩ :=
    add_journaled source g key j
  refine ⟨services, outcome, g', s, hfetches, ?_⟩
  rcases outcome with e | ⟨added, b⟩
  · exact ⟨get_of_add_error hjournal, get_of_add_error hplain⟩
  · have hb := hfetches.get?_eq
    exact ⟨get_of_add_ok hjournal hb, get_of_add_ok hplain (by rw [get?_plain, hb]; rfl)⟩

/-- Releasing bundles with a journal is releasing them without one. -/
theorem forM_release_journaled (source : BundleSource (StateM σ) β)
    (bundles : List (NumberedBundle β)) (j : Journal σ β) :
    ∃ s, bundles.forM (journaled source).release j
        = ((), ⟨s, j.services ++ bundles.map .release⟩) ∧
      (bundles.map (·.bundle)).forM source.release j.world = ((), s) := by
  induction bundles generalizing j with
  | nil => exact ⟨j.world, by rw [List.map_nil, List.append_nil]; rfl, rfl⟩
  | cons b bundles ih =>
    -- the journal grows by one release, and the rest follows from there
    rcases hrelease : source.release b.bundle j.world with ⟨u, s₁⟩
    have hjournal : (journaled source).release b j
        = ((), ⟨s₁, j.services ++ [.release b]⟩) := by simp only [journaled, hrelease]
    obtain ⟨s₂, hjournals, hplain⟩ := ih ⟨s₁, j.services ++ [.release b]⟩
    refine ⟨s₂, ?_, ?_⟩
    · rw [List.forM_eq_forM, List.forM_cons, bind_eq hjournal]
      rw [List.forM_eq_forM, List.append_assoc] at hjournals
      exact hjournals
    · rw [List.map_cons, List.forM_eq_forM, List.forM_cons, bind_eq hrelease]
      rw [List.forM_eq_forM] at hplain
      exact hplain

/-- Replying with a journal is replying without one, and does what the journal says. -/
theorem answer_journaled (source : BundleSource (StateM σ) β) (g : Manager (NumberedBundle β))
    (call : Call) (j : Journal σ β) :
    ∃ services reply g' s, Does j.services.length g call services reply g' ∧
      g.answer (journaled source) call j = ((reply, g'), ⟨s, j.services ++ services⟩) ∧
      g.plain.answer source call j.world = ((reply.map (·.bundle), g'.plain), s) := by
  cases call with
  | has key =>
    refine ⟨[], .has (g.has key), g, j.world, .has, ?_, ?_⟩
    · rw [List.append_nil]
      rfl
    · rw [answer, has_plain]
      rfl
  | add key =>
    obtain ⟨services, outcome, g', s, hfetches, hjournal, hplain⟩ :=
      add_journaled source g key j
    refine ⟨services, _, g', s, .add hfetches, ?_, ?_⟩
    · rw [answer, bind_eq hjournal]
      rfl
    · rw [answer, bind_eq hplain]
      rfl
  | get key =>
    obtain ⟨services, outcome, g', s, hfetches, hjournal, hplain⟩ :=
      get_journaled source g key j
    refine ⟨services, _, g', s, .get hfetches, ?_, ?_⟩
    · rw [answer, bind_eq hjournal]
      rfl
    · rw [answer, bind_eq hplain]
      rfl
  | shutdown =>
    obtain ⟨s, hjournal, hplain⟩ :=
      forM_release_journaled source g.bundles.values j
    refine ⟨_, .shutdown, empty, s, .shutdown, ?_, ?_⟩
    · rw [answer, shutdown, bind_assoc, bind_eq hjournal]
      rfl
    · rw [answer, shutdown, values_plain, bind_assoc, bind_eq hplain]
      rfl

theorem does_perform (source : BundleSource (StateM σ) β) (g : Manager (NumberedBundle β))
    (call : Call) (j : Journal σ β) :
    ∃ services reply g' s, Does j.services.length g call services reply g' ∧
      perform source g call j
        = (⟨g, call, services, reply, g'⟩, ⟨s, j.services ++ services⟩) ∧
      g.plain.answer source call j.world = ((reply.map (·.bundle), g'.plain), s) := by
  obtain ⟨services, reply, g', s, hdoes, hjournal, hplain⟩ :=
    answer_journaled source g call j
  refine ⟨services, reply, g', s, hdoes, ?_, hplain⟩
  simp only [perform, hjournal, List.drop_left]

end Steps

/-! ## §4 Deeds in Succession -/

/-- Deeds that follow one another and lead from one manager to another, after `n` services. -/
inductive Follows : Nat → Manager (NumberedBundle β) → List (Deed β) →
    Manager (NumberedBundle β) → Prop where
  | nil {n g} : Follows n g [] g
  | cons {n g call services reply g' deeds g''} (hdoes : Does n g call services reply g')
      (hdeeds : Follows (n + services.length) g' deeds g'') :
      Follows n g (⟨g, call, services, reply, g'⟩ :: deeds) g''

/-- The bundles that deeds built. -/
def built (deeds : List (Deed β)) : List (NumberedBundle β) :=
  deeds.flatMap fun d => d.services.filterMap Service.built?

/-- The bundles that deeds released. -/
def released (deeds : List (Deed β)) : List (NumberedBundle β) :=
  deeds.flatMap fun d => d.services.filterMap Service.released?

section Successions

variable {source : BundleSource (StateM σ) β} {n : Nat} {g g' : Manager (NumberedBundle β)}
  {call : Call} {services : List (Service β)} {reply : Reply (NumberedBundle β)}
  {deeds : List (Deed β)}

/-- The deeds of a manager follow one another.  They are all that its source did, and replied as
without a journal. -/
theorem follows_performAll (source : BundleSource (StateM σ) β) (g : Manager (NumberedBundle β))
    (calls : List Call) (j : Journal σ β) :
    ∃ deeds g' s, Follows j.services.length g deeds g' ∧ deeds.map (·.call) = calls ∧
      performAll source g calls j = (deeds, ⟨s, j.services ++ deeds.flatMap (·.services)⟩) ∧
      g.plain.answerAll source calls j.world
        = (deeds.map fun d => d.reply.map (·.bundle), s) := by
  induction calls generalizing g j with
  | nil => exact ⟨[], g, j.world, .nil, rfl, by rw [List.flatMap_nil, List.append_nil]; rfl, rfl⟩
  | cons call calls ih =>
    obtain ⟨services, reply, g₁, s₁, hdoes, hperform, hanswer⟩ :=
      does_perform source g call j
    obtain ⟨deeds, g₂, s₂, hfollows, hcalls, hperforms, hanswers⟩ :=
      ih g₁ ⟨s₁, j.services ++ services⟩
    -- later calls see a longer journal
    rw [List.length_append] at hfollows
    refine ⟨_, g₂, s₂, .cons hdoes hfollows, by rw [List.map_cons, hcalls], ?_, ?_⟩
    · rw [performAll, bind_eq hperform, bind_eq hperforms, List.append_assoc]
      rfl
    · rw [answerAll, bind_eq hanswer]
      exact bind_eq hanswers

/-- A manager that was last shut down has no bundle. -/
theorem Follows.eq_empty (h : Follows n g deeds g')
    (hlast : (deeds.map (·.call)).getLast? = some .shutdown) : g' = empty := by
  induction h with
  | nil => cases hlast
  | @cons n g call services reply g₁ deeds g₂ hdoes hdeeds ih =>
    cases hdeeds with
    | nil =>
      rw [List.map_singleton, List.getLast?_singleton, Option.some.injEq] at hlast
      cases hlast
      cases hdoes
      rfl
    | cons hdoes' hdeeds' => exact ih hlast

theorem built_eq_nil (bundles : List (NumberedBundle β)) :
    (bundles.map Service.release).filterMap Service.built? = [] := by
  refine List.filterMap_eq_nil_iff.2 fun a ha => ?_
  obtain ⟨b, -, rfl⟩ := List.mem_map.1 ha
  rfl

/-- A call builds at most one bundle, and its number is that of a service of the call. -/
theorem Does.built_eq (h : Does n g call services reply g') :
    services.filterMap Service.built? = [] ∨
      ∃ b, services.filterMap Service.built? = [b] ∧ n ≤ b.number ∧
        b.number < n + services.length := by
  have hfetches : ∀ {key outcome}, Fetches n g key services outcome g' →
      services.filterMap Service.built? = [] ∨
        ∃ b, services.filterMap Service.built? = [b] ∧ n ≤ b.number ∧
          b.number < n + services.length := by
    intro key outcome h
    cases h with
    | kept | unloaded | unbuilt => exact Or.inl rfl
    | built hkey => exact Or.inr ⟨_, rfl, Nat.le_succ n, Nat.lt_succ_self _⟩
  cases h with
  | has => exact Or.inl rfl
  | add h | get h => exact hfetches h
  | shutdown => exact Or.inl (built_eq_nil _)

/-- Bundles that are built later have greater numbers. -/
theorem Follows.pairwise_built (h : Follows n g deeds g') :
    (built deeds).Pairwise (fun b b' => b.number < b'.number) ∧
      ∀ b ∈ built deeds, n ≤ b.number := by
  induction h with
  | nil => exact ⟨.nil, nofun⟩
  | @cons n g call services reply g₁ deeds g₂ hdoes hdeeds ih =>
    obtain ⟨hpairwise, hle⟩ := ih
    have hlater : ∀ b ∈ built deeds, n ≤ b.number := fun b hb => by
      have := hle b hb
      omega
    rw [built, List.flatMap_cons]
    -- the call built nothing, or a bundle that has the length of the journal for its number
    rcases hdoes.built_eq with hnone | ⟨b, hb, hn, hlt⟩
    · rw [hnone, List.nil_append]
      exact ⟨hpairwise, hlater⟩
    · rw [hb, List.singleton_append, List.pairwise_cons]
      refine ⟨⟨fun b' hb' => ?_, hpairwise⟩, fun b' hb' => ?_⟩
      · have := hle b' hb'
        omega
      · rcases List.mem_cons.1 hb' with rfl | hb'
        · exact hn
        · exact hlater b' hb'

theorem Fetches.perm {key : String} {outcome : Except ManagerError (Bool × NumberedBundle β)}
    (h : Fetches n g key services outcome g') :
    (services.filterMap Service.released? ++ g'.bundles.values).Perm
      (g.bundles.values ++ services.filterMap Service.built?) := by
  cases h with
  | kept | unloaded | unbuilt => exact .of_eq (List.append_nil _).symm
  | built hkey =>
    refine (SortedMap.values_insert_perm hkey).trans ?_
    exact (List.perm_append_singleton _ _).symm

/-- What a manager releases and keeps is what it had and what it builds. -/
theorem Does.perm (h : Does n g call services reply g') :
    (services.filterMap Service.released? ++ g'.bundles.values).Perm
      (g.bundles.values ++ services.filterMap Service.built?) := by
  cases h with
  | has => exact .of_eq (List.append_nil _).symm
  | add h | get h => exact h.perm
  | shutdown =>
    have hreleased : (g.bundles.values.map Service.release).filterMap Service.released?
        = g.bundles.values := by
      rw [List.filterMap_map]
      exact List.filterMap_some
    have hbuilt := built_eq_nil g.bundles.values
    rw [hreleased, hbuilt]
    exact .refl _

theorem Follows.perm (h : Follows n g deeds g') :
    (released deeds ++ g'.bundles.values).Perm (g.bundles.values ++ built deeds) := by
  induction h with
  | nil => exact .of_eq (List.append_nil _).symm
  | @cons n g call services reply g₁ deeds g₂ hdoes hdeeds ih =>
    rw [released, built, List.flatMap_cons, List.flatMap_cons]
    -- what the rest of the deeds starts with is what the first one leaves
    have hnow := hdoes.perm.append_right (built deeds)
    have hlater := ih.append_left (services.filterMap Service.released?)
    simp only [List.append_assoc] at hnow hlater ⊢
    exact hlater.trans hnow

end Successions

/-! ## §5 Deeds and What Came Before Them -/

/-- The bundle that a deed built for a key. -/
def Deed.builtFor? (key : String) (d : Deed β) : Option (NumberedBundle β) :=
  if d.call.key? = some key then d.services.findSome? Service.built? else none

/-- The bundle that was built last for a key. -/
def latestBuild (key : String) (past : List (Deed β)) : Option (NumberedBundle β) :=
  past.reverse.findSome? (Deed.builtFor? key)

/-- The deeds since the manager was last shut down. -/
def sinceShutdown (past : List (Deed β)) : List (Deed β) :=
  (past.reverse.takeWhile fun d => d.call ≠ .shutdown).reverse

/-- The bundle that was built last for a key since the manager was last shut down. -/
def held (key : String) (past : List (Deed β)) : Option (NumberedBundle β) :=
  latestBuild key (sinceShutdown past)

/-- A deed is right after the deeds of the past. -/
structure Deed.Rightful (d : Deed β) (past : List (Deed β)) : Prop where
  /-- The manager has the bundles that were built since it was last shut down. -/
  bundles : ∀ key, d.before.bundles.get? key = held key past
  /-- Asked for a bundle, the manager says whether it has it. -/
  asked : ∀ key, d.call = .has key → d.reply = .has (held key past).isSome
  /-- A key is loaded once if a bundle is wanted and there is none, and never otherwise. -/
  loads : ∀ key, (d.services.filterMap Service.loaded?).count key
    = if d.call.key? = some key ∧ held key past = none then 1 else 0
  /-- A bundle is built from the dataset that was just loaded for the key of the call. -/
  built : ∀ dataset built, .build dataset built ∈ d.services → ∃ key, d.call.key? = some key ∧
    d.services = [.load key (.ok dataset), .build dataset built]
  /-- A dataset that cannot be loaded leaves no trace. -/
  unloaded : ∀ key e, .load key (.error e) ∈ d.services →
    d.reply.error? = some (.data e) ∧ d.after = d.before
  /-- A bundle that cannot be built leaves no trace. -/
  unbuilt : ∀ dataset e, .build dataset (.error e) ∈ d.services →
    d.reply.error? = some e ∧ d.after = d.before
  /-- There are no other errors, so no bundle is missing unless the source says so. -/
  failed : ∀ e, d.reply.error? = some e →
    (∃ key cause, .load key (.error cause) ∈ d.services ∧ e = .data cause) ∨
      ∃ dataset, .build dataset (.error e) ∈ d.services
  /-- Adding a bundle says whether the manager has it only now. -/
  added : ∀ key, d.call = .add key → ∃ answer, d.reply = .add answer ∧
    (answer = .ok true ↔ d.before.has key = false ∧ d.after.has key = true)
  /-- A bundle that is handed out is the one that was built last for its key. -/
  got : ∀ key, d.call = .get key → ∃ answer, d.reply = .get answer ∧
    ∀ b, answer = .ok b → latestBuild key (past ++ [d]) = some b

section Histories

variable {source : BundleSource (StateM σ) β} {n : Nat} {g g' : Manager (NumberedBundle β)}
  {call : Call} {services : List (Service β)} {reply : Reply (NumberedBundle β)}
  {outcome : Except ManagerError (Bool × NumberedBundle β)} {key : String} {d : Deed β}
  {past deeds : List (Deed β)}

theorem latestBuild_concat :
    latestBuild key (past ++ [d]) = (d.builtFor? key).or (latestBuild key past) := by
  rw [latestBuild, List.reverse_concat, List.findSome?_cons, ← latestBuild]
  cases d.builtFor? key <;> rfl

theorem held_concat (hcall : d.call ≠ .shutdown) :
    held key (past ++ [d]) = (d.builtFor? key).or (held key past) := by
  rw [held, sinceShutdown, List.reverse_concat, List.takeWhile_cons_of_pos (by simpa using hcall),
    List.reverse_cons, ← sinceShutdown, latestBuild_concat, ← held]

theorem held_concat_shutdown (hcall : d.call = .shutdown) : held key (past ++ [d]) = none := by
  rw [held, sinceShutdown, List.reverse_concat, List.takeWhile_cons_of_neg (by simpa using hcall)]
  rfl

theorem latestBuild_of_held {b : NumberedBundle β} (h : held key past = some b) :
    latestBuild key past = some b := by
  rw [held, latestBuild, sinceShutdown, List.reverse_reverse] at h
  rw [latestBuild,
    ← List.takeWhile_append_dropWhile (p := fun d => d.call ≠ .shutdown) (l := past.reverse),
    List.findSome?_append, h]
  rfl

theorem Fetches.count_loaded (h : Fetches n g key services outcome g') (i : String) :
    (services.filterMap Service.loaded?).count i
      = if key = i ∧ g.bundles.get? i = none then 1 else 0 := by
  -- only one load is in the journal, and it is for the key asked for
  have hone : ∀ {rest : List (Service β)} {loaded}, g.bundles.get? key = none →
      rest.filterMap Service.loaded? = [] →
      ((.load key loaded :: rest).filterMap Service.loaded?).count i
        = if key = i ∧ g.bundles.get? i = none then 1 else 0 := by
    intro rest loaded hkey hrest
    rw [List.filterMap_cons, Service.loaded?, hrest, List.count_singleton]
    by_cases hi : key = i
    · subst hi
      simp [hkey]
    · simp [hi]
  cases h with
  | kept hkey =>
    rw [if_neg]
    · rfl
    · rintro ⟨rfl, hnone⟩
      rw [hkey] at hnone
      cases hnone
  | unloaded hkey => exact hone hkey rfl
  | unbuilt hkey => exact hone hkey rfl
  | built hkey => exact hone hkey rfl

theorem Fetches.unloaded_eq {e : DataError} {i : String}
    (h : Fetches n g key services outcome g') (hload : .load i (.error e) ∈ services) :
    outcome = .error (.data e) ∧ g' = g := by
  cases h <;> simp at hload
  obtain ⟨rfl, rfl⟩ := hload
  exact ⟨rfl, rfl⟩

theorem Fetches.unbuilt_eq {e : ManagerError} {dataset : Dataset}
    (h : Fetches n g key services outcome g') (hbuild : .build dataset (.error e) ∈ services) :
    outcome = .error e ∧ g' = g := by
  cases h <;> simp at hbuild
  obtain ⟨rfl, rfl⟩ := hbuild
  exact ⟨rfl, rfl⟩

/-- A bundle is built from the dataset that was loaded for its key. -/
theorem Fetches.services_eq {dataset : Dataset} {built : Except ManagerError (NumberedBundle β)}
    (h : Fetches n g key services outcome g') (hbuild : .build dataset built ∈ services) :
    services = [.load key (.ok dataset), .build dataset built] := by
  cases h <;> simp at hbuild <;> obtain ⟨rfl, rfl⟩ := hbuild <;> rfl

theorem Fetches.failed {e : ManagerError} (h : Fetches n g key services (.error e) g') :
    (∃ key cause, .load key (.error cause) ∈ services ∧ e = .data cause) ∨
      ∃ dataset, .build dataset (.error e) ∈ services := by
  cases h with
  | unloaded => exact Or.inl ⟨_, _, List.mem_cons_self, rfl⟩
  | unbuilt => exact Or.inr ⟨_, List.mem_cons_of_mem _ List.mem_cons_self⟩

theorem Fetches.added_iff (h : Fetches n g key services outcome g') :
    outcome.map Prod.fst = .ok true ↔ g.has key = false ∧ g'.has key = true := by
  cases h with
  | kept hkey => simp [Except.map, has, SortedMap.contains, hkey]
  | unloaded hkey | unbuilt hkey => simp [Except.map, has, SortedMap.contains, hkey]
  | built hkey => simp [Except.map, has, SortedMap.contains, hkey]

theorem Fetches.get?_after (h : Fetches n g key services outcome g') (i : String) :
    g'.bundles.get? i = (if key = i then services.findSome? Service.built? else none).or
      (g.bundles.get? i) := by
  cases h with
  | kept | unloaded | unbuilt => split <;> rfl
  | built hkey =>
    rw [SortedMap.get?_insert]
    split <;> rfl

/-- A call that wants a bundle fetches it, and fails if it cannot be fetched. -/
theorem Does.fetches (h : Does n g call services reply g') (hkey : call.key? = some key) :
    ∃ outcome, Fetches n g key services outcome g' ∧
      ∀ e, reply.error? = some e ↔ outcome = .error e := by
  cases h with
  | has | shutdown => cases hkey
  | @add _ _ outcome _ h =>
    cases hkey
    refine ⟨outcome, h, fun e => ?_⟩
    cases outcome <;> simp [Reply.error?, Except.map]
  | @get _ _ outcome _ h =>
    cases hkey
    refine ⟨outcome, h, fun e => ?_⟩
    cases outcome <;> simp [Reply.error?, Except.map]

/-- A call that wants no bundle can do no more than release bundles. -/
theorem Does.idle (h : Does n g call services reply g') (hkey : call.key? = none) :
    reply.error? = none ∧ ∀ a ∈ services, ∃ b, a = .release b := by
  cases h with
  | has => exact ⟨rfl, nofun⟩
  | add | get => cases hkey
  | shutdown =>
    refine ⟨rfl, fun a ha => ?_⟩
    obtain ⟨b, -, rfl⟩ := List.mem_map.1 ha
    exact ⟨b, rfl⟩

/-- Only a call that fetches a bundle uses services other than releases. -/
theorem Does.fetches_of_mem {a : Service β} (h : Does n g call services reply g')
    (ha : a ∈ services) (hrelease : a.released? = none) :
    ∃ key outcome, call.key? = some key ∧ Fetches n g key services outcome g' ∧
      ∀ e, reply.error? = some e ↔ outcome = .error e := by
  cases hkey : call.key? with
  | none =>
    obtain ⟨b, rfl⟩ := (h.idle hkey).2 a ha
    cases hrelease
  | some key =>
    obtain ⟨outcome, hfetches⟩ := h.fetches hkey
    exact ⟨key, outcome, rfl, hfetches⟩

/-- The bundles of a manager after a call are those that were built since it was last shut down. -/
theorem Does.get?_eq_held (h : Does n g call services reply g')
    (hg : ∀ key, g.bundles.get? key = held key past) :
    ∀ key, g'.bundles.get? key = held key (past ++ [⟨g, call, services, reply, g'⟩]) := by
  intro i
  -- a call that wants a bundle changes what is held for its own key alone
  have hfetches : ∀ key outcome, Fetches n g key services outcome g' → call.key? = some key →
      g'.bundles.get? i = held i (past ++ [⟨g, call, services, reply, g'⟩]) := by
    intro key outcome hfetches hkey
    have hcall : call ≠ .shutdown := by
      rintro rfl
      cases hkey
    rw [held_concat hcall, Deed.builtFor?, ← hg, hfetches.get?_after, hkey]
    simp only [Option.some.injEq]
  cases h with
  | has =>
    rw [held_concat (by simp), hg]
    rfl
  | add h | get h => exact hfetches _ _ h rfl
  | shutdown => exact (held_concat_shutdown rfl).symm

/-- A call is right if the manager has the bundles that were built since it was last shut down. -/
theorem Does.rightful (h : Does n g call services reply g')
    (hg : ∀ key, g.bundles.get? key = held key past) :
    Deed.Rightful ⟨g, call, services, reply, g'⟩ past where
  bundles := hg
  asked := by
    rintro key rfl
    cases h
    rw [← hg]
    rfl
  loads := by
    intro i
    cases hkey : call.key? with
    | none =>
      have hnone : services.filterMap Service.loaded? = [] := by
        refine List.filterMap_eq_nil_iff.2 fun a ha => ?_
        obtain ⟨b, rfl⟩ := (h.idle hkey).2 a ha
        rfl
      simp [hnone]
    | some key =>
      obtain ⟨outcome, hfetches, -⟩ := h.fetches hkey
      rw [hfetches.count_loaded, ← hg]
      simp only [Option.some.injEq]
  built := by
    intro dataset built hbuild
    obtain ⟨key, outcome, hkey, hfetches, -⟩ := h.fetches_of_mem hbuild rfl
    exact ⟨key, hkey, hfetches.services_eq hbuild⟩
  unloaded := by
    intro i e hload
    obtain ⟨key, outcome, -, hfetches, herror⟩ := h.fetches_of_mem hload rfl
    rw [herror]
    exact hfetches.unloaded_eq hload
  unbuilt := by
    intro dataset e hbuild
    obtain ⟨key, outcome, -, hfetches, herror⟩ := h.fetches_of_mem hbuild rfl
    rw [herror]
    exact hfetches.unbuilt_eq hbuild
  failed := by
    intro e he
    cases hkey : call.key? with
    | none =>
      rw [(h.idle hkey).1] at he
      cases he
    | some key =>
      obtain ⟨outcome, hfetches, herror⟩ := h.fetches hkey
      rw [(herror e).1 he] at hfetches
      exact hfetches.failed
  added := by
    rintro key rfl
    cases h with
    | add h => exact ⟨_, rfl, h.added_iff⟩
  got := by
    rintro key rfl
    cases h with
    | @get _ _ outcome _ h =>
      refine ⟨_, rfl, fun b hb => ?_⟩
      rcases outcome with e | ⟨added, b'⟩
      · cases hb
      · cases hb
        exact latestBuild_of_held ((Does.get?_eq_held (.get h) hg key).symm.trans h.get?_eq)

/-- Deeds that follow one another are right, each after those before it. -/
theorem Follows.rightful (h : Follows n g deeds g') {past : List (Deed β)}
    (hg : ∀ key, g.bundles.get? key = held key past) :
    ∀ earlier d later, deeds = earlier ++ d :: later → d.Rightful (past ++ earlier) := by
  induction h generalizing past with
  | nil =>
    intro earlier d later hsplit
    simp at hsplit
  | cons hdoes hdeeds ih =>
    intro earlier d later hsplit
    rcases List.cons_eq_append_iff.1 hsplit with ⟨rfl, hd⟩ | ⟨earlier', rfl, hrest⟩
    · cases hd
      rw [List.append_nil]
      exact hdoes.rightful hg
    · rw [List.append_cons]
      exact ih (hdoes.get?_eq_held hg) _ _ _ hrest

/-- A manager that is called in any order and shut down at the end loads a dataset only if it has
to, fails without a trace, and releases each bundle that was built once.  The deeds in which this
happens are all that its source does, and keeping a journal of them changes nothing. -/
theorem rightful_performAll (source : BundleSource (StateM σ) β) (calls : List Call) (s : σ) :
    ∃ deeds world, performAll source empty (calls ++ [.shutdown]) ⟨s, []⟩
        = (deeds, ⟨world, deeds.flatMap (·.services)⟩) ∧
      answerAll source empty (calls ++ [.shutdown]) s
        = (deeds.map fun d => d.reply.map (·.bundle), world) ∧
      deeds.map (·.call) = calls ++ [.shutdown] ∧
      (∀ past d future, deeds = past ++ d :: future → d.Rightful past) ∧
      (built deeds).Nodup ∧ (released deeds).Perm (built deeds) := by
  obtain ⟨deeds, g, world, hfollows, hcalls, hperform, hanswer⟩ :=
    follows_performAll source empty (calls ++ [.shutdown]) ⟨s, []⟩
  -- the last shutdown leaves nothing that is not released
  have hg : g = empty := hfollows.eq_empty (by rw [hcalls, List.getLast?_concat])
  have hperm := hfollows.perm
  subst hg
  refine ⟨deeds, world, hperform, hanswer, hcalls, ?_, ?_, ?_⟩
  · intro past d future hsplit
    have hempty : ∀ key, (empty : Manager (NumberedBundle β)).bundles.get? key = held key [] :=
      fun key => rfl
    exact hfollows.rightful hempty past d future hsplit
  · refine hfollows.pairwise_built.1.imp ?_
    rintro b _ hlt rfl
    exact Nat.lt_irrefl _ hlt
  · exact (List.Perm.of_eq (List.append_nil _).symm).trans hperm

end Histories

/-- A source that fails to build its first bundle, knows one key, and numbers its bundles. -/
def flakySource : BundleSource (StateM Nat) Nat where
  load key := pure (if key = "known" then .ok default else .error (.unknownStation 7))
  build _ := modifyGet fun n =>
    (if n = 0 then .error (.engine (.configuration "refused")) else .ok n, n + 1)
  release _ := pure ()

/-- Calls that meet a bundle that cannot be built, one that is there, a dataset that cannot be
loaded, and a bundle that was released. -/
def flakyCalls : List Call :=
  [.get "known", .get "known", .add "known", .get "other", .shutdown, .has "known", .add "known"]

theorem rightful_performAll_flaky : ∃ deeds world,
    performAll flakySource empty (flakyCalls ++ [.shutdown]) ⟨0, []⟩
        = (deeds, ⟨world, deeds.flatMap (·.services)⟩) ∧
      deeds.map (fun d => d.reply.map (·.bundle))
        = [.get (.error (.engine (.configuration "refused"))), .get (.ok 1), .add (.ok false),
            .get (.error (.data (.unknownStation 7))), .shutdown, .has false, .add (.ok true),
            .shutdown] ∧
      (∀ past d future, deeds = past ++ d :: future → d.Rightful past) ∧
      (built deeds).Nodup ∧ (released deeds).Perm (built deeds) := by
  obtain ⟨deeds, world, hperform, hanswer, -, hrightful, hbuilt, hreleased⟩ :=
    rightful_performAll flakySource flakyCalls 0
  refine ⟨deeds, world, hperform, ?_, hrightful, hbuilt, hreleased⟩
  have hreplies : (answerAll flakySource empty (flakyCalls ++ [.shutdown]) 0).1
      = [.get (.error (.engine (.configuration "refused"))), .get (.ok 1), .add (.ok false),
          .get (.error (.data (.unknownStation 7))), .shutdown, .has false, .add (.ok true),
          .shutdown] := by
    rfl
  rw [hanswer] at hreplies
  exact hreplies

/-- A source that takes a bundle for missing when it is to build one. -/
def missingSource : BundleSource (StateM Unit) Unit where
  load _ := pure (.ok default)
  build _ := pure (.error (.missing "part"))
  release _ := pure ()

/-- A bundle can be missing after it was asked for: the source may say so itself. -/
theorem get_eq_missing :
    (answerAll missingSource empty [.get "dataset", .shutdown] ()).1
      = [.get (.error (.missing "part")), .shutdown] := rfl

end Manager

end SpectrumPacking
