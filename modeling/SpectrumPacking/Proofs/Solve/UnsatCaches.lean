import SpectrumPacking.Proofs.Solve.Worlds
import SpectrumPacking.Proofs.Text.Words

/-!
# Caches That Skip What They Know

A problem settles whatever is settled by a problem that it settles (`Problem.provesUnsat_trans`).  A
cache may therefore skip a problem that it settles already: it answers like a cache that holds every
problem that was inserted (`UnsatCache.prove?_insertAll`).

An entry is filed under the name of its problem, which tells the stations and the channels but not
which station may take which channel (`Problem.name_eq_iff`).  So entries may share a name
(`UnsatCache.shared_name_clashOn`), and an answer names a class of entries, one of which settles the
problem (`UnsatCache.names_insertAll`).

A problem without a packing settles every problem that contains it with narrower domains, whatever
the other stations interfere with.  Hits in a cache and the certifier that packs some stations alone
both rest on this (`Problem.unsat_transfers`).
-/

namespace SpectrumPacking

theorem SortedSet.eq_of_toList_eq {α : Type} [LE α] [LT α] [Std.LawfulOrderLT α]
    [Std.IsLinearOrder α] {s t : SortedSet α} (h : s.toList = t.toList) : s = t :=
  SortedSet.ext fun a => by rw [mem_def, mem_def, h]

/-! ## §1 Settling Other Problems -/

namespace Problem

variable {p q r : Problem} {x : Interference}

/-- Problems with the same domains settle one another. -/
theorem provesUnsat_of_domains_eq (h : p.domains = q.domains) : p.provesUnsat q = true := by
  rw [provesUnsat_iff]
  intro s D hD
  have hsame : p.domain? s = q.domain? s := congrArg (fun d => d.get? s) h
  exact ⟨D, hsame.symm.trans hD, fun _ hc => hc⟩

theorem provesUnsat_trans (h : p.provesUnsat q = true) (h' : q.provesUnsat r = true) :
    p.provesUnsat r = true := by
  rw [provesUnsat_iff] at h h' ⊢
  intro s D hD
  obtain ⟨E, hE, hED⟩ := h s D hD
  obtain ⟨F, hF, hFE⟩ := h' s E hE
  exact ⟨F, hF, fun c hc => hED c (hFE c hc)⟩

/-! ## §2 Names -/

theorem toList_name : p.name.toList =
    ['-'].intercalate (p.channels.toList.map Text.Numeral.ofInt) ++
      '_' :: ['-'].intercalate (p.stations.map Text.Numeral.ofNat) := by
  have hchannel : String.toList ∘ (toString : Channel → String) = Text.Numeral.ofInt :=
    funext fun _ => Text.Numeral.toList_toString_int
  have hstation : String.toList ∘ (toString : StationId → String) = Text.Numeral.ofNat :=
    funext fun _ => Text.Numeral.toList_toString
  simp [name, hchannel, hstation]

/-- The name is the list of the channels and the list of the stations, cut at the underscore. -/
theorem splitAtChar_name : Text.splitAtChar '_' p.name.toList =
    [['-'].intercalate (p.channels.toList.map Text.Numeral.ofInt),
      ['-'].intercalate (p.stations.map Text.Numeral.ofNat)] := by
  -- numerals and hyphens hold no underscore
  have hchannels : ¬ '_' ∈ ['-'].intercalate (p.channels.toList.map Text.Numeral.ofInt) := by
    intro h
    rcases Text.mem_joined h with h | ⟨w, hw, h⟩
    · cases h
    · obtain ⟨i, -, rfl⟩ := List.mem_map.1 hw
      exact Text.Numeral.not_mem_ofInt (by decide) (by decide) h
  have hstations : ¬ '_' ∈ ['-'].intercalate (p.stations.map Text.Numeral.ofNat) := by
    intro h
    rcases Text.mem_joined h with h | ⟨w, hw, h⟩
    · cases h
    · obtain ⟨n, -, rfl⟩ := List.mem_map.1 hw
      exact Text.Numeral.not_mem_ofNat (by decide) h
  rw [toList_name, Text.splitAtChar_append_cons, Text.splitAtChar_eq_singleton hchannels,
    Text.splitAtChar_eq_singleton hstations]
  rfl

/-- Two problems have the same name exactly if they have the same channels altogether and the same
stations. -/
theorem name_eq_iff : p.name = q.name ↔ p.channels = q.channels ∧ p.stationSet = q.stationSet := by
  constructor
  · intro h
    have hpieces := congrArg (Text.splitAtChar '_') (congrArg String.toList h)
    rw [splitAtChar_name, splitAtChar_name, List.cons.injEq, List.cons.injEq] at hpieces
    obtain ⟨hchannels, hstations, -⟩ := hpieces
    exact ⟨SortedSet.eq_of_toList_eq (Text.Numeral.joined_ofInt_inj (by decide) hchannels),
      SortedSet.eq_of_toList_eq (Text.Numeral.joined_ofNat_inj (by decide) hstations)⟩
  · rintro ⟨hchannels, hset⟩
    have hstations : p.stations = q.stations := congrArg SortedSet.toList hset
    rw [name, name, hchannels, hstations]

/-- Three stations, the first two of which have to share a channel. -/
def clashOn (c d : Channel) : Problem :=
  ofDomains (SortedMap.ofList [(1, SortedSet.ofList [c]), (2, SortedSet.ofList [c]),
    (3, SortedSet.ofList [d])]) SortedMap.empty

theorem not_packable_clashOn {c d : Channel} :
    ¬ (clashOn c d).Packable (Interference.none.addCo 1 2) :=
  not_packable_of_clash (s := 1) (t := 2) rfl rfl (by decide)

end Problem

/-! ## §3 Hits -/

namespace UnsatCache

variable {c : UnsatCache} {p q : Problem} {e : String × Problem}

/-- The oldest entry that settles a problem. -/
def hit? (c : UnsatCache) (q : Problem) : Option (String × Problem) :=
  c.entries.find? fun e => e.2.provesUnsat q

theorem prove?_eq : c.prove? q = (c.hit? q).map (·.1) := rfl

theorem mem_of_hit? (h : c.hit? q = some e) : e ∈ c.entries := List.mem_of_find?_eq_some h

theorem provesUnsat_of_hit? (h : c.hit? q = some e) : e.2.provesUnsat q = true := by
  simpa using List.find?_some h

theorem hit?_eq_none_iff : c.hit? q = none ↔ ∀ e ∈ c.entries, ¬ e.2.provesUnsat q = true :=
  List.find?_eq_none

/-! ## §4 Skipping -/

/-- The cache into which some problems were inserted one after another. -/
def insertAll (l : List Problem) : UnsatCache := l.foldl insert empty

theorem insert_of_hit? (h : c.hit? p = some e) : c.insert p = c := by
  rw [insert, if_pos]
  exact List.any_eq_true.2 ⟨e, mem_of_hit? h, provesUnsat_of_hit? h⟩

theorem insert_of_hit?_eq_none (h : c.hit? p = none) :
    c.insert p = ⟨c.entries ++ [(p.name, p)]⟩ := by
  rw [insert, if_neg]
  rw [Bool.not_eq_true, List.any_eq_false]
  exact hit?_eq_none_iff.1 h

/-- Inserting a problem has the hits of adding it in any case: a problem that is skipped settles
nothing that the entry which settles it does not settle. -/
theorem hit?_insert : (c.insert p).hit? q =
    (c.hit? q).or (if p.provesUnsat q = true then some (p.name, p) else none) := by
  cases hp : c.hit? p with
  | none =>
    rw [insert_of_hit?_eq_none hp]
    simp only [hit?, List.find?_append, List.find?_singleton]
  | some e =>
    rw [insert_of_hit? hp]
    cases hq : c.hit? q with
    | some e' => rfl
    | none =>
      have hnot : ¬ p.provesUnsat q = true := by
        intro hpq
        have hprove := Problem.provesUnsat_trans (provesUnsat_of_hit? hp) hpq
        exact hit?_eq_none_iff.1 hq e (mem_of_hit? hp) hprove
      rw [if_neg hnot]
      rfl

theorem hit?_foldl_insert {l : List Problem} : (l.foldl insert c).hit? q =
    (c.hit? q).or ((l.find? fun p => p.provesUnsat q).map fun p => (p.name, p)) := by
  induction l generalizing c with
  | nil => exact Option.or_none.symm
  | cons p l ih =>
    rw [List.foldl_cons, ih, hit?_insert, Option.or_assoc, List.find?_cons]
    cases p.provesUnsat q <;> rfl

/-- The entries of a cache are filed under their names, and none of them is settled by an older
one. -/
structure IsReduced (c : UnsatCache) : Prop where
  named : ∀ e ∈ c.entries, e.1 = e.2.name
  reduced : c.entries.Pairwise fun e f => ¬ e.2.provesUnsat f.2 = true

theorem isReduced_empty : empty.IsReduced := ⟨nofun, .nil⟩

theorem IsReduced.insert (hc : c.IsReduced) : (c.insert p).IsReduced := by
  cases hp : c.hit? p with
  | some e =>
    rw [insert_of_hit? hp]
    exact hc
  | none =>
    rw [insert_of_hit?_eq_none hp]
    constructor
    · intro e he
      rcases List.mem_append.1 he with he | he
      · exact hc.named e he
      · rw [List.mem_singleton.1 he]
    · rw [List.pairwise_append]
      refine ⟨hc.reduced, List.pairwise_singleton _ _, ?_⟩
      intro e he f hf
      rw [List.mem_singleton.1 hf]
      exact hit?_eq_none_iff.1 hp e he

theorem isReduced_insertAll (l : List Problem) : (insertAll l).IsReduced :=
  List.foldlRecOn l UnsatCache.insert isReduced_empty fun _ hc _ _ => hc.insert

/-- A cache that skips what it knows answers by the name of the first problem inserted so far that
settles the question, if there is one, and so like a cache that holds every problem.  No entry is
settled by an older one. -/
theorem prove?_insertAll (l : List Problem) (q : Problem) :
    (insertAll l).prove? q = (l.find? fun p => p.provesUnsat q).map Problem.name ∧
      (insertAll l).entries.Pairwise fun e f => ¬ e.2.provesUnsat f.2 = true := by
  refine ⟨?_, (isReduced_insertAll l).reduced⟩
  rw [prove?_eq, insertAll, hit?_foldl_insert, hit?, empty, List.find?_nil, Option.none_or,
    Option.map_map]
  rfl

/-- The second of three problems settles itself, and the third one is skipped. -/
theorem prove?_insertAll_clashOn :
    let l := [Problem.clashOn 14 15, .clashOn 15 14, .clashOn 14 15]
    (insertAll l).prove? (.clashOn 15 14) = some (Problem.clashOn 15 14).name ∧
      (insertAll l).size = 2 ∧
      (insertAll l).entries.Pairwise fun e f => ¬ e.2.provesUnsat f.2 = true := by
  intro l
  obtain ⟨hprove, hreduced⟩ := prove?_insertAll l (.clashOn 15 14)
  have hfind : l.find? (fun p => p.provesUnsat (.clashOn 15 14)) = some (.clashOn 15 14) := rfl
  rw [hfind] at hprove
  exact ⟨hprove, rfl, hreduced⟩

/-! ## §5 What an Answer Names -/

/-- Entries share a name exactly if their problems have the same channels altogether and the same
stations.  Even then they are different problems. -/
theorem IsReduced.pairwise_name (hc : c.IsReduced) :
    c.entries.Pairwise fun e f => e.2.domains ≠ f.2.domains ∧
      (e.1 = f.1 ↔ e.2.channels = f.2.channels ∧ e.2.stationSet = f.2.stationSet) := by
  apply hc.reduced.imp_of_mem
  intro e f he hf hnot
  refine ⟨fun hdomains => hnot (Problem.provesUnsat_of_domains_eq hdomains), ?_⟩
  rw [hc.named e he, hc.named f hf, Problem.name_eq_iff]

section Answers

variable {ε σ : Type} [HasWorld ε σ] [Timed σ] [LawfulWorld ε σ] {i : Nat} {s : σ}

/-- The solver that looks into a cache answers UNSAT when there is a hit, and names it. -/
theorem solve_of_cache (hs : (HasWorld.world s).cache i = c) (criterion : Criterion σ)
    (seed : Nat) :
    let r := ((World.cacheAccess i : CacheAccess σ).solver.solve q criterion seed s).1
    (r.verdict = .unsat ↔ ∃ e, c.hit? q = some e) ∧ r.justification = (c.hit? q).map (·.1) := by
  -- the clocks are read before and after the cache is asked
  have hclocks : KeptByClocks (Inside (fun w : World ε => w.cache i = c) : σ → Prop) := by
    intro s hs
    refine ⟨trivial, ?_⟩
    rw [Inside, World.cache, (LawfulWorld.read s).2]
    exact hs
  have hworld : Yields (fun w : World ε => w.cache i = c)
      (fun w : World ε => ((w.cache i).prove? q, w)) fun o => o = c.prove? q :=
    fun w hw => ⟨congrArg (fun c : UnsatCache => c.prove? q) hw, hw⟩
  have hprove : Yields (Inside fun w : World ε => w.cache i = c)
      ((World.cacheAccess i : CacheAccess σ).prove? q) fun o => o = c.prove? q :=
    yields_inside hworld
  have hsolve : Yields (Inside fun w : World ε => w.cache i = c)
      ((World.cacheAccess i : CacheAccess σ).solver.solve q criterion seed) fun r =>
        (r.verdict = .unsat ↔ ∃ e, c.hit? q = some e) ∧ r.justification = (c.hit? q).map (·.1) := by
    unfold CacheAccess.solver
    refine .seq hclocks.now fun start => .bind hprove ?_
    rintro o rfl
    rw [prove?_eq]
    cases c.hit? q with
    | none =>
      refine .seq hclocks.since fun d => .pure ⟨?_, rfl⟩
      simp [SolveResult.timeout, SolveResult.bare]
    | some e =>
      refine .seq hclocks.since fun d => .pure ⟨?_, rfl⟩
      simp [SolveResult.unsat, SolveResult.bare]
  exact (hsolve s hs).1

/-- The entries of a cache are different problems, and they share a name exactly if they have the
same channels altogether and the same stations.  The justification of an answer UNSAT is the name of
an entry that settles the problem, and of no other entries than those that agree with it in channels
and stations. -/
theorem names_insertAll {l : List Problem} (hs : (HasWorld.world s).cache i = insertAll l) :
    ((insertAll l).entries.Pairwise fun e f => e.2.domains ≠ f.2.domains ∧
      (e.1 = f.1 ↔ e.2.channels = f.2.channels ∧ e.2.stationSet = f.2.stationSet)) ∧
    ∀ (q : Problem) (criterion : Criterion σ) (seed : Nat),
      let r := ((World.cacheAccess i : CacheAccess σ).solver.solve q criterion seed s).1
      r.verdict = .unsat → ∃ e ∈ (insertAll l).entries,
        r.justification = some e.1 ∧ e.2.provesUnsat q = true ∧
          ∀ f ∈ (insertAll l).entries, f.1 = e.1 ↔
            f.2.channels = e.2.channels ∧ f.2.stationSet = e.2.stationSet := by
  have hreduced := isReduced_insertAll l
  refine ⟨hreduced.pairwise_name, ?_⟩
  intro q criterion seed r hv
  obtain ⟨hunsat, hjustification⟩ := solve_of_cache (q := q) hs criterion seed
  -- the answer rests on a hit, and names the entry that was hit
  obtain ⟨e, he⟩ := hunsat.1 hv
  have hmem := mem_of_hit? he
  refine ⟨e, hmem, ?_, provesUnsat_of_hit? he, ?_⟩
  · rw [hjustification, he]
    rfl
  · intro f hf
    rw [hreduced.named f hf, hreduced.named e hmem, Problem.name_eq_iff]

end Answers

end UnsatCache

/-! ## §6 Problems That Share a Name -/

/-- Two problems without a packing, neither of which settles the other, are stored under one
name. -/
theorem UnsatCache.shared_name_clashOn :
    let c := insertAll [.clashOn 14 15, .clashOn 15 14]
    (∀ e ∈ c.entries, ¬ e.2.Packable (Interference.none.addCo 1 2)) ∧
      ¬ c.entries.Pairwise fun e f => e.1 ≠ f.1 := by
  intro c
  have hentries : c.entries = [((Problem.clashOn 14 15).name, .clashOn 14 15),
      ((Problem.clashOn 15 14).name, .clashOn 15 14)] := rfl
  have hname : (Problem.clashOn 14 15).name = (Problem.clashOn 15 14).name := by
    rw [Problem.name_eq_iff]
    exact ⟨by decide, by decide⟩
  rw [hentries]
  refine ⟨?_, ?_⟩
  · simp [Problem.not_packable_clashOn]
  · simp [hname]

/-- With both problems in the cache, the answer about the second one names a problem that settles
it, but by a name that the first one has as well. -/
theorem UnsatCache.names_insertAll_clashOn :
    let l := [Problem.clashOn 14 15, .clashOn 15 14]
    let w : World Unit := { caches := [insertAll l] }
    let r := ((World.cacheAccess 0 : CacheAccess (World Unit)).solver.solve (.clashOn 15 14) .never
      0 w).1
    w.cache 0 = insertAll l ∧ r.verdict = .unsat ∧
      ∃ e ∈ (insertAll l).entries, e.2.provesUnsat (.clashOn 15 14) = true ∧
        r.justification = some e.1 ∧ (e.1 = (Problem.clashOn 14 15).name ↔
          (Problem.clashOn 14 15).channels = e.2.channels ∧
            (Problem.clashOn 14 15).stationSet = e.2.stationSet) := by
  intro l w r
  have hw : w.cache 0 = insertAll l := rfl
  have hv : r.verdict = .unsat := by decide
  obtain ⟨-, hanswers⟩ := names_insertAll (s := w) hw
  obtain ⟨e, he, hkey, hproves, hsame⟩ := hanswers (.clashOn 15 14) .never 0 hv
  refine ⟨hw, hv, e, he, hproves, hkey, ?_⟩
  rw [eq_comm]
  exact hsame _ List.mem_cons_self

/-! ## §7 What a Part Says About the Whole -/

section Solvers

variable {σ : Type} [Timed σ] {I : σ → Prop} {x : Interference} {p : Problem}
  {criterion : Criterion σ} {seed : Nat}

/-- A solver says UNSAT of a problem that is no larger than `p` only if the problem has no
packing. -/
def Solver.RefutesRightly (solver : Solver σ) (I : σ → Prop) (x : Interference) (p : Problem)
    (criterion : Criterion σ) (seed : Nat) : Prop :=
  ∀ q : Problem, q.IsWithin p → Yields I (solver.solve q criterion seed) fun r =>
    r.verdict = .unsat → ¬ q.Packable x

/-- Packing some stations alone refutes no problem that has a packing. -/
theorem Certifier.not_packable_of_unsat (hclocks : KeptByClocks I) {solver : Solver σ}
    (h : solver.RefutesRightly I x p criterion seed) (toPack : SortedSet StationId) :
    Yields I ((Certifier.unsat solver).certify p toPack criterion seed) fun r =>
      r.verdict = .unsat → ¬ p.Packable x := by
  unfold Certifier.unsat
  refine .seq hclocks.now fun start => .seq hclocks.since fun prepared => ?_
  refine .bind (h _ Problem.isWithin_restrictedTo) fun result hresult => .pure ?_
  split
  · rename_i hunsat
    intro _
    exact Problem.not_packable_of_provesUnsat Problem.provesUnsat_restrictedTo (hresult hunsat)
  · nofun

/-- A packing of the whole, restricted to the stations of a part, is a packing of the part, and the
sub-problem over any stations is a part.  So whole problems that are refuted through a part, by a
hit in a cache or by packing some stations alone, have no packing. -/
theorem Problem.unsat_transfers (hclocks : KeptByClocks I) (x : Interference) (query : Problem) :
    (∀ (cached : Problem) (a : Assignment), cached.provesUnsat query = true →
      query.IsPacking x a → cached.IsPacking x (a.restrictedTo cached.stationSet)) ∧
    (∀ t, (query.restrictedTo t).provesUnsat query = true) ∧
    (∀ (c : UnsatCache) (key : String), c.prove? query = some key →
      ∃ e, c.hit? query = some e ∧ e.1 = key ∧ (¬ e.2.Packable x → ¬ query.Packable x)) ∧
    ∀ (solver : Solver σ) (toPack : SortedSet StationId) (criterion : Criterion σ) (seed : Nat),
      solver.RefutesRightly I x query criterion seed →
        Yields I ((Certifier.unsat solver).certify query toPack criterion seed) fun r =>
          r.verdict = .unsat → ¬ query.Packable x := by
  refine ⟨fun cached a h ha => ha.restrictedTo h, fun t => provesUnsat_restrictedTo, ?_, ?_⟩
  · intro c key hkey
    obtain ⟨e, he, rfl⟩ := Option.map_eq_some_iff.1 hkey
    exact ⟨e, he, rfl, not_packable_of_provesUnsat (UnsatCache.provesUnsat_of_hit? he)⟩
  · intro solver toPack criterion seed h
    exact Certifier.not_packable_of_unsat hclocks h toPack

/-- A solver that knows of one problem that it has no packing. -/
def Solver.refuting (q : Problem) : Solver σ where
  solve p _ _ := pure (if p = q then .unsat .zero else .timeout .zero)
  interrupt := pure ()
  shutdown := pure ()

/-- Two stations that have to share a channel are a part of a problem with a third station. -/
theorem Problem.unsat_transfers_clashOn :
    let x := Interference.none.addCo 1 2
    let a := Assignment.ofPlacement (SortedMap.ofList [(1, 14), (2, 15)])
    let part := (clashOn 14 15).restrictedTo (SortedSet.ofList [1, 2])
    let alone := pair.restrictedTo (SortedSet.ofList [2])
    alone.IsPacking x (a.restrictedTo alone.stationSet) ∧
      ((UnsatCache.insertAll [part]).prove? (clashOn 14 15) = some part.name ∧
        ¬ (clashOn 14 15).Packable x) ∧
      ((((Certifier.unsat (Solver.refuting part)).certify (clashOn 14 15)
        (SortedSet.ofList [1, 2]) .never 0 ({} : World Unit)).1.verdict = .unsat) ∧
        ¬ (clashOn 14 15).Packable x) := by
  intro x a part alone
  have hclocks : KeptByClocks fun _ : World Unit => True := fun _ _ => ⟨trivial, trivial⟩
  -- the two stations have only one channel between them
  have hpart : ¬ part.Packable x := not_packable_of_clash (s := 1) (t := 2) rfl rfl (by decide)
  refine ⟨?_, ?_, ?_⟩
  · obtain ⟨hrestrict, hpart, -⟩ := unsat_transfers hclocks x pair
    apply hrestrict alone a (hpart _)
    apply isPacking_of_decode (l := [1, -2, -3, 4])
    · decide +kernel
    · decide
  · obtain ⟨-, -, hhit, -⟩ := unsat_transfers hclocks x (clashOn 14 15)
    have hkey : (UnsatCache.insertAll [part]).prove? (clashOn 14 15) = some part.name := rfl
    obtain ⟨e, he, -, hquery⟩ := hhit _ _ hkey
    refine ⟨hkey, hquery ?_⟩
    cases he
    exact hpart
  · obtain ⟨-, -, -, hcertify⟩ := unsat_transfers hclocks x (clashOn 14 15)
    have hsolver : (Solver.refuting part : Solver (World Unit)).RefutesRightly (fun _ => True) x
        (clashOn 14 15) .never 0 := by
      intro q _ s _
      refine ⟨?_, trivial⟩
      show (if q = part then SolveResult.unsat .zero else .timeout .zero).verdict = .unsat → _
      split
      · rename_i hq
        intro _
        rw [hq]
        exact hpart
      · nofun
    have hunsat : ((Certifier.unsat (Solver.refuting part)).certify (clashOn 14 15)
        (SortedSet.ofList [1, 2]) .never 0 ({} : World Unit)).1.verdict = .unsat := by
      decide
    exact ⟨hunsat, (hcertify _ _ _ _ hsolver {} trivial).1 hunsat⟩

end Solvers

end SpectrumPacking
