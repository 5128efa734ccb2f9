import SpectrumPacking.Dataset.Text
import SpectrumPacking.Proofs.Text.Layouts

/-!
# Written Datasets

One text lists the stations of a dataset, each on a line of its own (`Domains.IsWrittenAs`), and
another the constraints among them, in whatever groups (`Interference.AreWrittenAs`).  From two such
texts, whatever their layout, reading makes the dataset; and whatever is read, constraints are among
stations of the dataset (`Interference.ofText_of_written`).
-/

namespace SpectrumPacking

open Text

/-! ## §1 Numbers in Fields -/

section Numbers

variable {s : StationId} {cs : List Channel}

theorem stationField_ofNat (hs : s < 2 ^ 32) : stationField (Numeral.ofNat s) = .ok s := by
  rw [stationField, StationId.ofText?, Numeral.natWithin?_ofNat hs]

theorem channelFields_ofInt (hcs : ∀ c ∈ cs, Numeral.fitsSigned 32 c = true) :
    channelFields (cs.map Numeral.ofInt) = .ok cs := by
  induction cs with
  | nil => rfl
  | cons c cs ih =>
    rw [List.map_cons, channelFields, Channel.ofText?, Numeral.intWithin?_ofInt (hcs c (by simp)),
      ih fun c hc => hcs c (List.mem_cons_of_mem _ hc)]
    rfl

end Numbers

/-! ## §2 Domains -/

/-- The fields of a domain line are a station and its channels, behind a tag that may be left
out. -/
inductive DomainFields : List (List Char) → StationId × List Channel → Prop where
  | untagged {s cs} : DomainFields (Numeral.ofNat s :: cs.map Numeral.ofInt) (s, cs)
  | tagged {tag s cs} (htag : IsTag "DOMAIN" tag) :
      DomainFields (tag :: Numeral.ofNat s :: cs.map Numeral.ofInt) (s, cs)

namespace Domains

/-- A text lists the stations of a dataset, each of them once, with the channels of its domain in
any order. -/
def IsWrittenAs (d : Domains) (text : List Char) : Prop :=
  ∃ items, Layout DomainFields text items ∧ (items.map Prod.fst).Perm d.keys ∧
    ∀ s cs D, (s, cs) ∈ items → d.get? s = some D → ∀ c, c ∈ cs ↔ c ∈ D

/-- The numbers of stations and channels have 32 bits. -/
structure InRange (d : Domains) : Prop where
  stations : ∀ s, d.contains s = true → s < 2 ^ 32
  channels : ∀ s D, d.get? s = some D → ∀ c ∈ D, Numeral.fitsSigned 32 c = true

variable {d : Domains} {file : Path} {n : Nat} {s : StationId} {cs : List Channel}
  {line text : List Char} {ws : List (List Char)}

theorem readLine_of_isRemark (h : isRemark line = true) : readLine file n d line = .ok d := by
  rw [readLine, if_pos h]

/-- A domain line is found to hold its station and its channels. -/
theorem readLine_of_holds (hws : DomainFields ws (s, cs)) (hs : s < 2 ^ 32)
    (hcs : ∀ c ∈ cs, Numeral.fitsSigned 32 c = true) (hline : Holds line ws) :
    readLine file n d line = .ok (d.insert s (SortedSet.ofList cs)) := by
  have hnumerals : ∀ w ∈ Numeral.ofNat s :: cs.map Numeral.ofInt, IsField w := by
    intro w hw
    rcases List.mem_cons.1 hw with rfl | hw
    · exact Numeral.isField_ofNat
    · obtain ⟨c, -, rfl⟩ := List.mem_map.1 hw
      exact Numeral.isField_ofInt
  -- with or without a tag, the line is no remark and the numerals are what is left of it
  have hread : isRemark line = false ∧
      untagged (filledFields (trim line)) = Numeral.ofNat s :: cs.map Numeral.ofInt := by
    rw [filledFields_trim]
    cases hws with
    | untagged =>
      refine ⟨hline.isRemark_eq_false hnumerals (Numeral.head?_ofNat_ne (by decide)), ?_⟩
      rw [hline.filledFields_eq hnumerals, untagged, Numeral.upper_ofNat, if_neg]
      intro htag
      have hD : 'D' ∈ Numeral.ofNat s := by
        rw [beq_iff_eq.1 htag]
        decide
      exact Numeral.not_mem_ofNat (by decide) hD
    | @tagged tag _ _ htag =>
      obtain ⟨hfield, hhash⟩ := htag.isField (by decide) (by decide)
      have hfields : ∀ w ∈ tag :: Numeral.ofNat s :: cs.map Numeral.ofInt, IsField w := by
        intro w hw
        rcases List.mem_cons.1 hw with rfl | hw
        · exact hfield
        · exact hnumerals w hw
      refine ⟨hline.isRemark_eq_false hfields hhash, ?_⟩
      rw [hline.filledFields_eq hfields, untagged, (htag.upper_eq (by decide)).1,
        if_pos (by decide)]
  have hstation : Station.ofLine line = .ok ⟨s, SortedSet.ofList cs⟩ := by
    simp only [Station.ofLine, hread.2, stationField_ofNat hs, channelFields_ofInt hcs]
    rfl
  simp only [readLine, hread.1, hstation, Bool.false_eq_true, if_false]

/-- A text that lists the stations of a dataset is read as these, with their domains. -/
theorem ofText_of_isWrittenAs (hd : d.InRange) (h : d.IsWrittenAs text) :
    ofText file text = .ok d := by
  obtain ⟨items, hlayout, honce, hchannels⟩ := h
  -- each item has the domain of its station, though perhaps with repetitions
  have hget : ∀ i ∈ items, d.get? i.1 = some (SortedSet.ofList i.2) := by
    intro i hi
    have hkey : i.1 ∈ d.keys := honce.mem_iff.1 (List.mem_map_of_mem hi)
    obtain ⟨D, hD⟩ := Option.ne_none_iff_exists'.1 fun hnone =>
      SortedMap.get?_eq_none_iff.1 hnone hkey
    rw [hD, Option.some.injEq]
    apply SortedSet.ext
    intro c
    rw [SortedSet.mem_ofList, hchannels i.1 i.2 D hi hD]
  -- line by line, the text comes to the map of its items
  have hread : ofText file text
      = .ok (SortedMap.ofList (items.map fun i => (i.1, SortedSet.ofList i.2))) := by
    rw [SortedMap.ofList, SortedMap.insertMany, List.foldl_map]
    refine hlayout.foldLines_eq ?_ (fun n d line => readLine_of_isRemark) ?_
    · intro n d l l' hl
      rw [readLine, readLine, isRemark, isRemark, Station.ofLine, Station.ofLine, hl]
    · rintro ⟨s, cs⟩ hi ws hws n d' line hline
      have hD := hget _ hi
      refine readLine_of_holds hws (hd.stations s (SortedMap.contains_iff.2 ⟨_, hD⟩)) ?_ hline
      exact fun c hc => hd.channels s _ hD c (SortedSet.mem_ofList.2 hc)
  rw [hread]
  apply congrArg Except.ok
  -- a station occurs in one item only, so it does not matter which one comes last
  have hitems : ∀ s D, (s, D) ∈ items.map (fun i => (i.1, SortedSet.ofList i.2)) →
      d.get? s = some D := by
    intro s D hmem
    obtain ⟨i, hi, heq⟩ := List.mem_map.1 hmem
    cases heq
    exact hget i hi
  refine SortedMap.ext fun s => Option.ext fun D => ?_
  rw [SortedMap.get?_ofList_iff fun s D D' hD hD' => by
    simpa using (hitems s D hD).symm.trans (hitems s D' hD')]
  constructor
  · exact hitems s D
  · intro hD
    have hkey : s ∈ d.keys := List.mem_map.2 ⟨(s, D), SortedMap.get?_eq_some_iff.1 hD, rfl⟩
    obtain ⟨i, hi, rfl⟩ := List.mem_map.1 (honce.mem_iff.2 hkey)
    rw [hget i hi, Option.some.injEq] at hD
    exact List.mem_map.2 ⟨i, hi, by rw [hD]⟩

end Domains

/-! ## §3 Interference -/

/-- The tag of a relation. -/
def Relation.tag : Relation → String
  | co => "CO"
  | adjacent => "ADJ+1"

namespace Interference

/-- Constraints that are written on one line. -/
structure Group where
  relation : Relation
  subject : StationId
  targets : List StationId

/-- The constraints of a group. -/
def Group.constraints (k : Group) : List (Relation × StationId × StationId) :=
  k.targets.map fun t => (k.relation, k.subject, t)

/-- The fields of an interference line are the tag of a relation, a subject, and its targets, of
which there is at least one. -/
def Group.Fields (ws : List (List Char)) (k : Group) : Prop :=
  ∃ tag, IsTag k.relation.tag tag ∧ k.targets ≠ [] ∧
    ws = tag :: (k.subject :: k.targets).map Numeral.ofNat

/-- A text lists two relations: each pair of the first in at least one direction, and each pair of
the second in its direction, in whatever groups and as often as one likes. -/
def AreWrittenAs (co adjacent : StationId → StationId → Prop) (text : List Char) : Prop :=
  ∃ groups : List Group, Layout Group.Fields text groups ∧
    let listed r s t := (r, s, t) ∈ groups.flatMap Group.constraints
    (∀ s t, listed .co s t → co s t) ∧
      (∀ s t, co s t → listed .co s t ∨ listed .co t s) ∧
      ∀ s t, listed .adjacent s t ↔ adjacent s t

/-- Relations among the stations of a dataset, of which the first is symmetric and irreflexive. -/
structure AreAmong (co adjacent : StationId → StationId → Prop) (d : Domains) : Prop where
  symm : ∀ s t, co s t → co t s
  irrefl : ∀ s, ¬ co s s
  known : ∀ s t, co s t ∨ adjacent s t → d.contains s = true ∧ d.contains t = true

/-- The interference has a constraint. -/
def Has (x : Interference) : Relation → StationId → StationId → Prop
  | .co, s, t => t ∈ x.coStations s
  | .adjacent, s, t => t ∈ x.adjacentStations s

/-- The constraint between `s` and `t` is recorded with that between `a` and `b`. -/
def Implies (a b s t : StationId) : Relation → Prop
  | .co => a ≠ b ∧ ((s = a ∧ t = b) ∨ (s = b ∧ t = a))
  | .adjacent => s = a ∧ t = b

/-- Records constraints one after another. -/
def addAll (x : Interference) (l : List (Relation × StationId × StationId)) : Interference :=
  l.foldl (fun x k => x.add k.1 k.2.1 k.2.2) x

section Recording

variable {x : Interference} {q r : Relation} {a b s t : StationId}
  {l m : List (Relation × StationId × StationId)}

theorem not_has_none : ¬ none.Has q s t := by
  cases q <;> exact SortedSet.not_mem_empty

theorem has_add : (x.add r a b).Has q s t ↔ (q = r ∧ Implies a b s t q) ∨ x.Has q s t := by
  cases r <;> cases q
  · simpa [add, Has, Implies] using mem_coStations_addCo
  · simp [add, Has]
  · simp [add, Has]
  · simpa [add, Has, Implies] using mem_adjacentStations_addAdjacent

theorem has_addAll :
    (x.addAll l).Has q s t ↔ (∃ a b, (q, a, b) ∈ l ∧ Implies a b s t q) ∨ x.Has q s t := by
  induction l generalizing x with
  | nil => simp [addAll]
  | cons k l ih =>
    obtain ⟨r, a, b⟩ := k
    rw [addAll, List.foldl_cons, ← addAll, ih, has_add]
    constructor
    -- recorded by a later constraint, by this one, or before
    · rintro (⟨a', b', hmem, himplies⟩ | ⟨rfl, himplies⟩ | hx)
      · exact Or.inl ⟨a', b', List.mem_cons_of_mem _ hmem, himplies⟩
      · exact Or.inl ⟨a, b, List.mem_cons_self, himplies⟩
      · exact Or.inr hx
    · rintro (⟨a', b', hmem, himplies⟩ | hx)
      · rcases List.mem_cons.1 hmem with heq | hmem
        · cases heq
          exact Or.inr (Or.inl ⟨rfl, himplies⟩)
        · exact Or.inl ⟨a', b', hmem, himplies⟩
      · exact Or.inr (Or.inr hx)

end Recording

section Reading

variable {d : Domains} {file : Path} {n : Nat} {x y : Interference} {q r : Relation}
  {s t : StationId} {tag line text : List Char} {ts : List StationId} {ws : List (List Char)}
  {k : Group} {co adjacent : StationId → StationId → Prop}

theorem isTagName_tag : IsTagName r.tag = true := by
  cases r <;> decide

theorem ofTag_of_isTag (h : IsTag r.tag tag) : Relation.ofTag tag = .ok r := by
  rw [Relation.ofTag, (h.upper_eq isTagName_tag).1]
  cases r <;> rfl

theorem knownStation_ofNat (hd : d.InRange) (hs : d.contains s = true) :
    knownStation d file n (Numeral.ofNat s) = .ok s := by
  obtain ⟨D, hD⟩ := SortedMap.contains_iff.1 hs
  simp only [knownStation, stationField_ofNat (hd.stations s hs), Domains.lookup_eq_ok_iff.2 hD]
  rfl

theorem contains_of_knownStation {w : List Char} (h : knownStation d file n w = .ok s) :
    d.contains s = true := by
  rw [knownStation] at h
  split at h
  · cases h
  · rename_i s' _
    cases hlookup : d.lookup s' with
    | error e =>
      rw [hlookup] at h
      cases h
    | ok D =>
      rw [hlookup] at h
      cases h
      exact SortedMap.contains_iff.2 ⟨D, Domains.lookup_eq_ok_iff.1 hlookup⟩

theorem readTargets_ofNat (hd : d.InRange) (htag : IsTag r.tag tag)
    (hts : ∀ t ∈ ts, d.contains t = true) :
    readTargets d file n tag s x (ts.map Numeral.ofNat)
      = .ok (x.addAll (ts.map fun t => (r, s, t))) := by
  induction ts generalizing x with
  | nil => rfl
  | cons t ts ih =>
    rw [List.map_cons, readTargets, knownStation_ofNat hd (hts t (by simp)), ofTag_of_isTag htag]
    exact ih fun t ht => hts t (List.mem_cons_of_mem _ ht)

theorem Group.Fields.exists_mem (h : k.Fields ws) : ∃ t, t ∈ k.targets := by
  obtain ⟨tag, -, hne, -⟩ := h
  exact List.exists_mem_of_ne_nil _ hne

/-- A line with a group of constraints among stations of the dataset is read as these. -/
theorem readLine_of_holds (hd : d.InRange) (hws : k.Fields ws) (hs : d.contains k.subject = true)
    (hts : ∀ t ∈ k.targets, d.contains t = true) (hline : Holds line ws) :
    readLine d file n x line = .ok (x.addAll k.constraints) := by
  obtain ⟨tag, htag, hne, rfl⟩ := hws
  obtain ⟨hfield, hhash⟩ := htag.isField isTagName_tag (by cases k.relation <;> decide)
  have hfields : ∀ w ∈ tag :: (k.subject :: k.targets).map Numeral.ofNat, IsField w := by
    intro w hw
    rcases List.mem_cons.1 hw with rfl | hw
    · exact hfield
    · obtain ⟨t, -, rfl⟩ := List.mem_map.1 hw
      exact Numeral.isField_ofNat
  have hremark := hline.isRemark_eq_false hfields hhash
  have hread := hline.filledFields_eq hfields
  have htargets : readTargets d file n tag k.subject x (k.targets.map Numeral.ofNat)
      = .ok (x.addAll k.constraints) := readTargets_ofNat hd htag hts
  obtain ⟨t, ts, hsplit⟩ := List.exists_cons_of_ne_nil hne
  rw [hsplit, List.map_cons, List.map_cons] at hread
  rw [hsplit, List.map_cons] at htargets
  simp only [readLine, hremark, Bool.false_eq_true, if_false, filledFields_trim, hread,
    knownStation_ofNat hd hs, htargets, Group.constraints, hsplit]

/-- Every constraint is among stations of the dataset. -/
def Among (x : Interference) (d : Domains) : Prop :=
  ∀ q s t, x.Has q s t → d.contains s = true ∧ d.contains t = true

theorem Among.add (hx : x.Among d) (hs : d.contains s = true) (ht : d.contains t = true) :
    (x.add r s t).Among d := by
  intro q a b hab
  rcases has_add.1 hab with ⟨-, himplies⟩ | hab
  · cases q with
    | co =>
      obtain ⟨-, ⟨rfl, rfl⟩ | ⟨rfl, rfl⟩⟩ := himplies
      · exact ⟨hs, ht⟩
      · exact ⟨ht, hs⟩
    | adjacent =>
      obtain ⟨rfl, rfl⟩ := himplies
      exact ⟨hs, ht⟩
  · exact hx q a b hab

theorem Among.readTargets (hx : x.Among d) (hs : d.contains s = true)
    (h : readTargets d file n tag s x ws = .ok y) : y.Among d := by
  induction ws generalizing x with
  | nil =>
    cases h
    exact hx
  | cons w ws ih =>
    rw [Interference.readTargets] at h
    split at h
    · cases h
    · rename_i t ht
      split at h
      · cases h
      · exact ih (hx.add hs (contains_of_knownStation ht)) h

theorem Among.readLine (hx : x.Among d) (h : readLine d file n x line = .ok y) : y.Among d := by
  rw [Interference.readLine] at h
  split at h
  · cases h
    exact hx
  · split at h
    · split at h
      · cases h
      · rename_i hs
        exact hx.readTargets (contains_of_knownStation hs) h
    · cases h

/-- Reading finds constraints among stations of the dataset only. -/
theorem among_ofText (h : ofText d file text = .ok x) : x.Among d := by
  have hnone : none.Among d := fun q s t hst => absurd hst not_has_none
  exact foldLines_induct (P := fun _ x => x.Among d) (fun _ _ _ _ _ hx => hx.readLine) [] hnone h

/-- A text that lists two relations is read as these. -/
theorem ofText_of_areWrittenAs (hd : d.InRange) (hrelations : AreAmong co adjacent d)
    (h : AreWrittenAs co adjacent text) :
    ∃ x, ofText d file text = .ok x ∧
      ∀ s t, (t ∈ x.coStations s ↔ co s t) ∧ (t ∈ x.adjacentStations s ↔ adjacent s t) := by
  obtain ⟨groups, hlayout, hsound, hcomplete, hadjacent⟩ := h
  -- reading refuses unknown stations, so the relations have to be among known ones
  have hknown : ∀ k ∈ groups, ∀ t ∈ k.targets,
      d.contains k.subject = true ∧ d.contains t = true := by
    intro k hk t ht
    have hlisted : (k.relation, k.subject, t) ∈ groups.flatMap Group.constraints :=
      List.mem_flatMap.2 ⟨k, hk, List.mem_map_of_mem ht⟩
    apply hrelations.known
    cases hr : k.relation with
    | co =>
      rw [hr] at hlisted
      exact Or.inl (hsound _ _ hlisted)
    | adjacent =>
      rw [hr] at hlisted
      exact Or.inr ((hadjacent _ _).1 hlisted)
  -- line by line, the text comes to the constraints of its groups
  have hread : ofText d file text = .ok (none.addAll (groups.flatMap Group.constraints)) := by
    rw [addAll, List.foldl_flatMap]
    refine hlayout.foldLines_eq ?_ (fun n x line h => by rw [Interference.readLine, if_pos h]) ?_
    · intro n x l l' hl
      rw [Interference.readLine, Interference.readLine, isRemark, isRemark, hl]
    · intro k hk ws hws n x line hline
      obtain ⟨t, ht⟩ := hws.exists_mem
      exact readLine_of_holds hd hws (hknown k hk t ht).1 (fun t ht => (hknown k hk t ht).2) hline
  refine ⟨_, hread, fun s t => ⟨?_, ?_⟩⟩
  · -- a pair that is listed in either direction is recorded in both
    refine (has_addAll (q := .co)).trans ⟨?_, fun hst => ?_⟩
    · rintro (⟨a, b, hlisted, -, ⟨rfl, rfl⟩ | ⟨rfl, rfl⟩⟩ | hst)
      · exact hsound _ _ hlisted
      · exact hrelations.symm _ _ (hsound _ _ hlisted)
      · exact absurd hst not_has_none
    · have hne : s ≠ t := by
        rintro rfl
        exact hrelations.irrefl s hst
      rcases hcomplete s t hst with hlisted | hlisted
      · exact Or.inl ⟨s, t, hlisted, hne, Or.inl ⟨rfl, rfl⟩⟩
      · exact Or.inl ⟨t, s, hlisted, hne.symm, Or.inr ⟨rfl, rfl⟩⟩
  · refine (has_addAll (q := .adjacent)).trans ⟨?_, fun hst => ?_⟩
    · rintro (⟨a, b, hlisted, rfl, rfl⟩ | hst)
      · exact (hadjacent _ _).1 hlisted
      · exact absurd hst not_has_none
    · exact Or.inl ⟨s, t, (hadjacent s t).2 hst, rfl, rfl⟩

end Reading

/-- From texts that list the stations of a dataset and the constraints among them, in whatever
layout, reading makes the dataset.  From whatever text interference is read, it is among stations of
the dataset, and sharing a channel concerns two stations alike. -/
theorem ofText_of_written :
    (∀ (d : Domains) (co adjacent : StationId → StationId → Prop) (stations constraints : List Char)
        (domainFile file : Path), d.InRange → AreAmong co adjacent d → d.IsWrittenAs stations →
        AreWrittenAs co adjacent constraints →
        Domains.ofText domainFile stations = .ok d ∧
          ∃ x, ofText d file constraints = .ok x ∧ ∀ s t,
            (t ∈ x.coStations s ↔ co s t) ∧ (t ∈ x.adjacentStations s ↔ adjacent s t)) ∧
      ∀ (d : Domains) (file : Path) (text : List Char) (x : Interference),
        ofText d file text = .ok x → ∀ s t,
          (t ∈ x.coStations s ∨ t ∈ x.adjacentStations s →
            d.contains s = true ∧ d.contains t = true) ∧
          (t ∈ x.coStations s → s ∈ x.coStations t) ∧ ¬ s ∈ x.coStations s := by
  refine ⟨fun d co adjacent stations constraints domainFile file hd hrelations hs hc => ?_,
    fun d file text x h s t => ⟨?_, x.co_symm, x.co_irrefl⟩⟩
  · exact ⟨Domains.ofText_of_isWrittenAs hd hs, ofText_of_areWrittenAs hd hrelations hc⟩
  · rintro (hst | hst)
    · exact among_ofText h .co s t hst
    · exact among_ofText h .adjacent s t hst

/-- Two stations, of which one has channels. -/
def pairDomains : Domains :=
  SortedMap.ofList [(1, SortedSet.ofList [14, -3]), (2, SortedSet.empty)]

/-- The stations of the pair may not share a channel. -/
def PairCo (s t : StationId) : Prop := (s = 1 ∧ t = 2) ∨ (s = 2 ∧ t = 1)

/-- The first station of the pair keeps itself off the channel above its own. -/
def PairAdjacent (s t : StationId) : Prop := s = 1 ∧ t = 1

theorem pairDomains_get? {s : StationId} {D : SortedSet Channel}
    (h : pairDomains.get? s = some D) :
    (s = 1 ∧ D = SortedSet.ofList [14, -3]) ∨ (s = 2 ∧ D = SortedSet.empty) := by
  obtain h | h := SortedMap.mem_of_get?_insertMany h
  · simpa using h
  · cases h

theorem pairDomains_inRange : pairDomains.InRange := by
  refine ⟨fun s hs => ?_, fun s D hD c hc => ?_⟩
  · obtain ⟨D, hD⟩ := SortedMap.contains_iff.1 hs
    obtain ⟨rfl, -⟩ | ⟨rfl, -⟩ := pairDomains_get? hD <;> decide
  · obtain ⟨-, rfl⟩ | ⟨-, rfl⟩ := pairDomains_get? hD
    · rw [SortedSet.mem_ofList] at hc
      revert c
      decide
    · exact absurd hc SortedSet.not_mem_empty

theorem pair_areAmong : AreAmong PairCo PairAdjacent pairDomains := by
  refine ⟨?_, ?_, ?_⟩
  · rintro s t (⟨rfl, rfl⟩ | ⟨rfl, rfl⟩)
    · exact Or.inr ⟨rfl, rfl⟩
    · exact Or.inl ⟨rfl, rfl⟩
  · rintro s (⟨rfl, h⟩ | ⟨rfl, h⟩) <;> exact absurd h (by decide)
  · rintro s t ((⟨rfl, rfl⟩ | ⟨rfl, rfl⟩) | ⟨rfl, rfl⟩) <;> decide

/-- The stations are listed in the wrong order, with blanks and a field too many. -/
theorem pairDomains_isWrittenAs :
    pairDomains.IsWrittenAs "# pair\n\t domain , 2,\n\n1,14,,-3 ,14\r\n".toList := by
  refine ⟨[(2, []), (1, [14, -3, 14])],
    ⟨["# pair".toList, "\t domain , 2,".toList, [], "1,14,,-3 ,14\r".toList, []], ?_, ?_, ?_⟩,
    ?_, ?_⟩
  · refine .remark ⟨[], _, rfl, isGap_nil, Or.inr rfl⟩ ?_
    have hfirst : Holds "\t domain , 2,".toList
        ("domain".toList :: Numeral.ofNat 2 :: [].map Numeral.ofInt) :=
      ⟨_, .field (l := "\t ".toList) (r := [' ']) (by decide) (by decide) <|
        .field (l := [' ']) (by decide) isGap_nil <| .gap isGap_nil .nil, by decide⟩
    have hsecond : Holds "1,14,,-3 ,14\r".toList
        (Numeral.ofNat 1 :: [14, -3, 14].map Numeral.ofInt) :=
      ⟨_, .bare <| .bare <| .gap isGap_nil <| .field (r := [' ']) isGap_nil (by decide) <|
        .field (r := ['\r']) isGap_nil (by decide) .nil, by decide⟩
    have htag : IsTag "DOMAIN" "domain".toList := by decide
    have hblank : IsRemarkLine [] := ⟨[], [], rfl, isGap_nil, Or.inl rfl⟩
    exact .item hfirst (.tagged htag) <| .remark hblank <| .item hsecond .untagged <|
      .remark hblank .nil
  · decide
  · decide
  · decide
  · intro s cs D hmem hD c
    simp only [List.mem_cons, Prod.mk.injEq, List.not_mem_nil, or_false] at hmem
    rcases hmem with ⟨rfl, rfl⟩ | ⟨rfl, rfl⟩
    · obtain ⟨h, -⟩ | ⟨-, rfl⟩ := pairDomains_get? hD
      · exact absurd h (by decide)
      · simp [SortedSet.not_mem_empty]
    · obtain ⟨-, rfl⟩ | ⟨h, -⟩ := pairDomains_get? hD
      · have hsame : [(14 : Channel), -3, 14] ⊆ [14, -3] ∧ [(14 : Channel), -3] ⊆ [14, -3, 14] := by
          decide
        rw [SortedSet.mem_ofList]
        exact ⟨fun hc => hsame.1 hc, fun hc => hsame.2 hc⟩
      · exact absurd h (by decide)

/-- Two stations that may not share a channel are listed twice, but in one direction only. -/
theorem pair_areWrittenAs :
    AreWrittenAs PairCo PairAdjacent "co,2,,1,1\n # and above\nAdj+1 ,1,1".toList := by
  have hco : Holds "co,2,,1,1".toList ("co".toList :: [2, 1, 1].map Numeral.ofNat) :=
    ⟨_, .bare <| .bare <| .gap isGap_nil <| .bare <| .bare .nil, by decide⟩
  have hadjacent : Holds "Adj+1 ,1,1".toList ("Adj+1".toList :: [1, 1].map Numeral.ofNat) :=
    ⟨_, .field (r := [' ']) isGap_nil (by decide) <| .bare <| .bare .nil, by decide⟩
  have hremark : IsRemarkLine " # and above".toList :=
    ⟨[' '], "# and above".toList, rfl, by decide, Or.inr rfl⟩
  have hcoTag : IsTag Relation.co.tag "co".toList := by decide
  have hadjacentTag : IsTag Relation.adjacent.tag "Adj+1".toList := by decide
  refine ⟨[⟨.co, 2, [1, 1]⟩, ⟨.adjacent, 1, [1]⟩],
    ⟨["co,2,,1,1".toList, " # and above".toList, "Adj+1 ,1,1".toList], ?_, by decide, by decide⟩,
    ?_⟩
  · exact .item hco ⟨_, hcoTag, by decide, rfl⟩ <| .remark hremark <|
      .item hadjacent ⟨_, hadjacentTag, by decide, rfl⟩ .nil
  · have hlisted : ∀ r s t, (r, s, t) ∈ [(⟨.co, 2, [1, 1]⟩ : Group), ⟨.adjacent, 1, [1]⟩].flatMap
        Group.constraints ↔ (r = .co ∧ s = 2 ∧ t = 1) ∨ (r = .adjacent ∧ s = 1 ∧ t = 1) := by
      simp [Group.constraints]
    simp only [hlisted, reduceCtorEq, true_and, false_and, false_or, or_false]
    refine ⟨fun s t => Or.inr, fun s t hst => ?_, fun s t => Iff.rfl⟩
    rcases hst with ⟨rfl, rfl⟩ | ⟨rfl, rfl⟩
    · exact Or.inr ⟨rfl, rfl⟩
    · exact Or.inl ⟨rfl, rfl⟩

/-- Both texts of the pair are read. -/
theorem ofText_of_written_pair :
    let stations := "# pair\n\t domain , 2,\n\n1,14,,-3 ,14\r\n".toList
    let constraints := "co,2,,1,1\n # and above\nAdj+1 ,1,1".toList
    (pairDomains.InRange ∧ AreAmong PairCo PairAdjacent pairDomains ∧
        pairDomains.IsWrittenAs stations ∧ AreWrittenAs PairCo PairAdjacent constraints) ∧
      Domains.ofText ⟨"domains.csv"⟩ stations = .ok pairDomains ∧
        ∃ x, ofText pairDomains ⟨"interference.csv"⟩ constraints = .ok x ∧
          2 ∈ x.coStations 1 ∧ 1 ∈ x.adjacentStations 1 ∧ ¬ 2 ∈ x.adjacentStations 1 ∧
            pairDomains.contains 2 = true ∧ 1 ∈ x.coStations 2 := by
  intro stations constraints
  have hall : pairDomains.InRange ∧ AreAmong PairCo PairAdjacent pairDomains ∧
      pairDomains.IsWrittenAs stations ∧ AreWrittenAs PairCo PairAdjacent constraints :=
    ⟨pairDomains_inRange, pair_areAmong, pairDomains_isWrittenAs, pair_areWrittenAs⟩
  refine ⟨hall, ?_⟩
  obtain ⟨hinRange, hamong, hstations, hconstraints⟩ := hall
  obtain ⟨hd, x, hx, hrelations⟩ := ofText_of_written.1 pairDomains PairCo PairAdjacent stations
    constraints ⟨"domains.csv"⟩ ⟨"interference.csv"⟩ hinRange hamong hstations hconstraints
  have hco : 2 ∈ x.coStations 1 := (hrelations 1 2).1.2 (Or.inl ⟨rfl, rfl⟩)
  obtain ⟨hknown, hsymm, -⟩ := ofText_of_written.2 pairDomains _ _ x hx 1 2
  refine ⟨hd, x, hx, hco, (hrelations 1 1).2.2 ⟨rfl, rfl⟩, fun h => ?_, (hknown (Or.inl hco)).2,
    hsymm hco⟩
  exact absurd ((hrelations 1 2).2.1 h).2 (by decide)

end Interference

end SpectrumPacking
