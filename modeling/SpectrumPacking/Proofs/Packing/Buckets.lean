import Mathlib.Data.List.Induction
import Mathlib.Order.Bounds.Basic
import SpectrumPacking.Proofs.Encoding.Decoding
import SpectrumPacking.Proofs.Packing.SubProblems

/-!
# Buckets and Placements

A packing is listed by channel or by station.  Listing an assignment by station keeps, of a station
in several buckets, the last entry, which is that with the largest channel
(`Assignment.on_placement_iff`); listing a placement by channel makes an assignment in normal form.
So the two views amount to the same for placements and for assignments in normal form, and for no
other assignments.

The main statement is `Assignment.lossless_on_normal_forms`, which adds that decoding a model
and merging the result with stations that stay lead to assignments in normal form only.
-/

namespace SpectrumPacking

/-! ## §1 Last Entries -/

section LastEntries

universe u v

variable {κ : Type u} {ν : Type v} [DecidableEq κ] [LE κ] [LT κ] [DecidableLT κ]
  [Std.IsLinearOrder κ] [Std.LawfulOrderLT κ] [PartialOrder ν] {l : List (κ × ν)} {k : κ} {v : ν}

omit [DecidableEq κ] [PartialOrder ν] in
theorem SortedMap.ofList_concat {e : κ × ν} :
    SortedMap.ofList (l ++ [e]) = (SortedMap.ofList l).insert e.1 e.2 := by
  simp [SortedMap.ofList, SortedMap.insertMany]

/-- If the values of a list do not decrease, the map of the list holds the greatest value of each
key. -/
theorem SortedMap.get?_ofList_iff_isGreatest (hl : l.Pairwise fun e e' => e.2 ≤ e'.2) :
    (SortedMap.ofList l).get? k = some v ↔ IsGreatest {w | (k, w) ∈ l} v := by
  induction l using List.reverseRecOn with
  | nil =>
    apply iff_of_false
    · exact nofun
    · exact fun h => absurd h.1 (List.not_mem_nil)
  | append_singleton l e ih =>
    obtain ⟨hfront, -, hlast⟩ := List.pairwise_append.1 hl
    rw [SortedMap.ofList_concat, SortedMap.get?_insert]
    split
    · -- the last entry is one of this key, and so its value is the greatest
      rename_i hk
      have hgreatest : IsGreatest {w | (k, w) ∈ l ++ [e]} e.2 := by
        constructor
        · simp [← hk]
        · intro w hw
          rcases List.mem_append.1 hw with hw | hw
          · exact hlast (k, w) hw e (List.mem_singleton_self e)
          · rw [← List.mem_singleton.1 hw]
      rw [Option.some.injEq]
      exact ⟨fun h => h ▸ hgreatest, fun h => hgreatest.unique h⟩
    · rename_i hk
      have hsame : {w | (k, w) ∈ l ++ [e]} = {w | (k, w) ∈ l} := by
        ext w
        have hne : ¬ (k, w) = e := fun h => hk (h ▸ rfl)
        simp [hne]
      rw [hsame]
      exact ih hfront

end LastEntries

namespace Assignment

variable {a : Assignment} {m fixed : Placement} {s : StationId} {c : Channel}

/-! ## §2 Listing by Station -/

/-- Entries are listed bucket after bucket, in the order of their channels. -/
theorem pairwise_entries : a.entries.Pairwise fun e e' => e.2 ≤ e'.2 := by
  rw [entries, List.pairwise_flatMap]
  constructor
  · rintro ⟨c, bucket⟩ -
    rw [List.pairwise_map]
    exact List.Pairwise.imp (fun _ => Int.le_refl c) bucket.increasing
  · refine a.increasing.imp ?_
    rintro ⟨c, bucket⟩ ⟨d, bucket'⟩ hcd e he e' he'
    obtain ⟨s, -, rfl⟩ := List.mem_map.1 he
    obtain ⟨s', -, rfl⟩ := List.mem_map.1 he'
    exact Int.le_of_lt hcd

/-- Of a station in several buckets the largest channel counts. -/
theorem on_placement_iff : a.placement.On s c ↔ IsGreatest {d | a.On s d} c := by
  rw [Placement.On, placement_eq, SortedMap.get?_ofList_iff_isGreatest pairwise_entries]
  simp only [mem_entries]

/-- A station in some bucket is listed. -/
theorem exists_on_placement (h : a.On s c) : ∃ d, a.placement.On s d :=
  SortedMap.exists_get?_insertMany (Or.inl ⟨c, mem_entries.2 h⟩)

theorem get?_placement_eq_none_iff : a.placement.get? s = none ↔ ∀ c, ¬ a.On s c := by
  constructor
  · intro h c hc
    obtain ⟨d, hd⟩ := exists_on_placement hc
    cases h.symm.trans hd
  · intro h
    cases hs : a.placement.get? s with
    | none => rfl
    | some c => exact absurd (on_placement_iff.1 hs).1 (h c)

/-! ## §3 There and Back -/

/-- Placements are listed by channel and back without a loss. -/
theorem placement_ofPlacement : (ofPlacement m).placement = m := by
  apply SortedMap.ext
  intro s
  apply Option.ext
  intro c
  exact (placement_on isNormal_ofPlacement).trans on_ofPlacement

/-- Assignments are listed by station and back without a loss if they are in normal form, and only
then. -/
theorem ofPlacement_placement_iff : ofPlacement a.placement = a ↔ a.IsNormal := by
  constructor
  · intro h
    exact h ▸ isNormal_ofPlacement
  · intro h
    apply isNormal_ofPlacement.ext h
    intro s c
    exact on_ofPlacement.trans (placement_on h)

/-- Listing by channel and listing by station undo one another on placements and on assignments in
normal form, and on no other assignments, where only the largest channel of a station is kept.  What
is decoded is in normal form; so is what it is merged to with other stations, such as those that
stay while the rest is packed around them. -/
theorem lossless_on_normal_forms :
    (∀ m : Placement, (ofPlacement m).placement = m) ∧
      (∀ (a : Assignment) (s : StationId),
        (∀ c, a.placement.get? s = some c ↔ IsGreatest {d | a.On s d} c) ∧
          (a.placement.get? s = none ↔ ∀ c, ¬ a.On s c)) ∧
      (∀ a : Assignment, ofPlacement a.placement = a ↔ a.IsNormal) ∧
      ∀ (r : Problem) (l : List Literal) (a : Assignment), r.decode l = .ok a →
        a.IsNormal ∧
          (∀ fixed : Placement, (∀ s c d, fixed.On s c → ¬ a.On s d) →
            (a.merge fixed).IsNormal) ∧
          ∀ (p : Problem) (x : Interference) (t : SortedSet StationId) (fixed : Placement),
            p.around? x t = some (r, fixed) →
              (∀ s c d, fixed.On s c → ¬ a.On s d) ∧ (a.merge fixed).IsNormal := by
  refine ⟨fun m => placement_ofPlacement, ?_, fun a => ofPlacement_placement_iff, ?_⟩
  · intro a s
    exact ⟨fun c => on_placement_iff, get?_placement_eq_none_iff⟩
  · intro r l a h
    have ha : r.IsSeating a := Problem.isSeating_of_decode h
    refine ⟨ha.normal, fun fixed hs => ha.normal.merge hs, ?_⟩
    intro p x t fixed haround
    have hs : ∀ s c d, fixed.On s c → ¬ a.On s d :=
      fun s c d => Problem.not_on_of_around? haround ha
    exact ⟨hs, ha.normal.merge hs⟩

/-- A station in two buckets next to an empty bucket: listing it by station loses both. -/
example :
    let a : Assignment := SortedMap.ofList
      [(14, SortedSet.ofList [1]), (15, SortedSet.ofList [1, 2]), (16, SortedSet.empty)]
    a.placement = SortedMap.ofList [(1, 15), (2, 15)] ∧
      ofPlacement a.placement = SortedMap.ofList [(15, SortedSet.ofList [1, 2])] := by
  decide

/-- Three stations, two of which stood on channels that they may keep. -/
def partlySettled : Problem :=
  Problem.ofDomains (SortedMap.ofList [(1, SortedSet.ofList [14, 15]), (2, SortedSet.ofList [15]),
    (3, SortedSet.ofList [15, 16])]) (SortedMap.ofList [(2, 15), (3, 16)])

theorem lossless_on_normal_forms_partlySettled :
    let fixed : Placement := SortedMap.ofList [(2, 15), (3, 16)]
    let a : Assignment := SortedMap.ofList [(15, SortedSet.ofList [1])]
    let r := Problem.ofDomains (SortedMap.ofList [(1, SortedSet.ofList [14, 15])]) fixed
    partlySettled.around? Interference.none (SortedSet.ofList [1]) = some (r, fixed) ∧
      r.decode [-1, 2] = .ok a ∧ a.IsNormal ∧ (a.merge fixed).IsNormal ∧
      a.merge fixed
        = SortedMap.ofList [(15, SortedSet.ofList [1, 2]), (16, SortedSet.ofList [3])] := by
  intro fixed a r
  have haround : partlySettled.around? Interference.none (SortedSet.ofList [1])
      = some (r, fixed) := by decide +kernel
  have hdecode : r.decode [-1, 2] = .ok a := by decide +kernel
  obtain ⟨-, -, -, hnormal⟩ := lossless_on_normal_forms
  obtain ⟨ha, -, hmerged⟩ := hnormal r [-1, 2] a hdecode
  exact ⟨haround, hdecode, ha, (hmerged _ _ _ fixed haround).2, by decide +kernel⟩

end Assignment

end SpectrumPacking
