import SpectrumPacking.Collection.SortedSet

/-!
# Sorted Maps

Finite maps from a linearly ordered key type, kept as entry lists with strictly increasing keys.
A map is determined by its lookups (`SortedMap.ext`), and each operation has one lookup lemma.
-/

namespace SpectrumPacking

universe u v w

/-! ## §1 Entry Lists -/

section Lists

variable {κ : Type u} {ν : Type v}

/-- The value stored under `k` in an entry list. -/
def lookupEntry [DecidableEq κ] (k : κ) : List (κ × ν) → Option ν
  | [] => none
  | (j, v) :: rest => if j = k then some v else lookupEntry k rest

theorem lookupEntry_eq_none_iff [DecidableEq κ] {k : κ} {l : List (κ × ν)} :
    lookupEntry k l = none ↔ ∀ e ∈ l, e.1 ≠ k := by
  induction l with
  | nil => simp [lookupEntry]
  | cons e rest ih =>
    rcases e with ⟨j, v⟩
    rw [lookupEntry]
    split
    · rename_i h; simp [h]
    · rename_i h; simp [h, ih]

variable [LE κ] [LT κ] [DecidableLT κ] [Std.IsLinearOrder κ] [Std.LawfulOrderLT κ]

/-- Stores `v` under `k`, replacing the value that stands there. -/
def insertEntry (k : κ) (v : ν) : List (κ × ν) → List (κ × ν)
  | [] => [(k, v)]
  | (j, w) :: rest =>
    if k < j then (k, v) :: (j, w) :: rest
    else if j < k then (j, w) :: insertEntry k v rest
    else (k, v) :: rest

omit [LE κ] [Std.IsLinearOrder κ] [Std.LawfulOrderLT κ] in
theorem fst_mem_insertEntry {k : κ} {v : ν} {l : List (κ × ν)} {e : κ × ν}
    (h : e ∈ insertEntry k v l) : e = (k, v) ∨ e ∈ l := by
  induction l with
  | nil => simpa [insertEntry] using h
  | cons d rest ih =>
    rcases d with ⟨j, w⟩
    rw [insertEntry] at h
    split at h
    · simpa using h
    · split at h
      · rcases List.mem_cons.1 h with h | h
        · simp [h]
        · rcases ih h with h | h <;> simp [h]
      · rcases List.mem_cons.1 h with h | h <;> simp [h]

theorem pairwise_insertEntry {k : κ} {v : ν} {l : List (κ × ν)}
    (h : l.Pairwise (fun a b => a.1 < b.1)) :
    (insertEntry k v l).Pairwise (fun a b => a.1 < b.1) := by
  induction l with
  | nil => simp [insertEntry]
  | cons d rest ih =>
    rcases d with ⟨j, w⟩
    rw [List.pairwise_cons] at h
    rw [insertEntry]
    split
    -- the entry goes in front, below all others
    · rename_i hkj
      refine List.pairwise_cons.2 ⟨?_, List.pairwise_cons.2 h⟩
      intro e he
      rcases List.mem_cons.1 he with rfl | he
      · exact hkj
      · exact Std.lt_trans hkj (h.1 e he)
    · split
      -- it goes further back, and the first entry stays the least
      · rename_i hjk
        refine List.pairwise_cons.2 ⟨?_, ih h.2⟩
        intro e he
        rcases fst_mem_insertEntry he with rfl | he
        · exact hjk
        · exact h.1 e he
      · rename_i hkj hjk
        have hk : k = j := Std.le_antisymm (Std.not_lt.1 hjk) (Std.not_lt.1 hkj)
        subst hk
        exact List.pairwise_cons.2 h

theorem lookupEntry_insertEntry [DecidableEq κ] {k i : κ} {v : ν} {l : List (κ × ν)} :
    lookupEntry i (insertEntry k v l) = if k = i then some v else lookupEntry i l := by
  induction l with
  | nil => simp [insertEntry, lookupEntry]
  | cons d rest ih =>
    rcases d with ⟨j, w⟩
    rw [insertEntry]
    split
    · rfl
    · split
      · rename_i hjk
        -- the entry goes further back; the first key is another one than the new key
        simp only [lookupEntry, ih]
        split
        · rename_i hji
          subst hji
          split
          · rename_i hkj; subst hkj; exact absurd hjk Std.lt_irrefl
          · rfl
        · rfl
      · rename_i hkj hjk
        have hk : k = j := Std.le_antisymm (Std.not_lt.1 hjk) (Std.not_lt.1 hkj)
        subst hk
        simp only [lookupEntry]
        split <;> rfl

end Lists

/-! ## §2 The Type and Its Operations -/

/-- A finite map, listed by strictly increasing keys. -/
structure SortedMap (κ : Type u) (ν : Type v) [LT κ] where
  /-- The entries from the least key to the greatest. -/
  toList : List (κ × ν)
  /-- The keys are strictly increasing, so no key has two values. -/
  increasing : toList.Pairwise (fun a b => a.1 < b.1)

namespace SortedMap

section Basic

variable {κ : Type u} {ν : Type v} {ω : Type w} [LT κ]

instance [DecidableEq κ] [DecidableEq ν] : DecidableEq (SortedMap κ ν) := fun s t =>
  if h : s.toList = t.toList then
    isTrue (by cases s; cases t; cases h; rfl)
  else
    isFalse fun hst => h (hst ▸ rfl)

instance [Repr κ] [Repr ν] : Repr (SortedMap κ ν) := ⟨fun m n => reprPrec m.toList n⟩

/-- The map without entries. -/
def empty : SortedMap κ ν := ⟨[], .nil⟩

instance : EmptyCollection (SortedMap κ ν) := ⟨empty⟩
instance : Inhabited (SortedMap κ ν) := ⟨empty⟩

/-- The value stored under `k`, if there is one. -/
def get? [DecidableEq κ] (m : SortedMap κ ν) (k : κ) : Option ν := lookupEntry k m.toList

/-- Whether a value is stored under `k`. -/
def contains [DecidableEq κ] (m : SortedMap κ ν) (k : κ) : Bool := (m.get? k).isSome

/-- The keys in increasing order. -/
def keys (m : SortedMap κ ν) : List κ := m.toList.map (·.1)

/-- The values in the order of their keys. -/
def values (m : SortedMap κ ν) : List ν := m.toList.map (·.2)

/-- The number of entries. -/
def size (m : SortedMap κ ν) : Nat := m.toList.length

/-- Whether there is no entry. -/
def isEmpty (m : SortedMap κ ν) : Bool := m.toList.isEmpty

/-- The entries that pass the test `p`. -/
def filter (p : κ → ν → Bool) (m : SortedMap κ ν) : SortedMap κ ν :=
  ⟨m.toList.filter fun e => p e.1 e.2, m.increasing.filter _⟩

/-- Applies `f` to every value. -/
def map (f : κ → ν → ω) (m : SortedMap κ ν) : SortedMap κ ω :=
  ⟨m.toList.map fun e => (e.1, f e.1 e.2), List.pairwise_map.2 m.increasing⟩

/-- The keys as a set. -/
def keySet (m : SortedMap κ ν) : SortedSet κ := ⟨m.keys, List.pairwise_map.2 m.increasing⟩

end Basic

section Ordered

variable {κ : Type u} {ν : Type v}
variable [LE κ] [LT κ] [DecidableLT κ] [Std.IsLinearOrder κ] [Std.LawfulOrderLT κ]

/-- Stores `v` under `k`, replacing the value that stands there. -/
def insert (m : SortedMap κ ν) (k : κ) (v : ν) : SortedMap κ ν :=
  ⟨insertEntry k v m.toList, pairwise_insertEntry m.increasing⟩

/-- Stores every entry of a list, one after another. -/
def insertMany (m : SortedMap κ ν) (l : List (κ × ν)) : SortedMap κ ν :=
  l.foldl (fun n e => n.insert e.1 e.2) m

/-- The map of an entry list; of several entries with one key the last counts. -/
def ofList (l : List (κ × ν)) : SortedMap κ ν := insertMany empty l

/-- Replaces the value under `k` by its image; `init` stands for a missing value. -/
def update [DecidableEq κ] (m : SortedMap κ ν) (k : κ) (init : ν) (f : ν → ν) : SortedMap κ ν :=
  m.insert k (f ((m.get? k).getD init))

end Ordered

/-! ## §3 Lookups -/

section Lemmas

variable {κ : Type u} {ν : Type v} {ω : Type w} [LT κ] [DecidableEq κ]

@[simp] theorem get?_empty {k : κ} : (empty : SortedMap κ ν).get? k = none := rfl

theorem contains_iff {m : SortedMap κ ν} {k : κ} : m.contains k = true ↔ ∃ v, m.get? k = some v :=
  Option.isSome_iff_exists

theorem get?_eq_none_iff {m : SortedMap κ ν} {k : κ} : m.get? k = none ↔ ¬ k ∈ m.keys := by
  simp only [get?, lookupEntry_eq_none_iff, keys, List.mem_map, not_exists, not_and]

@[simp] theorem mem_keySet {m : SortedMap κ ν} {k : κ} : k ∈ m.keySet ↔ m.contains k = true := by
  rw [contains, Option.isSome_iff_ne_none, ne_eq, get?_eq_none_iff, Decidable.not_not]
  exact Iff.rfl

theorem get?_map {f : κ → ν → ω} {m : SortedMap κ ν} {k : κ} :
    (m.map f).get? k = (m.get? k).map (f k) := by
  rcases m with ⟨l, h⟩
  simp only [get?, map]
  clear h
  induction l with
  | nil => rfl
  | cons e rest ih =>
    simp only [List.map_cons, lookupEntry]
    split
    · rename_i h; subst h; rfl
    · exact ih

end Lemmas

section OrderedLemmas

variable {κ : Type u} {ν : Type v} [DecidableEq κ]
variable [LE κ] [LT κ] [Std.IsLinearOrder κ] [Std.LawfulOrderLT κ]

omit [Std.IsLinearOrder κ] in
theorem get?_eq_some_iff {m : SortedMap κ ν} {k : κ} {v : ν} :
    m.get? k = some v ↔ (k, v) ∈ m.toList := by
  rcases m with ⟨l, h⟩
  simp only [get?]
  induction l with
  | nil => simp [lookupEntry]
  | cons e rest ih =>
    rcases e with ⟨j, w⟩
    rw [List.pairwise_cons] at h
    rw [lookupEntry]
    split
    · rename_i hjk
      -- keys increase, so the key of the first entry does not come again
      subst hjk
      simp only [Option.some.injEq, List.mem_cons, Prod.mk.injEq, true_and]
      constructor
      · intro h'; exact Or.inl h'.symm
      · rintro (h' | h')
        · exact h'.symm
        · exact absurd (h.1 _ h') Std.lt_irrefl
    · rename_i hjk
      rw [ih h.2]
      simp only [List.mem_cons, Prod.mk.injEq]
      constructor
      · exact Or.inr
      · rintro (h' | h')
        · exact absurd h'.1.symm hjk
        · exact h'

omit [Std.IsLinearOrder κ] in
theorem get?_filter {p : κ → ν → Bool} {m : SortedMap κ ν} {k : κ} :
    (m.filter p).get? k = (m.get? k).filter (p k) := by
  cases hg : (m.filter p).get? k with
  | some v =>
    rw [get?_eq_some_iff, filter, List.mem_filter] at hg
    rw [get?_eq_some_iff.2 hg.1, Option.filter_some, if_pos hg.2]
  | none =>
    cases hm : m.get? k with
    | none => rfl
    | some v =>
      rw [Option.filter_some]
      split
      · rename_i hp
        have : (m.filter p).get? k = some v :=
          get?_eq_some_iff.2 (List.mem_filter.2 ⟨get?_eq_some_iff.1 hm, hp⟩)
        rw [hg] at this
        exact absurd this (by simp)
      · rfl

/-- Maps with the same lookups are equal. -/
theorem ext {m n : SortedMap κ ν} (h : ∀ k, m.get? k = n.get? k) : m = n := by
  rcases m with ⟨l, hl⟩
  rcases n with ⟨r, hr⟩
  suffices l = r by subst this; rfl
  -- it is enough that the lists have the same entries, as both are increasing
  have hmem : ∀ e, e ∈ l ↔ e ∈ r := by
    intro ⟨k, v⟩
    rw [← get?_eq_some_iff (m := ⟨l, hl⟩), ← get?_eq_some_iff (m := ⟨r, hr⟩), h]
  clear h
  induction l generalizing r with
  | nil =>
    cases r with
    | nil => rfl
    | cons b r => exact absurd ((hmem b).2 (by simp)) (by simp)
  | cons a l ih =>
    cases r with
    | nil => exact absurd ((hmem a).1 (by simp)) (by simp)
    | cons b r =>
      rw [List.pairwise_cons] at hl hr
      -- both start with the least entry
      have hab : a = b := by
        rcases List.mem_cons.1 ((hmem a).1 (by simp)) with h | h
        · exact h
        · rcases List.mem_cons.1 ((hmem b).2 (by simp)) with h' | h'
          · exact h'.symm
          · exact absurd (Std.lt_trans (hr.1 a h) (hl.1 b h')) Std.lt_irrefl
      subst hab
      congr 1
      refine ih hl.2 r hr.2 fun e => ?_
      constructor
      · intro he
        rcases List.mem_cons.1 ((hmem e).1 (List.mem_cons_of_mem a he)) with rfl | he'
        · exact absurd (hl.1 _ he) Std.lt_irrefl
        · exact he'
      · intro he
        rcases List.mem_cons.1 ((hmem e).2 (List.mem_cons_of_mem a he)) with rfl | he'
        · exact absurd (hr.1 _ he) Std.lt_irrefl
        · exact he'

variable [DecidableLT κ]

@[simp] theorem get?_insert {m : SortedMap κ ν} {k i : κ} {v : ν} :
    (m.insert k v).get? i = if k = i then some v else m.get? i :=
  lookupEntry_insertEntry

@[simp] theorem get?_update {m : SortedMap κ ν} {k i : κ} {init : ν} {f : ν → ν} :
    (m.update k init f).get? i
      = if k = i then some (f ((m.get? k).getD init)) else m.get? i := by
  simp [update]

/-- A value that is stored under a new key is one more value. -/
theorem values_insert_perm {m : SortedMap κ ν} {k : κ} {v : ν} (h : m.get? k = none) :
    (m.insert k v).values.Perm (v :: m.values) := by
  rcases m with ⟨l, hl⟩
  replace h : lookupEntry k l = none := h
  show ((insertEntry k v l).map (·.2)).Perm (v :: l.map (·.2))
  clear hl
  induction l with
  | nil => exact .refl _
  | cons e rest ih =>
    rcases e with ⟨j, w⟩
    rw [lookupEntry] at h
    split at h
    · cases h
    · rename_i hjk
      rw [insertEntry]
      split
      · exact .refl _
      · split
        · exact ((ih h).cons w).trans (.swap v w _)
        · rename_i hkj hjk'
          exact absurd (Std.le_antisymm (Std.not_lt.1 hkj) (Std.not_lt.1 hjk')) hjk

theorem mem_of_get?_insertMany {m : SortedMap κ ν} {l : List (κ × ν)} {k : κ} {v : ν}
    (h : (m.insertMany l).get? k = some v) : (k, v) ∈ l ∨ m.get? k = some v := by
  induction l generalizing m with
  | nil => exact Or.inr h
  | cons e l ih =>
    obtain hl | hm := ih h
    · exact Or.inl (List.mem_cons_of_mem e hl)
    · rw [get?_insert] at hm
      split at hm
      · rename_i hk
        cases hm
        exact Or.inl (by simp [← hk])
      · exact Or.inr hm

theorem exists_get?_insertMany {m : SortedMap κ ν} {l : List (κ × ν)} {k : κ}
    (h : (∃ v, (k, v) ∈ l) ∨ ∃ v, m.get? k = some v) : ∃ v, (m.insertMany l).get? k = some v := by
  induction l generalizing m with
  | nil =>
    obtain ⟨v, hv⟩ | hm := h
    · cases hv
    · exact hm
  | cons e l ih =>
    -- later entries may replace the value, but do not remove it
    apply ih
    rw [get?_insert]
    split
    · exact Or.inr ⟨e.2, rfl⟩
    · rename_i hk
      obtain ⟨v, hv⟩ | hm := h
      · obtain rfl | hl := List.mem_cons.1 hv
        · exact absurd rfl hk
        · exact Or.inl ⟨v, hl⟩
      · exact Or.inr hm

/-- The map of an entry list in which no key has two values holds exactly the entries. -/
theorem get?_ofList_iff {l : List (κ × ν)} (hl : ∀ k v w, (k, v) ∈ l → (k, w) ∈ l → v = w)
    {k : κ} {v : ν} : (ofList l).get? k = some v ↔ (k, v) ∈ l := by
  constructor
  · intro h
    obtain h | h := mem_of_get?_insertMany h
    · exact h
    · cases h
  · intro h
    obtain ⟨w, hw⟩ := exists_get?_insertMany (m := empty) (Or.inl ⟨v, h⟩)
    have hmem : (k, w) ∈ l := by
      obtain hw | hw := mem_of_get?_insertMany hw
      · exact hw
      · cases hw
    rw [hl k v w h hmem]
    exact hw

end OrderedLemmas

end SortedMap

end SpectrumPacking
