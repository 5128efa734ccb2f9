/-!
# Sorted Sets

Finite sets of a linearly ordered type, kept as strictly increasing lists.  Two sets with the
same members are equal, so a set has one listing and answers that show it have one order.

The main statements are `SortedSet.ext`, and one membership lemma for each operation.
-/

namespace SpectrumPacking

universe u v

/-! ## §1 Strictly Increasing Lists -/

section Lists

variable {α : Type u} [LE α] [LT α] [DecidableLT α] [Std.IsLinearOrder α] [Std.LawfulOrderLT α]

/-- Places `a` into a strictly increasing list, unless it stands there already. -/
def insertIncreasing (a : α) : List α → List α
  | [] => [a]
  | b :: rest =>
    if a < b then a :: b :: rest
    else if b < a then b :: insertIncreasing a rest
    else b :: rest

theorem mem_insertIncreasing {a x : α} {l : List α} :
    x ∈ insertIncreasing a l ↔ x = a ∨ x ∈ l := by
  induction l with
  | nil => simp [insertIncreasing]
  | cons b rest ih =>
    rw [insertIncreasing]
    split
    · simp
    · split
      · simp only [List.mem_cons, ih]
        constructor
        · rintro (h | h | h) <;> simp [h]
        · rintro (h | h | h) <;> simp [h]
      · rename_i hab hba
        -- only equality is left, and then nothing is inserted
        have heq : a = b := Std.le_antisymm (Std.not_lt.1 hba) (Std.not_lt.1 hab)
        subst heq
        simp

theorem pairwise_insertIncreasing {a : α} {l : List α} (h : l.Pairwise (· < ·)) :
    (insertIncreasing a l).Pairwise (· < ·) := by
  induction l with
  | nil => simp [insertIncreasing]
  | cons b rest ih =>
    rw [List.pairwise_cons] at h
    rw [insertIncreasing]
    split
    · rename_i hab
      refine List.pairwise_cons.2 ⟨?_, List.pairwise_cons.2 h⟩
      intro x hx
      rcases List.mem_cons.1 hx with rfl | hx
      · exact hab
      · exact Std.lt_trans hab (h.1 x hx)
    · split
      · rename_i hba
        refine List.pairwise_cons.2 ⟨?_, ih h.2⟩
        intro x hx
        rcases mem_insertIncreasing.1 hx with rfl | hx
        · exact hba
        · exact h.1 x hx
      · exact List.pairwise_cons.2 h

omit [DecidableLT α] in
/-- A strictly increasing list is determined by its members. -/
theorem eq_of_mem_iff_of_increasing {l m : List α} (hl : l.Pairwise (· < ·))
    (hm : m.Pairwise (· < ·)) (h : ∀ x, x ∈ l ↔ x ∈ m) : l = m := by
  induction l generalizing m with
  | nil =>
    cases m with
    | nil => rfl
    | cons b r => exact absurd ((h b).2 (by simp)) (by simp)
  | cons a l ih =>
    cases m with
    | nil => exact absurd ((h a).1 (by simp)) (by simp)
    | cons b m =>
      rw [List.pairwise_cons] at hl hm
      -- both start with the least member
      have hab : a = b := by
        rcases Std.lt_trichotomy a b with hlt | heq | hgt
        · -- `a` is below every member of the other list
          have ha : a ∈ b :: m := (h a).1 (by simp)
          rcases List.mem_cons.1 ha with heq | hmem
          · exact heq
          · exact absurd (Std.lt_trans hlt (hm.1 a hmem)) Std.lt_irrefl
        · exact heq
        · have hb : b ∈ a :: l := (h b).2 (by simp)
          rcases List.mem_cons.1 hb with heq | hmem
          · exact heq.symm
          · exact absurd (Std.lt_trans hgt (hl.1 b hmem)) Std.lt_irrefl
      subst hab
      congr 1
      refine ih hl.2 hm.2 fun x => ?_
      constructor
      · intro hx
        rcases List.mem_cons.1 ((h x).1 (List.mem_cons_of_mem a hx)) with rfl | hx'
        · exact absurd (hl.1 x hx) Std.lt_irrefl
        · exact hx'
      · intro hx
        rcases List.mem_cons.1 ((h x).2 (List.mem_cons_of_mem a hx)) with rfl | hx'
        · exact absurd (hm.1 x hx) Std.lt_irrefl
        · exact hx'

end Lists

/-! ## §2 The Type and Its Operations -/

/-- A finite set, listed in strictly increasing order. -/
structure SortedSet (α : Type u) [LT α] where
  /-- The members from the least to the greatest. -/
  toList : List α
  /-- The listing is strictly increasing, so it holds no member twice. -/
  increasing : toList.Pairwise (· < ·)

namespace SortedSet

section Basic

variable {α : Type u} [LT α]

instance [DecidableEq α] : DecidableEq (SortedSet α) := fun s t =>
  if h : s.toList = t.toList then
    isTrue (by cases s; cases t; cases h; rfl)
  else
    isFalse fun hst => h (hst ▸ rfl)

instance [Repr α] : Repr (SortedSet α) := ⟨fun s n => reprPrec s.toList n⟩

/-- The set without members. -/
def empty : SortedSet α := ⟨[], .nil⟩

instance : EmptyCollection (SortedSet α) := ⟨empty⟩
instance : Inhabited (SortedSet α) := ⟨empty⟩
instance : Membership α (SortedSet α) := ⟨fun s a => a ∈ s.toList⟩

instance [DecidableEq α] (a : α) (s : SortedSet α) : Decidable (a ∈ s) :=
  inferInstanceAs (Decidable (a ∈ s.toList))

/-- The number of members. -/
def size (s : SortedSet α) : Nat := s.toList.length

/-- Whether there is no member. -/
def isEmpty (s : SortedSet α) : Bool := s.toList.isEmpty

/-- Whether `a` is a member. -/
def contains [DecidableEq α] (s : SortedSet α) (a : α) : Bool := decide (a ∈ s)

/-- The members that pass the test `p`. -/
def filter (p : α → Bool) (s : SortedSet α) : SortedSet α :=
  ⟨s.toList.filter p, s.increasing.filter p⟩

/-- The members without `a`. -/
def erase [DecidableEq α] (s : SortedSet α) (a : α) : SortedSet α :=
  s.filter fun b => decide (b ≠ a)

/-- The common members of two sets. -/
def inter [DecidableEq α] (s t : SortedSet α) : SortedSet α := s.filter t.contains

/-- Whether every member of `s` is a member of `t`. -/
def isSubset [DecidableEq α] (s t : SortedSet α) : Bool := s.toList.all t.contains

end Basic

section Ordered

variable {α : Type u} [LE α] [LT α] [DecidableLT α] [Std.IsLinearOrder α] [Std.LawfulOrderLT α]

/-- The set with `a` added. -/
def insert (a : α) (s : SortedSet α) : SortedSet α :=
  ⟨insertIncreasing a s.toList, pairwise_insertIncreasing s.increasing⟩

/-- The set with every member of a list added. -/
def insertMany (s : SortedSet α) (l : List α) : SortedSet α :=
  l.foldl (fun t a => t.insert a) s

/-- The members of a list. -/
def ofList (l : List α) : SortedSet α := insertMany empty l

/-- The members of either set. -/
def union (s t : SortedSet α) : SortedSet α := s.insertMany t.toList

end Ordered

/-! ## §3 Membership -/

section Lemmas

variable {α : Type u} [LT α]

theorem mem_def {a : α} {s : SortedSet α} : a ∈ s ↔ a ∈ s.toList := Iff.rfl

@[simp] theorem mem_toList {a : α} {s : SortedSet α} : a ∈ s.toList ↔ a ∈ s := Iff.rfl

@[simp] theorem not_mem_empty {a : α} : ¬ a ∈ (empty : SortedSet α) := by simp [mem_def, empty]

@[simp] theorem toList_empty : (empty : SortedSet α).toList = [] := rfl

@[simp] theorem contains_iff [DecidableEq α] {a : α} {s : SortedSet α} :
    s.contains a = true ↔ a ∈ s := by simp [contains]

@[simp] theorem mem_filter {p : α → Bool} {a : α} {s : SortedSet α} :
    a ∈ s.filter p ↔ a ∈ s ∧ p a = true :=
  List.mem_filter

@[simp] theorem mem_erase [DecidableEq α] {a b : α} {s : SortedSet α} :
    b ∈ s.erase a ↔ b ∈ s ∧ b ≠ a := by simp [erase]

@[simp] theorem mem_inter [DecidableEq α] {a : α} {s t : SortedSet α} :
    a ∈ s.inter t ↔ a ∈ s ∧ a ∈ t := by simp [inter]

@[simp] theorem isSubset_iff [DecidableEq α] {s t : SortedSet α} :
    s.isSubset t = true ↔ ∀ a ∈ s, a ∈ t := by
  simp [isSubset, List.all_eq_true]

theorem isEmpty_iff {s : SortedSet α} : s.isEmpty = true ↔ s = empty := by
  rcases s with ⟨l, h⟩
  cases l <;> simp [isEmpty, empty]

theorem exists_mem_of_ne_empty {s : SortedSet α} (h : s ≠ empty) : ∃ a, a ∈ s := by
  apply List.exists_mem_of_ne_nil
  intro hnil
  exact h (isEmpty_iff.1 (by simp [isEmpty, hnil]))

end Lemmas

section OrderedLemmas

variable {α : Type u} [LE α] [LT α] [DecidableLT α] [Std.IsLinearOrder α] [Std.LawfulOrderLT α]

omit [DecidableLT α] [Std.IsLinearOrder α] in
theorem nodup_toList (s : SortedSet α) : s.toList.Nodup := by
  refine List.Pairwise.imp (fun {a b} (hab : a < b) => ?_) s.increasing
  rintro rfl
  exact Std.lt_irrefl hab

omit [DecidableLT α] in
/-- Sets with the same members are equal. -/
theorem ext {s t : SortedSet α} (h : ∀ a, a ∈ s ↔ a ∈ t) : s = t := by
  have := eq_of_mem_iff_of_increasing s.increasing t.increasing h
  cases s; cases t; cases this; rfl

@[simp] theorem mem_insert {a b : α} {s : SortedSet α} : b ∈ s.insert a ↔ b = a ∨ b ∈ s :=
  mem_insertIncreasing

@[simp] theorem mem_insertMany {a : α} {s : SortedSet α} {l : List α} :
    a ∈ s.insertMany l ↔ a ∈ s ∨ a ∈ l := by
  induction l generalizing s with
  | nil => simp [insertMany]
  | cons b l ih =>
    have : s.insertMany (b :: l) = (s.insert b).insertMany l := rfl
    rw [this, ih, mem_insert, List.mem_cons]
    constructor
    · rintro ((h | h) | h) <;> simp [h]
    · rintro (h | h | h) <;> simp [h]

@[simp] theorem mem_ofList {a : α} {l : List α} : a ∈ ofList l ↔ a ∈ l := by
  simp [ofList]

@[simp] theorem mem_union {a : α} {s t : SortedSet α} : a ∈ s.union t ↔ a ∈ s ∨ a ∈ t := by
  simp [union]

end OrderedLemmas

end SortedSet

end SpectrumPacking
