import Mathlib.Data.List.Nodup
import SpectrumPacking.Formula.Cnf

/-!
# Signed Variables

A valuation of the variables from 1 to some number can be written down as a list that gives each of
them a sign.  Formulas cannot tell a valuation from that of its list
(`Cnf.holds_ofLiterals_literals`).
-/

namespace SpectrumPacking

/-! ## §1 Lists as Valuations -/

/-- The valuation of a list in which no variable has two signs. -/
theorem Valuation.ofLiterals_eq_true_iff {l : List Literal} (hl : (l.map Int.natAbs).Nodup)
    {k : Nat} : Valuation.ofLiterals l k = true ↔ ∃ x ∈ l, x.natAbs = k ∧ 0 < x := by
  -- for the induction, the signs are laid over any valuation
  have hfold : ∀ (l : List Literal) (v : Valuation), (l.map Int.natAbs).Nodup →
      ((l.foldl (fun v x n => if n = x.natAbs then decide (0 < x) else v n) v) k = true ↔
        (∃ x ∈ l, x.natAbs = k ∧ 0 < x) ∨ ((∀ x ∈ l, x.natAbs ≠ k) ∧ v k = true)) := by
    intro l
    induction l with
    | nil => simp
    | cons x rest ih =>
      intro v hnodup
      rw [List.map_cons, List.nodup_cons] at hnodup
      rw [List.foldl_cons, ih _ hnodup.2]
      simp only [List.exists_mem_cons_iff, List.forall_mem_cons]
      by_cases hxk : x.natAbs = k
      -- the variable has its sign here and nowhere else
      · have hrest : ∀ y ∈ rest, y.natAbs ≠ k := by
          intro y hy hyk
          exact hnodup.1 (List.mem_map.2 ⟨y, hy, hyk.trans hxk.symm⟩)
        have hnone : ¬ ∃ y ∈ rest, y.natAbs = k ∧ 0 < y := by
          rintro ⟨y, hy, hyk, -⟩
          exact hrest y hy hyk
        simp only [hxk, true_and, hnone, or_false, false_or, decide_eq_true_eq, ne_eq,
          not_true_eq_false, false_and, if_true]
        exact ⟨fun h => h.2, fun h => ⟨hrest, h⟩⟩
      · have hkx : ¬ k = x.natAbs := fun h => hxk h.symm
        simp [hxk, hkx]
  rw [Valuation.ofLiterals, hfold l _ hl]
  simp

namespace Valuation

/-- The variables from 1 to `k`, each with its sign under a valuation. -/
def literals (v : Valuation) (k : Nat) : List Literal :=
  (List.range' 1 k).map fun (j : Nat) => if v j then (j : Int) else -(j : Int)

variable {v w : Valuation} {k : Nat} {l : List Literal}

theorem literals_succ : v.literals (k + 1) = v.literals k ++
    [if v (k + 1) then ((k + 1 : Nat) : Int) else -((k + 1 : Nat) : Int)] := by
  simp [literals, List.range'_1_concat, Nat.add_comm]

theorem natAbs_literals : (v.literals k).map Int.natAbs = List.range' 1 k := by
  have habs : Int.natAbs ∘ (fun j : Nat => if v j then (j : Int) else -(j : Int)) = id := by
    funext j
    show Int.natAbs (if v j then (j : Int) else -(j : Int)) = j
    split <;> omega
  rw [literals, List.map_map, habs, List.map_id]

/-- A variable is true under the list of its sign if it was true. -/
theorem ofLiterals_literals {j : Nat} (hj : 1 ≤ j) (hj' : j ≤ k) :
    ofLiterals (v.literals k) j = v j := by
  have hnodup : ((v.literals k).map Int.natAbs).Nodup := by
    rw [natAbs_literals]
    exact List.nodup_range'
  rw [Bool.eq_iff_iff, ofLiterals_eq_true_iff hnodup]
  constructor
  · rintro ⟨x, hx, hxj, hpos⟩
    obtain ⟨i, -, rfl⟩ := List.mem_map.1 hx
    cases hi : v i
    · simp only [hi] at hpos
      have : 0 < -(i : Int) := hpos
      omega
    · simp only [hi, if_true] at hxj
      have : i = j := hxj
      rw [← this, hi]
  · intro hv
    have hmem : j ∈ List.range' 1 k := List.mem_range'_1.2 ⟨hj, by omega⟩
    refine ⟨(j : Int), List.mem_map.2 ⟨j, hmem, by simp [hv]⟩, rfl, ?_⟩
    exact Int.natCast_pos.2 hj

/-- A list of all variables in their order is that of its valuation. -/
theorem eq_literals (h : l.map Int.natAbs = List.range' 1 k) : l = (ofLiterals l).literals k := by
  have hnodup : (l.map Int.natAbs).Nodup := by
    rw [h]
    exact List.nodup_range'
  rw [literals, ← h, List.map_map]
  refine (List.map_id l).symm.trans (List.map_congr_left ?_)
  intro x hx
  show (x : Int) = if ofLiterals l x.natAbs then (x.natAbs : Int) else -(x.natAbs : Int)
  by_cases hpos : 0 < (x : Int)
  · rw [if_pos ((ofLiterals_eq_true_iff hnodup).2 ⟨x, hx, rfl, hpos⟩)]
    exact (Int.natAbs_of_nonneg (Int.le_of_lt hpos)).symm
  · rw [if_neg]
    · rw [Int.ofNat_natAbs_of_nonpos (Int.not_lt.1 hpos), Int.neg_neg]
    · intro htrue
      obtain ⟨y, hy, hyx, hypos⟩ := (ofLiterals_eq_true_iff hnodup).1 htrue
      rw [List.inj_on_of_nodup_map hnodup hy hx hyx] at hypos
      exact hpos hypos

end Valuation

/-! ## §2 Formulas -/

namespace Cnf

variable {f : Cnf} {v w : Valuation}

/-- A formula looks at its declared variables only. -/
theorem holds_congr (hf : f.IsWellFormed) (h : ∀ j, 1 ≤ j → j ≤ f.numVariables → v j = w j) :
    f.holds v = f.holds w := by
  -- first for literals, then for clauses
  have hliteral : ∀ c ∈ f.clauses, ∀ x ∈ c, Literal.holds v x = Literal.holds w x := by
    intro c hc x hx
    obtain ⟨hx0, hle⟩ := hf c hc x hx
    have hsame : v x.natAbs = w x.natAbs := h _ (Int.natAbs_pos.2 hx0) hle
    rw [Literal.holds, Literal.holds, hsame]
  have hclause : ∀ c ∈ f.clauses, Clause.holds v c = Clause.holds w c := by
    intro c hc
    rw [Bool.eq_iff_iff, Clause.holds_iff, Clause.holds_iff]
    constructor
    · rintro ⟨x, hx, hv⟩
      exact ⟨x, hx, (hliteral c hc x hx).symm.trans hv⟩
    · rintro ⟨x, hx, hw⟩
      exact ⟨x, hx, (hliteral c hc x hx).trans hw⟩
  rw [Bool.eq_iff_iff, holds_iff, holds_iff]
  constructor
  · intro hv c hc
    rw [← hclause c hc]
    exact hv c hc
  · intro hw c hc
    rw [hclause c hc]
    exact hw c hc

theorem holds_ofLiterals_literals (hf : f.IsWellFormed) :
    f.holds (.ofLiterals (v.literals f.numVariables)) = f.holds v :=
  holds_congr hf fun _ => Valuation.ofLiterals_literals

/-- A list gives every variable of a formula one sign, in any order, and makes the formula true. -/
def IsModel (f : Cnf) (l : List Literal) : Prop :=
  (l.map Int.natAbs).Perm (List.range' 1 f.numVariables) ∧ f.holds (.ofLiterals l) = true

end Cnf

end SpectrumPacking
