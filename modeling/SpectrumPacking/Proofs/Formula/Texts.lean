import SpectrumPacking.Formula.Cnf
import SpectrumPacking.Proofs.Text.Words

/-!
# Formulas as Texts

Of a line only its words matter, and clause lines are read as one sequence of words, wherever the
lines end (`Cnf.foldLines_clauseLines`).  What is written of a well-formed formula reads back as
this formula (`Cnf.ofDimacs_toDimacs_of_isWellFormed`).  A formula that is not well-formed has a
text that is refused: a literal beyond the declared variables is refused by itself, and every zero
among the literals ends a clause too many (`Cnf.isWellFormed_of_ofDimacs_toDimacs`).
-/

namespace SpectrumPacking

open Text

namespace Cnf

/-! ## §1 Lines by Their Words -/

section Lines

variable {d d' : Draft} {numVariables : Nat} {ws vs : List (List Char)} {line : List Char}

theorem Draft.readWords_append :
    d.readWords numVariables (ws ++ vs)
      = (d.readWords numVariables ws).bind fun e => e.readWords numVariables vs := by
  induction ws generalizing d with
  | nil => rfl
  | cons w ws ih =>
    rw [List.cons_append, readWords, readWords]
    cases Numeral.intWithin? 32 w with
    | none => rfl
    | some x =>
      dsimp only
      split
      · exact ih
      · split
        · rfl
        · exact ih

/-- Clause lines leave the header as it is. -/
theorem Draft.header_readWords (h : d.readWords numVariables ws = .ok d') :
    d'.header = d.header := by
  induction ws generalizing d with
  | nil =>
    cases h
    rfl
  | cons w ws ih =>
    rw [readWords] at h
    cases hw : Numeral.intWithin? 32 w with
    | none => simp [hw] at h
    | some x =>
      simp only [hw] at h
      split at h
      · exact (ih h).trans rfl
      · split at h
        · cases h
        · exact (ih h).trans rfl

/-- A line that is neither a remark nor a header; a blank line is one. -/
def IsClauseLine (line : List Char) : Prop :=
  ∀ c ∈ (trim line).head?, ¬ (c = 'c' ∨ c = '%') ∧ c ≠ 'p'

/-- Lines that start with a letter c are remarks. -/
theorem Draft.readLine_remark (h : (trim line).head? = some 'c') : d.readLine line = .ok d := by
  obtain ⟨rest, hline⟩ := List.head?_eq_some_iff.1 h
  simp [readLine, hline]

theorem Draft.readLine_header {v k : Nat} {first second : List Char}
    (hline : words line = ["p".toList, "cnf".toList, first, second])
    (hv : Numeral.natWithin? 64 first = some v) (hk : Numeral.natWithin? 64 second = some k) :
    d.readLine line = .ok { d with header := some (v, k) } := by
  have hhead : (trim line).head? = some 'p' := by
    rw [head?_trim, hline]
    rfl
  obtain ⟨rest, htrim⟩ := List.head?_eq_some_iff.1 hhead
  have hheader : header? ('p' :: rest) = some (v, k) := by
    rw [header?, ← htrim, words_trim, hline]
    simp [hv, hk]
  simp [readLine, htrim, hheader]

theorem Draft.readLine_clauseLine {k : Nat} (hd : d.header = some (numVariables, k))
    (hline : IsClauseLine line) : d.readLine line = d.readWords numVariables (words line) := by
  rw [readLine, ← words_trim (t := line)]
  cases htrim : trim line with
  | nil => rfl
  | cons c rest =>
    obtain ⟨hremark, hheader⟩ := hline c (by simp [htrim])
    dsimp only
    rw [if_neg hremark, if_neg hheader, hd]

/-- Clause lines are read as the sequence of their words. -/
theorem foldLines_clauseLines {k n : Nat} {l : List (List Char)}
    (hd : d.header = some (numVariables, k)) (hl : ∀ line ∈ l, IsClauseLine line) :
    foldLines (fun _ (e : Draft) line => e.readLine line) n d l
      = d.readWords numVariables (l.flatMap words) := by
  induction l generalizing n d with
  | nil => rfl
  | cons line l ih =>
    have hrest := fun v hv => hl v (List.mem_cons_of_mem line hv)
    rw [foldLines, Draft.readLine_clauseLine hd (hl line (by simp)), List.flatMap_cons,
      Draft.readWords_append]
    cases hfirst : d.readWords numVariables (words line) with
    | error e => rfl
    | ok d' => exact ih ((Draft.header_readWords hfirst).trans hd) hrest

end Lines

/-! ## §2 Written Lines -/

/-- The numbers of a formula fit into machine words: the counts into 64 binary digits without a
sign, the literals into 32 with one. -/
structure FitsWords (f : Cnf) : Prop where
  numVariables_lt : f.numVariables < 2 ^ 64
  numClauses_lt : f.numClauses < 2 ^ 64
  fitsSigned : ∀ c ∈ f.clauses, ∀ x ∈ c, Numeral.fitsSigned 32 x = true

/-- The literals of a formula in the order in which they are written, each clause with its closing
zero. -/
def literals (f : Cnf) : List Literal := f.clauses.flatMap fun c => c ++ [0]

/-- A clause line without its line feed. -/
def clauseText (c : Clause) : List Char := [' '].intercalate (c.map Numeral.ofInt) ++ " 0".toList

/-- A header line without its line feed. -/
def headerText (f : Cnf) : List Char :=
  "p cnf ".toList ++ Numeral.ofNat f.numVariables ++ ' ' :: Numeral.ofNat f.numClauses

/-- A comment line without its line feed. -/
def remarkText (comment : List Char) : List Char := "c ".toList ++ comment

variable {f g : Cnf} {comments : List (List Char)} {c : Clause}

theorem toDimacs_eq_closed :
    f.toDimacs comments
      = (comments.map remarkText ++ f.headerText :: f.clauses.map clauseText).flatMap
      fun w => w ++ ['\n'] := by
  have hremark : ∀ t, commentLine t = remarkText t ++ ['\n'] := fun t => rfl
  have hclause : ∀ k, clauseLine k = clauseText k ++ ['\n'] := by
    intro k
    exact (List.append_assoc _ " 0".toList ['\n']).symm
  have hheader : f.headerLine = f.headerText ++ ['\n'] := rfl
  simp only [toDimacs, funext hremark, funext hclause, hheader, List.flatMap_append,
    List.flatMap_cons, List.flatMap_map, List.append_assoc]

theorem words_clauseText : words (clauseText c) = (c ++ [0]).map Numeral.ofInt := by
  have hzero : words "0".toList = [Numeral.ofInt 0] := by decide
  rw [List.map_append, List.map_singleton, ← hzero]
  apply words_joined
  intro w hw
  obtain ⟨x, -, rfl⟩ := List.mem_map.1 hw
  exact Numeral.isWord_ofInt

theorem words_headerText : words f.headerText
    = ["p".toList, "cnf".toList, Numeral.ofNat f.numVariables, Numeral.ofNat f.numClauses] := by
  have hv := Numeral.isWord_ofNat (n := f.numVariables)
  have hk := Numeral.isWord_ofNat (n := f.numClauses)
  have hfront : ∀ t, words ("p cnf ".toList ++ t) = "p".toList :: "cnf".toList :: words t := by
    have hwords : ∀ w ∈ ["p".toList, "cnf".toList], IsWord w := by
      intro w hw
      simp only [List.mem_cons, List.not_mem_nil, or_false] at hw
      rcases hw with rfl | rfl <;> exact .of_all (by decide) (by decide)
    exact fun t => words_joined hwords
  have hnumbers : words (Numeral.ofNat f.numVariables ++ ' ' :: Numeral.ofNat f.numClauses)
      = [Numeral.ofNat f.numVariables, Numeral.ofNat f.numClauses] := by
    rw [words_append_cons hv.ne_nil hv.not_blank (by decide),
      words_eq_singleton hk.ne_nil hk.not_blank]
  calc words f.headerText
      = words ("p cnf ".toList ++
          (Numeral.ofNat f.numVariables ++ ' ' :: Numeral.ofNat f.numClauses)) :=
        congrArg words (List.append_assoc _ _ _)
    _ = _ := (hfront _).trans (by rw [hnumbers])

theorem isClauseLine_clauseText : IsClauseLine (dropReturn (clauseText c)) := by
  intro d hd
  rw [head?_trim, words_dropReturn, words_clauseText, Option.mem_def, Option.bind_eq_some_iff] at hd
  obtain ⟨w, hw, hd⟩ := hd
  obtain ⟨x, -, rfl⟩ := List.mem_map.1 (List.mem_of_mem_head? hw)
  have hsign : d = '-' ∨ d.isDigit = true :=
    Numeral.eq_or_isDigit_of_mem_ofInt (List.mem_of_mem_head? hd)
  refine ⟨?_, ?_⟩
  · rintro (rfl | rfl) <;> exact absurd hsign (by decide)
  · rintro rfl
    exact absurd hsign (by decide)

theorem head?_trim_remarkText {t : List Char} :
    (trim (dropReturn (remarkText t))).head? = some 'c' := by
  have hc : IsWord "c".toList := .of_all (by decide) (by decide)
  have hwords : words (remarkText t) = "c".toList :: words t :=
    words_append_cons hc.ne_nil hc.not_blank (by decide)
  rw [head?_trim, words_dropReturn, hwords]
  rfl

/-- Joined words without line feeds have no line feed between them. -/
theorem not_newline_mem_joined {ws : List (List Char)} (hws : ∀ w ∈ ws, ¬ '\n' ∈ w) :
    ¬ '\n' ∈ [' '].intercalate ws := by
  intro h
  rcases mem_joined h with h | ⟨w, hw, h⟩
  · exact absurd h (by decide)
  · exact hws w hw h

theorem lines_toDimacs (hcomments : ∀ t ∈ comments, ¬ '\n' ∈ t) :
    lines (f.toDimacs comments)
      = (comments.map remarkText ++ f.headerText :: f.clauses.map clauseText).map dropReturn := by
  -- no line holds a line end of its own
  rw [toDimacs_eq_closed, lines_closed]
  intro w hw
  rcases List.mem_append.1 hw with hw | hw
  · obtain ⟨t, ht, rfl⟩ := List.mem_map.1 hw
    simp [remarkText, hcomments t ht]
  · rcases List.mem_cons.1 hw with rfl | hw
    · show ¬ '\n' ∈ "p cnf ".toList ++ Numeral.ofNat _ ++ ' ' :: Numeral.ofNat _
      simp [Numeral.not_mem_ofNat (c := '\n') (by decide)]
    · obtain ⟨k, -, rfl⟩ := List.mem_map.1 hw
      have hjoined : ¬ '\n' ∈ [' '].intercalate (k.map Numeral.ofInt) := by
        apply not_newline_mem_joined
        intro w hw
        obtain ⟨x, -, rfl⟩ := List.mem_map.1 hw
        exact Numeral.not_mem_ofInt (by decide) (by decide)
      simp [clauseText, hjoined]

theorem foldLines_remarks {d : Draft} {n : Nat} {l : List (List Char)}
    (hl : ∀ line ∈ l, (trim line).head? = some 'c') :
    foldLines (fun _ (e : Draft) line => e.readLine line) n d l = .ok d := by
  induction l generalizing n with
  | nil => rfl
  | cons line l ih =>
    rw [foldLines, Draft.readLine_remark (hl line (by simp))]
    exact ih fun v hv => hl v (List.mem_cons_of_mem line hv)

/-- A written formula is read by its literals. -/
theorem ofDimacs_toDimacs_eq (hf : f.FitsWords) (hcomments : ∀ t ∈ comments, ¬ '\n' ∈ t) :
    ofDimacs (f.toDimacs comments)
      = (Draft.readWords f.numVariables { header := some (f.numVariables, f.numClauses) }
          (f.literals.map Numeral.ofInt)).bind Draft.finish := by
  -- remarks in front say nothing, then comes the header, and the rest is literals
  have hremarks : ∀ line ∈ (comments.map remarkText).map dropReturn,
      (trim line).head? = some 'c' := by
    simp [head?_trim_remarkText]
  have hclauses : ∀ line ∈ (f.clauses.map clauseText).map dropReturn, IsClauseLine line := by
    simp [isClauseLine_clauseText]
  have hheader : (({} : Draft).readLine (dropReturn f.headerText))
      = .ok { header := some (f.numVariables, f.numClauses) } :=
    Draft.readLine_header (words_dropReturn.trans words_headerText)
      (Numeral.natWithin?_ofNat hf.numVariables_lt) (Numeral.natWithin?_ofNat hf.numClauses_lt)
  have hwords : ((f.clauses.map clauseText).map dropReturn).flatMap words
      = f.literals.map Numeral.ofInt := by
    simp [literals, List.flatMap_map, words_dropReturn, words_clauseText, List.map_flatMap]
  rw [ofDimacs, lines_toDimacs hcomments, List.map_append, foldLines_append,
    foldLines_remarks hremarks, List.map_cons]
  simp only [Except.bind]
  rw [foldLines, hheader]
  dsimp only
  rw [foldLines_clauseLines rfl hclauses, hwords]

/-! ## §3 Reading Back -/

section Literals

variable {d d' : Draft} {numVariables : Nat} {xs : List Literal} {ws : List (List Char)}

theorem readWords_clause (hc : ∀ x ∈ c, x ≠ 0 ∧ x.natAbs ≤ numVariables)
    (hfits : ∀ x ∈ c, Numeral.fitsSigned 32 x = true) :
    d.readWords numVariables (c.map Numeral.ofInt ++ ws)
      = Draft.readWords numVariables { d with current := c.reverse ++ d.current } ws := by
  induction c generalizing d with
  | nil => rfl
  | cons x c ih =>
    obtain ⟨hx, hle⟩ := hc x (by simp)
    rw [List.map_cons, List.cons_append, Draft.readWords,
      Numeral.intWithin?_ofInt (hfits x (by simp))]
    dsimp only
    rw [if_neg hx, if_neg (Nat.not_lt.2 hle), ih (fun y hy => hc y (List.mem_cons_of_mem x hy))
      fun y hy => hfits y (List.mem_cons_of_mem x hy)]
    simp

/-- The literals of well-formed clauses are read as these clauses. -/
theorem readWords_clauses {l : List Clause} (hd : d.current = [])
    (hl : ∀ c ∈ l, ∀ x ∈ c, x ≠ 0 ∧ x.natAbs ≤ numVariables)
    (hfits : ∀ c ∈ l, ∀ x ∈ c, Numeral.fitsSigned 32 x = true) :
    d.readWords numVariables ((l.flatMap fun c => c ++ [0]).map Numeral.ofInt)
      = .ok { d with done := l.reverse ++ d.done } := by
  induction l generalizing d with
  | nil => rfl
  | cons c l ih =>
    have hzero : Numeral.intWithin? 32 (Numeral.ofInt 0) = some 0 := by decide
    rw [List.flatMap_cons, List.map_append, List.map_append, List.append_assoc,
      readWords_clause (hl c (by simp)) (hfits c (by simp)), List.map_singleton,
      List.singleton_append, Draft.readWords, hzero]
    dsimp only
    rw [if_pos rfl, ih rfl (fun k hk => hl k (List.mem_cons_of_mem c hk))
      fun k hk => hfits k (List.mem_cons_of_mem c hk)]
    simp [hd]

/-- Literals that are read at all are declared, and every zero among them ends a clause. -/
theorem of_readWords_eq_ok (hfits : ∀ x ∈ xs, Numeral.fitsSigned 32 x = true)
    (h : d.readWords numVariables (xs.map Numeral.ofInt) = .ok d') :
    (∀ x ∈ xs, x.natAbs ≤ numVariables) ∧ d'.done.length = d.done.length + xs.count 0 := by
  induction xs generalizing d with
  | nil =>
    cases h
    simp
  | cons x xs ih =>
    have hrest := fun y hy => hfits y (List.mem_cons_of_mem x hy)
    rw [List.map_cons, Draft.readWords, Numeral.intWithin?_ofInt (hfits x (by simp))] at h
    dsimp only at h
    split at h
    · rename_i hx
      -- a zero, which is always in range, closes one clause more
      obtain ⟨hle, hlength⟩ := ih hrest h
      refine ⟨List.forall_mem_cons.2 ⟨by simp [hx], hle⟩, ?_⟩
      rw [hlength, hx, List.count_cons_self, List.length_cons]
      omega
    · rename_i hx
      split at h
      · cases h
      · rename_i hle
        obtain ⟨hrange, hlength⟩ := ih hrest h
        refine ⟨List.forall_mem_cons.2 ⟨Nat.not_lt.1 hle, hrange⟩, ?_⟩
        rw [hlength, List.count_cons_of_ne hx]

end Literals

/-- A well-formed formula is what its text says. -/
theorem ofDimacs_toDimacs_of_isWellFormed (hf : f.FitsWords) (hwf : f.IsWellFormed)
    (hcomments : ∀ t ∈ comments, ¬ '\n' ∈ t) : ofDimacs (f.toDimacs comments) = .ok f := by
  rw [ofDimacs_toDimacs_eq hf hcomments, literals, readWords_clauses rfl hwf hf.fitsSigned]
  simp [Except.bind, Draft.finish, Draft.clauses, numClauses]

theorem Draft.length_done_le {d : Draft} : d.done.length ≤ d.clauses.length := by
  rw [clauses]
  split <;> simp

theorem Draft.finish_eq_ok_iff {d : Draft} {g : Cnf} :
    d.finish = .ok g ↔ d.header = some (g.numVariables, g.numClauses) ∧ d.clauses = g.clauses := by
  unfold finish
  split
  · rename_i hheader
    simp [hheader]
  · rename_i v k hheader
    rw [hheader]
    obtain ⟨v', l⟩ := g
    split
    · rename_i hlength
      simp only [Except.ok.injEq, Cnf.mk.injEq, numClauses, Option.some.injEq, Prod.mk.injEq]
      constructor
      · rintro ⟨rfl, rfl⟩
        exact ⟨⟨rfl, hlength.symm⟩, rfl⟩
      · rintro ⟨⟨rfl, -⟩, rfl⟩
        exact ⟨rfl, rfl⟩
    · rename_i hlength
      simp only [reduceCtorEq, numClauses, Option.some.injEq, Prod.mk.injEq, false_iff]
      rintro ⟨⟨-, rfl⟩, rfl⟩
      exact hlength rfl

/-- Only the text of a well-formed formula is accepted. -/
theorem isWellFormed_of_ofDimacs_toDimacs (hf : f.FitsWords)
    (hcomments : ∀ t ∈ comments, ¬ '\n' ∈ t) (h : ofDimacs (f.toDimacs comments) = .ok g) :
    f.IsWellFormed := by
  rw [ofDimacs_toDimacs_eq hf hcomments] at h
  cases hread : Draft.readWords f.numVariables { header := some (f.numVariables, f.numClauses) }
      (f.literals.map Numeral.ofInt) with
  | error e => simp [hread, Except.bind] at h
  | ok d =>
    simp only [hread, Except.bind, Draft.finish_eq_ok_iff] at h
    obtain ⟨hheader, hclauses⟩ := h
    have hfits : ∀ x ∈ f.literals, Numeral.fitsSigned 32 x = true := by
      intro x hx
      obtain ⟨c, hc, hx⟩ := List.mem_flatMap.1 hx
      rcases List.mem_append.1 hx with hx | hx
      · exact hf.fitsSigned c hc x hx
      · rw [List.mem_singleton.1 hx]
        decide
    obtain ⟨hrange, hlength⟩ := of_readWords_eq_ok hfits hread
    -- the header counts the clauses, so no zero can have ended one more
    have hdeclared : d.clauses.length = f.clauses.length := by
      rw [Draft.header_readWords hread] at hheader
      simp only [Option.some.injEq, Prod.mk.injEq] at hheader
      rw [hclauses]
      exact hheader.2.symm
    have hcount : f.literals.count 0
        = (f.clauses.map (List.count 0)).sum + f.clauses.length := by
      simp only [literals]
      induction f.clauses with
      | nil => rfl
      | cons c l ih =>
        simp only [List.flatMap_cons, List.count_append, ih, List.map_cons, List.sum_cons,
          List.length_cons, List.count_cons_self, List.count_nil]
        omega
    have hdone := Draft.length_done_le (d := d)
    have hzeros : (f.clauses.map (List.count (0 : Literal))).sum = 0 := by
      simp only [List.length_nil] at hlength
      omega
    intro c hc x hx
    refine ⟨?_, hrange x (List.mem_flatMap.2 ⟨c, hc, by simp [hx]⟩)⟩
    rintro rfl
    have hpositive : 0 < c.count (0 : Literal) := List.count_pos_iff.2 hx
    have hnone : c.count (0 : Literal) = 0 :=
      List.sum_eq_zero_iff_forall_eq_nat.1 hzeros _ (List.mem_map_of_mem hc)
    omega

end Cnf

end SpectrumPacking
