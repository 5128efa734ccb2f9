import SpectrumPacking.Proofs.Formula.Texts

/-!
# Headers of Formula Texts

A text may have several headers.  The last one counts in the end, but a literal is held against the
header that is in force where the literal stands.  So an accepted formula has the counts of the last
header, and each of its literals is declared by some header (`Cnf.declared_of_ofDimacs`).  It is
well-formed if no header declares more variables than the last one, and otherwise it need not be
(`Cnf.ofDimacs_later_header`).
-/

namespace SpectrumPacking.Cnf

open Text

/-! ## §1 Headers -/

/-- What a line declares if it is a header. -/
def declaration? (line : List Char) : Option (Nat × Nat) :=
  if (trim line).head? = some 'p' then header? (trim line) else none

/-- What the headers of a text declare, in their order. -/
def headers (text : List Char) : List (Nat × Nat) := (lines text).filterMap declaration?

theorem lt_of_natWithin? {bits n : Nat} {w : List Char} (h : Numeral.natWithin? bits w = some n) :
    n < 2 ^ bits := by
  rw [Numeral.natWithin?, Option.filter_eq_some_iff] at h
  exact of_decide_eq_true h.2

theorem fitsSigned_of_intWithin? {bits : Nat} {x : Int} {w : List Char}
    (h : Numeral.intWithin? bits w = some x) : Numeral.fitsSigned bits x = true := by
  rw [Numeral.intWithin?, Option.filter_eq_some_iff] at h
  exact h.2

/-- Declared counts fit into 64 binary digits. -/
theorem lt_of_header? {line : List Char} {v k : Nat} (h : header? line = some (v, k)) :
    v < 2 ^ 64 ∧ k < 2 ^ 64 := by
  unfold header? at h
  split at h
  · split at h
    · split at h
      · rename_i hv hk
        cases h
        exact ⟨lt_of_natWithin? hv, lt_of_natWithin? hk⟩
      · cases h
    · cases h
  · cases h

/-! ## §2 What Has Been Read -/

/-- What a draft holds when some headers have been read: the last of them is in force, and every
literal has been declared by one of them. -/
structure Draft.ReadUnder (hs : List (Nat × Nat)) (d : Draft) : Prop where
  header_eq : d.header = hs.getLast?
  headers_lt : ∀ h ∈ hs, h.1 < 2 ^ 64 ∧ h.2 < 2 ^ 64
  declared : ∀ c ∈ d.current :: d.done, ∀ x ∈ c,
    x ≠ 0 ∧ Numeral.fitsSigned 32 x = true ∧ ∃ h ∈ hs, x.natAbs ≤ h.1

namespace Draft

variable {hs : List (Nat × Nat)} {d d' : Draft} {numVariables : Nat} {ws : List (List Char)}
  {line : List Char} {f : Cnf}

theorem readUnder_empty : ReadUnder [] {} := ⟨rfl, nofun, by simp⟩

/-- A literal is added only if it is declared. -/
theorem ReadUnder.push (hd : d.ReadUnder hs) {x : Literal} {h : Nat × Nat} (hh : h ∈ hs)
    (hx : x ≠ 0) (hfits : Numeral.fitsSigned 32 x = true) (hle : x.natAbs ≤ h.1) :
    ReadUnder hs { d with current := x :: d.current } := by
  refine ⟨hd.header_eq, hd.headers_lt, ?_⟩
  intro c hc y hy
  rcases List.mem_cons.1 hc with rfl | hc
  · rcases List.mem_cons.1 hy with rfl | hy
    · exact ⟨hx, hfits, h, hh, hle⟩
    · exact hd.declared d.current (by simp) y hy
  · exact hd.declared c (List.mem_cons_of_mem _ hc) y hy

theorem ReadUnder.close (hd : d.ReadUnder hs) :
    ReadUnder hs { d with done := d.current.reverse :: d.done, current := [] } := by
  refine ⟨hd.header_eq, hd.headers_lt, ?_⟩
  intro c hc y hy
  simp only [List.mem_cons] at hc
  rcases hc with rfl | rfl | hc
  · cases hy
  · exact hd.declared d.current (by simp) y (List.mem_reverse.1 hy)
  · exact hd.declared c (List.mem_cons_of_mem _ hc) y hy

theorem ReadUnder.readWords {k : Nat} (hd : d.ReadUnder hs)
    (hheader : (numVariables, k) ∈ hs) (h : d.readWords numVariables ws = .ok d') :
    d'.ReadUnder hs := by
  induction ws generalizing d with
  | nil =>
    cases h
    exact hd
  | cons w ws ih =>
    rw [Draft.readWords] at h
    cases hw : Numeral.intWithin? 32 w with
    | none => simp [hw] at h
    | some x =>
      simp only [hw] at h
      split at h
      -- a zero closes the clause under way
      · exact ih hd.close h
      · rename_i hx
        split at h
        · cases h
        · rename_i hle
          exact ih (hd.push hheader hx (fitsSigned_of_intWithin? hw) (Nat.not_lt.1 hle)) h

theorem ReadUnder.declare (hd : d.ReadUnder hs) {v k : Nat} (hlt : v < 2 ^ 64 ∧ k < 2 ^ 64) :
    ReadUnder (hs ++ [(v, k)]) { d with header := some (v, k) } := by
  refine ⟨by simp, ?_, ?_⟩
  · intro h hh
    rcases List.mem_append.1 hh with hh | hh
    · exact hd.headers_lt h hh
    · rw [List.mem_singleton.1 hh]
      exact hlt
  · intro c hc x hx
    obtain ⟨hne, hfits, h, hh, hle⟩ := hd.declared c hc x hx
    exact ⟨hne, hfits, h, List.mem_append_left _ hh, hle⟩

/-- One line adds the header that it is, or literals that the header in force declares. -/
theorem ReadUnder.readLine (hd : d.ReadUnder hs) (h : d.readLine line = .ok d') :
    d'.ReadUnder (hs ++ (declaration? line).toList) := by
  -- remarks and lines of literals leave the headers as they are
  have hsame : (trim line).head? ≠ some 'p' → hs ++ (declaration? line).toList = hs := by
    intro hp
    rw [declaration?, if_neg hp, Option.toList_none, List.append_nil]
  unfold Draft.readLine at h
  split at h
  · rename_i htrim
    cases h
    rw [hsame (by simp [htrim])]
    exact hd
  · rename_i c rest htrim
    split at h
    · rename_i hremark
      cases h
      rw [hsame (by rcases hremark with rfl | rfl <;> simp [htrim])]
      exact hd
    · split at h
      · rename_i hp
        split at h
        · cases h
        · rename_i v hv
          cases h
          rw [declaration?, if_pos (by simp [htrim, hp]), htrim, hv]
          exact hd.declare (lt_of_header? hv)
      · rename_i hp
        rw [hsame (by simp [htrim, hp])]
        split at h
        · cases h
        · rename_i v k hv
          exact hd.readWords (List.mem_of_getLast? (hd.header_eq ▸ hv)) h

theorem ReadUnder.foldLines {n : Nat} {l : List (List Char)} (hd : d.ReadUnder hs)
    (h : foldLines (fun _ (e : Draft) line => e.readLine line) n d l = .ok d') :
    d'.ReadUnder (hs ++ l.filterMap declaration?) := by
  refine foldLines_induct
    (P := fun past (e : Draft) => e.ReadUnder (hs ++ past.filterMap declaration?)) ?_ []
    (by simpa using hd) h
  intro past n e line e' he hline
  have hlist : hs ++ (past ++ [line]).filterMap declaration?
      = hs ++ past.filterMap declaration? ++ (declaration? line).toList := by
    rw [List.filterMap_append, List.append_assoc]
    cases hline : declaration? line <;> simp [hline]
  rw [hlist]
  exact he.readLine hline

theorem ReadUnder.declared_clauses (hd : d.ReadUnder hs) :
    ∀ c ∈ d.clauses, ∀ x ∈ c,
      x ≠ 0 ∧ Numeral.fitsSigned 32 x = true ∧ ∃ h ∈ hs, x.natAbs ≤ h.1 := by
  intro c hc x hx
  unfold clauses at hc
  split at hc
  · exact hd.declared c (List.mem_cons_of_mem _ (List.mem_reverse.1 hc)) x hx
  · rw [List.mem_reverse] at hc
    rcases List.mem_cons.1 hc with rfl | hc
    · exact hd.declared d.current (by simp) x (List.mem_reverse.1 hx)
    · exact hd.declared c (List.mem_cons_of_mem _ hc) x hx

end Draft

/-! ## §3 Accepted Formulas -/

variable {text : List Char} {f : Cnf}

/-- An accepted formula is what some draft holds that was read under the headers of the text. -/
theorem exists_readUnder (h : ofDimacs text = .ok f) :
    ∃ d : Draft, d.ReadUnder (headers text) ∧
      d.header = some (f.numVariables, f.numClauses) ∧ d.clauses = f.clauses := by
  rw [ofDimacs] at h
  cases hread : foldLines (fun _ (e : Draft) line => e.readLine line) 1 {} (lines text) with
  | error e => simp [hread, Except.bind] at h
  | ok d =>
    simp only [hread, Except.bind] at h
    exact ⟨d, Draft.readUnder_empty.foldLines hread, Draft.finish_eq_ok_iff.1 h⟩

theorem getLast?_headers (h : ofDimacs text = .ok f) :
    (headers text).getLast? = some (f.numVariables, f.numClauses) := by
  obtain ⟨d, hd, hheader, -⟩ := exists_readUnder h
  rw [← hd.header_eq, hheader]

theorem declared_by_header (h : ofDimacs text = .ok f) :
    ∀ c ∈ f.clauses, ∀ x ∈ c, x ≠ 0 ∧ ∃ h ∈ headers text, x.natAbs ≤ h.1 := by
  obtain ⟨d, hd, -, hclauses⟩ := exists_readUnder h
  intro c hc x hx
  obtain ⟨hne, -, hdeclared⟩ := hd.declared_clauses c (hclauses ▸ hc) x hx
  exact ⟨hne, hdeclared⟩

/-- An accepted formula can be written again, since its numbers were read from machine words. -/
theorem fitsWords_of_ofDimacs (h : ofDimacs text = .ok f) : f.FitsWords := by
  obtain ⟨d, hd, hheader, hclauses⟩ := exists_readUnder h
  obtain ⟨hv, hk⟩ := hd.headers_lt _ (List.mem_of_getLast? (hd.header_eq ▸ hheader))
  refine ⟨hv, hk, ?_⟩
  intro c hc x hx
  exact (hd.declared_clauses c (hclauses ▸ hc) x hx).2.1

/-- An accepted formula has the counts of the last header, no zeros among its literals, and only
literals that some header declares.  It is well-formed if no header declares more variables than the
last one, and exactly well-formed formulas read back when they are written again. -/
theorem declared_of_ofDimacs (h : ofDimacs text = .ok f) :
    (headers text).getLast? = some (f.numVariables, f.numClauses) ∧
      (∀ c ∈ f.clauses, ∀ x ∈ c, x ≠ 0 ∧ ∃ h ∈ headers text, x.natAbs ≤ h.1) ∧
      ((∀ h ∈ headers text, h.1 ≤ f.numVariables) → f.IsWellFormed) ∧
      ∀ comments : List (List Char), (∀ t ∈ comments, ¬ '\n' ∈ t) →
        (ofDimacs (f.toDimacs comments) = .ok f ↔ f.IsWellFormed) := by
  refine ⟨getLast?_headers h, declared_by_header h, ?_, ?_⟩
  · intro hmost c hc x hx
    obtain ⟨hne, v, hv, hle⟩ := declared_by_header h c hc x hx
    exact ⟨hne, hle.trans (hmost v hv)⟩
  · intro comments hcomments
    have hfits := fitsWords_of_ofDimacs h
    exact ⟨isWellFormed_of_ofDimacs_toDimacs hfits hcomments,
      fun hwf => ofDimacs_toDimacs_of_isWellFormed hfits hwf hcomments⟩

/-- Two clauses under one header, the first of them over two lines. -/
theorem declared_of_ofDimacs_oneHeader :
    let text := "p cnf 3 2\n1 -2\n3 0\n-3\n".toList
    ofDimacs text = .ok ⟨3, [[1, -2, 3], [-3]]⟩ ∧
      (∀ h ∈ headers text, h.1 ≤ 3) ∧ IsWellFormed ⟨3, [[1, -2, 3], [-3]]⟩ := by
  have hread : ofDimacs "p cnf 3 2\n1 -2\n3 0\n-3\n".toList = .ok ⟨3, [[1, -2, 3], [-3]]⟩ := rfl
  have hmost : ∀ h ∈ headers "p cnf 3 2\n1 -2\n3 0\n-3\n".toList, h.1 ≤ 3 := by decide
  exact ⟨hread, hmost, (declared_of_ofDimacs hread).2.2.1 hmost⟩

/-- A header that comes after a literal can declare fewer variables than the literal needs.  The
text is accepted, and what is written of the formula is refused. -/
theorem ofDimacs_later_header :
    ofDimacs "p cnf 5 1\n5\np cnf 1 1\n0\n".toList = .ok ⟨1, [[5]]⟩ ∧
      ¬ IsWellFormed ⟨1, [[5]]⟩ ∧
      ofDimacs (toDimacs ⟨1, [[5]]⟩ []) = .error (.variableOutOfRange 5 1) := by
  refine ⟨rfl, ?_, rfl⟩
  intro h
  exact absurd (h [5] (by decide) 5 (by decide)).2 (by decide)

end SpectrumPacking.Cnf
