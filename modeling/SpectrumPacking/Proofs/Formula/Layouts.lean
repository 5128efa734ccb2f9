import SpectrumPacking.Proofs.Formula.Texts
import SpectrumPacking.Proofs.Text.Layouts
import SpectrumPacking.Proofs.Text.Numerals

/-!
# Layouts of Formula Texts

A formula can be written in many ways: its numerals may stand on any lines behind the header, with
blanks around them, and blank lines and remarks may stand anywhere (`Cnf.IsLaidOutIn`).  Reading
takes what the lines say, row by row (`Cnf.ofDimacs_of_telling`), and rows of numerals come to the
sequence of all their numerals (`Cnf.foldlM_numerals`).  So a formula is read from each of its
layouts (`Cnf.ofDimacs_of_isLaidOutIn`).
-/

namespace SpectrumPacking.Cnf

open Text Text.Numeral

/-! ## §1 Rows -/

/-- A line says nothing about a formula: it is blank, or behind blanks it starts with the letter c
or a percent sign. -/
inductive IsIdle : List Char → Prop where
  | blank {g} (hg : IsGap g) : IsIdle g
  | remark {g c t} (hg : IsGap g) (hc : c = 'c' ∨ c = '%') : IsIdle (g ++ c :: t)

/-- What a line of a formula text can say. -/
inductive Row where
  /-- The numbers of variables and clauses. -/
  | header (numVariables numClauses : Nat)
  /-- Numerals of literals, and of the zeros that close clauses. -/
  | numerals (ws : List (List Char))

/-- A line says a row. -/
inductive Shows : List Char → Row → Prop where
  | header {line first second numVariables numClauses}
      (hline : WordsOn line ["p".toList, "cnf".toList, first, second])
      (hfirst : DenotesNatWithin 64 first numVariables)
      (hsecond : DenotesNatWithin 64 second numClauses) :
      Shows line (.header numVariables numClauses)
  | numerals {line w ws} (hline : WordsOn line (w :: ws))
      (hws : ∀ v ∈ w :: ws, ∃ x, DenotesWithin 32 v x) : Shows line (.numerals (w :: ws))

/-- Reads a row.  Numerals before any header are refused. -/
def Draft.readRow (d : Draft) : Row → Except DimacsError Draft
  | .header numVariables numClauses => .ok { d with header := some (numVariables, numClauses) }
  | .numerals ws =>
    match d.header with
    | none => .error .missingHeader
    | some (numVariables, _) => d.readWords numVariables ws

/-- The numbers spell the clauses of a formula: the literals of each clause come with a zero behind
them.  The last zero may be left out if the last clause is not empty. -/
inductive IsSpelledBy : Cnf → List Literal → Prop where
  | closed {f} : IsSpelledBy f f.literals
  | opened {numVariables front last} (hlast : last ≠ []) :
      IsSpelledBy ⟨numVariables, front ++ [last]⟩ ((front.flatMap fun c => c ++ [0]) ++ last)

/-- A text lays out a formula: its header comes first, and rows of numerals behind it spell its
clauses, wherever the lines end. -/
def IsLaidOutIn (f : Cnf) (text : List Char) : Prop :=
  ∃ (rows : List (List (List Char))) (xs : List Literal),
    Telling IsIdle Shows text (.header f.numVariables f.numClauses :: rows.map .numerals) ∧
      List.Forall₂ (DenotesWithin 32) rows.flatten xs ∧ f.IsSpelledBy xs

/-! ## §2 Reading Row by Row -/

section Reading

variable {f : Cnf} {d : Draft} {row : Row} {line text w : List Char} {ws : List (List Char)}
  {rows : List (List (List Char))} {xs : List Literal} {numVariables k : Nat}

theorem Draft.readLine_of_isIdle (h : IsIdle line) : d.readLine line = .ok d := by
  cases h with
  | blank hg =>
    have htrim : trim line = [] := by simpa using trim_append_left (t := []) hg
    rw [Draft.readLine, htrim]
  | @remark g c t hg hc =>
    have hblank : isBlank c = false := by
      obtain rfl | rfl := hc <;> decide
    obtain ⟨r, hr⟩ := exists_trim_cons (t := t) hblank
    rw [Draft.readLine, trim_append_left hg, hr]
    exact if_pos hc

/-- A line whose first word is a numeral is neither a remark nor a header. -/
theorem isClauseLine_of_numerals {x : Int} (hline : words line = w :: ws)
    (hw : DenotesWithin 32 w x) : IsClauseLine line := by
  intro c hc
  rw [head?_trim, hline] at hc
  have hsign := hw.denotes.sign_or_digit (List.mem_of_head? hc)
  refine ⟨?_, ?_⟩
  · rintro (rfl | rfl) <;> exact absurd hsign (by decide)
  · rintro rfl
    exact absurd hsign (by decide)

/-- A line is read as the row that it says. -/
theorem Draft.readLine_of_shows (h : Shows line row) : d.readLine line = d.readRow row := by
  cases h with
  | header hline hfirst hsecond =>
    exact Draft.readLine_header hline.words_eq (natWithin?_eq_some_iff.2 hfirst)
      (natWithin?_eq_some_iff.2 hsecond)
  | @numerals w ws hline hws =>
    obtain ⟨x, hw⟩ := hws w (by simp)
    have hclause := isClauseLine_of_numerals hline.words_eq hw
    rw [Draft.readRow]
    cases hd : d.header with
    | some h => rw [Draft.readLine_clauseLine hd hclause, hline.words_eq]
    | none =>
      -- the line is not blank, so the missing header is noticed
      have hhead : (trim line).head? = w.head? := by
        rw [head?_trim, hline.words_eq]
        rfl
      obtain ⟨c, t, rfl⟩ := List.exists_cons_of_ne_nil hw.denotes.ne_nil
      obtain ⟨r, hr⟩ := List.head?_eq_some_iff.1 hhead
      obtain ⟨hremark, hheader⟩ := hclause c (by simp [hr])
      simp [Draft.readLine, hr, hremark, hheader, hd]

/-- Reading a text takes the rows that its lines say. -/
theorem ofDimacs_of_telling {rows : List Row} (h : Telling IsIdle Shows text rows) :
    ofDimacs text = (rows.foldlM Draft.readRow {}).bind Draft.finish := by
  rw [ofDimacs, h.foldLines_eq (f := Draft.readRow)]
  · intro n d l l' hl
    rw [Draft.readLine, hl, ← Draft.readLine]
  · exact fun n d => rfl
  · exact fun line hline n d => Draft.readLine_of_isIdle hline
  · exact fun row _ line hline n d => Draft.readLine_of_shows hline

/-- Behind a header, rows of numerals are read as the sequence of all their numerals. -/
theorem foldlM_numerals (hd : d.header = some (numVariables, k)) :
    (rows.map Row.numerals).foldlM Draft.readRow d = d.readWords numVariables rows.flatten := by
  induction rows generalizing d with
  | nil => rfl
  | cons ws rows ih =>
    have hrow : d.readRow (.numerals ws) = d.readWords numVariables ws := by
      rw [Draft.readRow, hd]
    rw [List.map_cons, List.foldlM_cons, hrow, List.flatten_cons, Draft.readWords_append]
    cases hread : d.readWords numVariables ws with
    | error e => rfl
    | ok d' => exact ih ((Draft.header_readWords hread).trans hd)

/-! ## §3 Reading What Is Spelled -/

/-- Of a numeral only its number is read. -/
theorem readWords_of_denotes (h : List.Forall₂ (DenotesWithin 32) ws xs) :
    d.readWords numVariables ws = d.readWords numVariables (xs.map ofInt) := by
  induction h generalizing d with
  | nil => rfl
  | @cons w x ws xs hw _ ih =>
    rw [List.map_cons, Draft.readWords, Draft.readWords, intWithin?_eq_some_iff.2 hw,
      intWithin?_ofInt hw.fitsSigned]
    simp only [ih]

theorem fitsSigned_of_denotes (h : List.Forall₂ (DenotesWithin 32) ws xs) :
    ∀ x ∈ xs, fitsSigned 32 x = true := by
  induction h with
  | nil => exact nofun
  | cons hw _ ih => exact List.forall_mem_cons.2 ⟨hw.fitsSigned, ih⟩

/-- What spells a well-formed formula is read as the formula. -/
theorem finish_readWords (hwf : f.IsWellFormed) (hfits : ∀ x ∈ xs, fitsSigned 32 x = true)
    (h : f.IsSpelledBy xs) :
    (Draft.readWords f.numVariables { header := some (f.numVariables, f.numClauses) }
      (xs.map ofInt)).bind Draft.finish = .ok f := by
  cases h with
  | closed =>
    have hclauses : ∀ c ∈ f.clauses, ∀ x ∈ c, fitsSigned 32 x = true :=
      fun c hc x hx => hfits x (List.mem_flatMap.2 ⟨c, hc, by simp [hx]⟩)
    rw [literals, readWords_clauses rfl hwf hclauses]
    simp [Except.bind, Draft.finish, Draft.clauses, numClauses]
  | @opened numVariables front last hlast =>
    have hfront : ∀ c ∈ front, ∀ x ∈ c, fitsSigned 32 x = true := fun c hc x hx =>
      hfits x (List.mem_append_left _ (List.mem_flatMap.2 ⟨c, hc, by simp [hx]⟩))
    have hend : ∀ x ∈ last, fitsSigned 32 x = true :=
      fun x hx => hfits x (List.mem_append_right _ hx)
    have hwfFront := fun c hc => hwf c (List.mem_append_left _ hc)
    have hwfLast := hwf last (by simp)
    rw [List.map_append, Draft.readWords_append, readWords_clauses rfl hwfFront hfront]
    -- the literals of the last clause are still under way when the text ends
    have hread : ∀ d : Draft, d.readWords numVariables (last.map ofInt)
        = .ok { d with current := last.reverse ++ d.current } := by
      intro d
      rw [← List.append_nil (last.map ofInt), readWords_clause hwfLast hend, Draft.readWords]
    simp only [Except.bind, hread]
    simp [Draft.finish, Draft.clauses, numClauses, hlast]

end Reading

/-- A well-formed formula is read from each of its layouts. -/
theorem ofDimacs_of_isLaidOutIn (f : Cnf) (hwf : f.IsWellFormed) (text : List Char)
    (h : f.IsLaidOutIn text) : ofDimacs text = .ok f := by
  obtain ⟨rows, xs, htext, hnumerals, hspelled⟩ := h
  rw [ofDimacs_of_telling htext, List.foldlM_cons]
  calc ((Draft.readRow {} (.header f.numVariables f.numClauses)).bind
          fun d => (rows.map Row.numerals).foldlM Draft.readRow d).bind Draft.finish
      = (Draft.readWords f.numVariables { header := some (f.numVariables, f.numClauses) }
          rows.flatten).bind Draft.finish := congrArg (·.bind Draft.finish) (foldlM_numerals rfl)
    _ = (Draft.readWords f.numVariables { header := some (f.numVariables, f.numClauses) }
          (xs.map ofInt)).bind Draft.finish := by rw [readWords_of_denotes hnumerals]
    _ = .ok f := finish_readWords hwf (fitsSigned_of_denotes hnumerals) hspelled

/-- Three clauses, one of them empty, behind remarks; the first goes over a remark, and the last is
not closed. -/
theorem ofDimacs_of_isLaidOutIn_threeClauses :
    let f : Cnf := ⟨3, [[1, -2, 3], [], [-3]]⟩
    let text := "% first\n\n\tp  cnf 3 +3\r\n1 -2\nc inside\n  03 0 0\n-3 ".toList
    (f.IsWellFormed ∧ f.IsLaidOutIn text) ∧ ofDimacs text = .ok f := by
  intro f text
  have hwf : f.IsWellFormed := by
    unfold IsWellFormed
    decide
  have hlaid : f.IsLaidOutIn text := by
    refine ⟨[["1".toList, "-2".toList], ["03".toList, "0".toList, "0".toList], ["-3".toList]],
      [1, -2, 3, 0, 0, -3], ⟨["% first".toList, [], "\tp  cnf 3 +3\r".toList, "1 -2".toList,
        "c inside".toList, "  03 0 0".toList, "-3 ".toList], ?_, by decide, by decide⟩, ?_, ?_⟩
    · have hnumeral : ∀ w ∈ ["1".toList, "-2".toList, "03".toList, "0".toList, "-3".toList],
          ∃ x, DenotesWithin 32 w x := by
        simp only [← intWithin?_eq_some_iff, ← Option.isSome_iff_exists]
        decide
      have hheader : Shows "\tp  cnf 3 +3\r".toList (.header 3 3) :=
        @Shows.header _ "3".toList "+3".toList _ _ (wordsOn_iff.2 (by decide))
          (natWithin?_eq_some_iff.1 (by decide)) (natWithin?_eq_some_iff.1 (by decide))
      refine .idle (.remark isGap_nil (.inr rfl)) <| .idle (.blank isGap_nil) <|
        .item hheader <|
        .item (.numerals (wordsOn_iff.2 (by decide)) fun w hw => hnumeral w ?_) <|
        .idle (.remark isGap_nil (.inl rfl)) <|
        .item (.numerals (wordsOn_iff.2 (by decide)) fun w hw => hnumeral w ?_) <|
        .item (.numerals (wordsOn_iff.2 (by decide)) fun w hw => hnumeral w ?_) .nil
      all_goals
        revert w
        decide
    · simp only [List.flatten_cons, List.flatten_nil, List.cons_append, List.nil_append,
        List.forall₂_cons, List.forall₂_nil_left_iff, ← intWithin?_eq_some_iff]
      decide
    · exact @IsSpelledBy.opened 3 [[1, -2, 3], []] [-3] (by decide)
  exact ⟨⟨hwf, hlaid⟩, ofDimacs_of_isLaidOutIn f hwf text hlaid⟩

end SpectrumPacking.Cnf
