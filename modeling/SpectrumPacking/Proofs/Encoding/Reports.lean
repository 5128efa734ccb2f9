import SpectrumPacking.Encoding.Decode
import SpectrumPacking.Proofs.Text.Numerals

/-!
# Models in Reports

Which reports hold a model, word by word: the model starts behind the first word `v`, goes on over
further words `v` and numerals of literals, and is closed by a numeral of zero (`ReadsReport`).
Reading a report comes to what this grammar says, also where it is refused, and a model that is
written over any number of lines is found again, whatever stands before and behind it
(`modelOfReport_reads`).
-/

namespace SpectrumPacking

open Text Text.Numeral

/-! ## §1 The Grammar -/

/-- Words of a model that spell literals: marks, and numerals of numbers other than zero. -/
inductive Spells : List (List Char) → List Literal → Prop where
  | nil : Spells [] []
  | mark {ws l} (h : Spells ws l) : Spells (['v'] :: ws) l
  | literal {w x ws l} (hw : DenotesWithin 32 w x) (hx : x ≠ 0) (h : Spells ws l) :
      Spells (w :: ws) (x :: l)

/-- What the words behind the first mark of a report come to. -/
inductive ReadsModel : List (List Char) → Except ModelTextError (List Literal) → Prop where
  /-- A zero closes the model, and what follows it does not matter. -/
  | closed {ws l zero rest} (h : Spells ws l) (hzero : DenotesWithin 32 zero 0) :
      ReadsModel (ws ++ zero :: rest) (.ok l)
  /-- The words end without a zero. -/
  | unclosed {ws l} (h : Spells ws l) : ReadsModel ws (.error .missingTerminator)
  /-- A word about processor time stands where a literal is expected. -/
  | timed {ws l w rest} (h : Spells ws l) (hw : ∀ x, ¬ DenotesWithin 32 w x)
      (htime : "CPU".toList <:+: w) : ReadsModel (ws ++ w :: rest) (.error .missingTerminator)
  /-- Another word stands there. -/
  | stray {ws l w rest} (h : Spells ws l) (hmark : w ≠ ['v']) (hw : ∀ x, ¬ DenotesWithin 32 w x)
      (htime : ¬ "CPU".toList <:+: w) : ReadsModel (ws ++ w :: rest) (.error (.badToken w))

/-- What the words of a report come to. -/
inductive ReadsReport : List (List Char) → Except ModelTextError (List Literal) → Prop where
  /-- There is no mark. -/
  | unmarked {ws} (h : ¬ ['v'] ∈ ws) : ReadsReport ws (.error .missingAssignment)
  /-- The model stands behind the first mark. -/
  | marked {before model r} (hbefore : ¬ ['v'] ∈ before) (h : ReadsModel model r) :
      ReadsReport (before ++ ['v'] :: model) r

/-! ## §2 Reading by the Grammar -/

section Reading

variable {part t w : List Char} {ws before rest : List (List Char)} {l : List Literal} {x : Literal}
  {r : Except ModelTextError (List Literal)}

theorem occursIn_iff : occursIn part t = true ↔ part <:+: t := by
  induction t with
  | nil => simp [occursIn]
  | cons c t ih =>
    rw [occursIn, Bool.or_eq_true, ih, List.isPrefixOf_iff_prefix, List.infix_cons_iff]

theorem modelWords_mark : modelWords (['v'] :: ws) = modelWords ws := by
  rw [modelWords, if_pos rfl]

/-- A mark is no numeral. -/
theorem not_denotesWithin_mark : ¬ DenotesWithin 32 ['v'] x := by
  intro h
  have hnone : intWithin? 32 ['v'] = none := by decide
  rw [intWithin?_eq_some_iff.2 h] at hnone
  cases hnone

theorem ne_mark_of_denotesWithin (hw : DenotesWithin 32 w x) : w ≠ ['v'] := by
  rintro rfl
  exact not_denotesWithin_mark hw

theorem modelWords_literal (hw : DenotesWithin 32 w x) (hx : x ≠ 0) :
    modelWords (w :: ws) = (modelWords ws).map (x :: ·) := by
  rw [modelWords, if_neg (ne_mark_of_denotesWithin hw), intWithin?_eq_some_iff.2 hw]
  exact if_neg hx

theorem modelWords_zero (hw : DenotesWithin 32 w 0) : modelWords (w :: ws) = .ok [] := by
  rw [modelWords, if_neg (ne_mark_of_denotesWithin hw), intWithin?_eq_some_iff.2 hw]
  exact if_pos rfl

theorem modelWords_of_not_numeral (hmark : w ≠ ['v']) (hw : ∀ x, ¬ DenotesWithin 32 w x) :
    modelWords (w :: ws) =
      if occursIn "CPU".toList w then .error .missingTerminator else .error (.badToken w) := by
  rw [modelWords, if_neg hmark, intWithin?_eq_none_iff.2 hw]

theorem Spells.of_mark (h : Spells (['v'] :: ws) l) : Spells ws l := by
  cases h with
  | mark h => exact h
  | literal hw _ _ => exact absurd hw not_denotesWithin_mark

/-- Words that spell literals put them in front of what the words behind them come to. -/
theorem Spells.modelWords_append (h : Spells ws l) (rest : List (List Char)) :
    modelWords (ws ++ rest) = (modelWords rest).map (l ++ ·) := by
  induction h with
  | nil =>
    rw [List.nil_append]
    cases modelWords rest <;> rfl
  | mark _ ih => rw [List.cons_append, modelWords_mark, ih]
  | literal hw hx _ ih =>
    rw [List.cons_append, modelWords_literal hw hx, ih]
    cases modelWords rest <;> rfl

/-- Words come to no more than the grammar says. -/
theorem ReadsModel.modelWords_eq (h : ReadsModel ws r) : modelWords ws = r := by
  cases h with
  | closed h hzero =>
    rw [h.modelWords_append, modelWords_zero hzero]
    simp [Except.map]
  | unclosed h =>
    have hend := h.modelWords_append []
    rw [List.append_nil] at hend
    exact hend
  | timed h hw htime =>
    -- a word about processor time is longer than a mark
    have hmark : ∀ {w : List Char}, "CPU".toList <:+: w → w ≠ ['v'] := by
      rintro w htime rfl
      exact absurd htime (by decide)
    rw [h.modelWords_append, modelWords_of_not_numeral (hmark htime) hw,
      if_pos (occursIn_iff.2 htime)]
    rfl
  | stray h hmark hw htime =>
    rw [h.modelWords_append, modelWords_of_not_numeral hmark hw,
      if_neg (mt occursIn_iff.1 htime)]
    rfl

theorem Spells.append {l' : List Literal} (h : Spells ws l) (h' : Spells rest l') :
    Spells (ws ++ rest) (l ++ l') := by
  induction h with
  | nil => exact h'
  | mark _ ih => exact ih.mark
  | literal hw hx _ ih => exact ih.literal hw hx

/-- More words in front of a model. -/
theorem ReadsModel.append (h : ReadsModel rest r) (hws : Spells ws l) :
    ReadsModel (ws ++ rest) (r.map (l ++ ·)) := by
  cases h with
  | closed h hzero =>
    rw [← List.append_assoc]
    exact .closed (hws.append h) hzero
  | unclosed h => exact .unclosed (hws.append h)
  | timed h hw htime =>
    rw [← List.append_assoc]
    exact .timed (hws.append h) hw htime
  | stray h hmark hw htime =>
    rw [← List.append_assoc]
    exact .stray (hws.append h) hmark hw htime

/-- The grammar says of all words what they come to. -/
theorem readsModel_modelWords : ReadsModel ws (modelWords ws) := by
  induction ws with
  | nil => exact .unclosed .nil
  | cons w ws ih =>
    -- the cases are the tests of a word, in the order in which they are made
    by_cases hmark : w = ['v']
    · subst hmark
      rw [modelWords_mark]
      have h := ih.append (.mark .nil)
      cases hr : modelWords ws <;> simpa [hr, Except.map] using h
    by_cases hw : ∃ x, DenotesWithin 32 w x
    · obtain ⟨x, hw⟩ := hw
      by_cases hx : x = 0
      · subst hx
        rw [modelWords_zero hw]
        exact .closed .nil hw
      · rw [modelWords_literal hw hx]
        exact ih.append (.literal hw hx .nil)
    · have hw : ∀ x, ¬ DenotesWithin 32 w x := not_exists.1 hw
      rw [modelWords_of_not_numeral hmark hw]
      split
      · rename_i htime
        exact .timed .nil hw (occursIn_iff.1 htime)
      · rename_i htime
        exact .stray .nil hmark hw (mt occursIn_iff.2 htime)

theorem modelOfReport_of_words (ht : words t = before ++ ['v'] :: ws) (hbefore : ¬ ['v'] ∈ before) :
    modelOfReport t = modelWords ws := by
  have hdrop : (words t).dropWhile (· != ['v']) = ['v'] :: ws := by
    rw [ht, List.dropWhile_append_of_pos, List.dropWhile_cons_of_neg (by simp)]
    intro w hw
    simp only [bne_iff_ne, ne_eq]
    rintro rfl
    exact hbefore hw
  rw [modelOfReport, hdrop]

/-- A report is read as the grammar says. -/
theorem modelOfReport_eq_iff : modelOfReport t = r ↔ ReadsReport (words t) r := by
  -- the grammar allows one result, and what is read is allowed
  have hread : ∀ {r}, ReadsReport (words t) r → modelOfReport t = r := by
    intro r h
    generalize hws : words t = ws at h
    cases h with
    | unmarked h =>
      have hdrop : (words t).dropWhile (· != ['v']) = [] := by
        rw [hws, List.dropWhile_eq_nil_iff]
        intro w hw
        simp only [bne_iff_ne, ne_eq]
        rintro rfl
        exact h hw
      rw [modelOfReport, hdrop]
    | marked hbefore h => rw [modelOfReport_of_words hws hbefore, h.modelWords_eq]
  constructor
  · rintro rfl
    by_cases hmark : ['v'] ∈ words t
    · obtain ⟨before, model, hws, hbefore⟩ := List.eq_append_cons_of_mem hmark
      rw [modelOfReport_of_words hws hbefore, hws]
      exact .marked hbefore readsModel_modelWords
    · rw [hread (.unmarked hmark)]
      exact .unmarked hmark
  · exact hread

end Reading

/-! ## §3 Written Models -/

/-- A line of a model: the mark, and literals behind blanks. -/
def modelLine (l : List Literal) : List Char := 'v' :: l.flatMap fun x => ' ' :: ofInt x

/-- A model over some lines, closed by a zero on the last one. -/
def modelText (lines : List (List Literal)) : List Char :=
  ['\n'].intercalate (lines.map modelLine) ++ " 0".toList

section Writing

variable {l : List Literal} {lines : List (List Literal)} {t before after : List Char}

theorem words_modelLine : words (modelLine l) = ['v'] :: l.map ofInt := by
  have hliterals : ∀ {w : List Char}, IsWord w →
      words (w ++ l.flatMap fun x => ' ' :: ofInt x) = w :: l.map ofInt := by
    induction l with
    | nil =>
      intro w hw
      simpa using words_eq_singleton hw.ne_nil hw.not_blank
    | cons x l ih =>
      intro w hw
      rw [List.flatMap_cons, List.cons_append, words_append_cons hw.ne_nil hw.not_blank (by decide),
        ih isWord_ofInt]
      rfl
  exact hliterals (w := ['v']) (.of_all (by decide) (by decide))

theorem words_modelText (hlines : lines ≠ []) :
    words (modelText lines) = (lines.flatMap fun l => ['v'] :: l.map ofInt) ++ [['0']] := by
  have hzero : words ("0".toList) = [['0']] := by decide
  have hjoined : words (['\n'].intercalate (lines.map modelLine))
      = lines.flatMap fun l => ['v'] :: l.map ofInt := by
    induction lines with
    | nil => exact absurd rfl hlines
    | cons l lines ih =>
      cases lines with
      | nil => simp [words_modelLine]
      | cons m lines =>
        rw [List.map_cons, List.map_cons, List.intercalate_cons_cons, ← List.map_cons,
          List.append_assoc, List.singleton_append, words_append_cons_of_blank (by decide),
          ih (by simp), words_modelLine]
        rfl
  rw [modelText, show " 0".toList = ' ' :: "0".toList from rfl,
    words_append_cons_of_blank (by decide), hjoined, hzero]

theorem spells_map_ofInt (hl : ∀ x ∈ l, x ≠ 0 ∧ fitsSigned 32 x = true) :
    Spells (l.map ofInt) l := by
  induction l with
  | nil => exact .nil
  | cons x l ih =>
    obtain ⟨hx, hfits⟩ := hl x (by simp)
    exact .literal (denotesWithin_ofInt hfits) hx
      (ih fun y hy => hl y (List.mem_cons_of_mem x hy))

theorem spells_lines (h : ∀ l ∈ lines, ∀ x ∈ l, x ≠ 0 ∧ fitsSigned 32 x = true) :
    Spells (lines.flatMap fun l => ['v'] :: l.map ofInt) lines.flatten := by
  induction lines with
  | nil => exact .nil
  | cons l lines ih =>
    have hline : Spells (l.map ofInt) l := spells_map_ofInt (h l (by simp))
    rw [List.flatMap_cons, List.flatten_cons]
    exact .mark (hline.append (ih fun m hm => h m (List.mem_cons_of_mem l hm)))

/-- A written model is found in a report behind a text without marks. -/
theorem modelOfReport_modelText (hlines : lines ≠ [])
    (hl : ∀ l ∈ lines, ∀ x ∈ l, x ≠ 0 ∧ fitsSigned 32 x = true)
    (hbefore : ¬ ['v'] ∈ words before) (hend : ∀ c ∈ before.getLast?, isBlank c = true)
    (hafter : ∀ c ∈ after.head?, isBlank c = true) :
    modelOfReport (before ++ modelText lines ++ after) = .ok lines.flatten := by
  have hzero : DenotesWithin 32 ['0'] 0 := denotesWithin_ofInt (x := 0) (by decide)
  obtain ⟨l, lines, rfl⟩ := List.exists_cons_of_ne_nil hlines
  have hwords : words (before ++ modelText (l :: lines) ++ after) =
      words before ++ ['v'] :: (l.map ofInt ++ (lines.flatMap fun l => ['v'] :: l.map ofInt) ++
        ['0'] :: words after) := by
    rw [words_append (.inr hafter), words_append (.inl hend), words_modelText hlines]
    simp
  rw [modelOfReport_eq_iff, hwords]
  refine .marked hbefore (.closed ?_ hzero)
  have hspells := spells_lines hl
  rw [List.flatMap_cons, List.cons_append] at hspells
  exact hspells.of_mark

end Writing

/-! ## §4 What Reports Say -/

theorem modelOfReport_eq_missingAssignment_iff {text : List Char} :
    modelOfReport text = .error .missingAssignment ↔ ¬ ['v'] ∈ words text := by
  constructor
  · intro h hmark
    rw [modelOfReport_eq_iff] at h
    generalize words text = ws at h hmark
    cases h with
    | unmarked h => exact h hmark
    | marked _ h => cases h
  · intro h
    exact modelOfReport_eq_iff.2 (.unmarked h)

/-- A report is read as the grammar says, and in no other way; without a mark, it holds no model.
So a model that is written over some lines is found again, whatever stands behind it, and whatever
stands before it without a mark. -/
theorem modelOfReport_reads (text : List Char) :
    (modelOfReport text = .error .missingAssignment ↔ ¬ ['v'] ∈ words text) ∧
      (∀ r, modelOfReport text = r ↔ ReadsReport (words text) r) ∧
      ∀ before lines after, text = before ++ modelText lines ++ after → lines ≠ [] →
        (∀ l ∈ lines, ∀ x ∈ l, x ≠ 0 ∧ fitsSigned 32 x = true) →
        ¬ ['v'] ∈ words before → (∀ c ∈ before.getLast?, isBlank c = true) →
        (∀ c ∈ after.head?, isBlank c = true) → modelOfReport text = .ok lines.flatten := by
  refine ⟨modelOfReport_eq_missingAssignment_iff, fun r => modelOfReport_eq_iff, ?_⟩
  rintro before lines after rfl hlines hl hbefore hend hafter
  exact modelOfReport_modelText hlines hl hbefore hend hafter

/-- A report with remarks in front of a model over two lines, and more behind it. -/
theorem modelOfReport_reads_twoLines :
    "s SATISFIABLE\nv 1 -2147483648\nv 3 0\nv 4 CPU".toList
        = "s SATISFIABLE\n".toList ++ modelText [[1, -2147483648], [3]] ++ "\nv 4 CPU".toList ∧
      modelOfReport "s SATISFIABLE\nv 1 -2147483648\nv 3 0\nv 4 CPU".toList
        = .ok [1, -2147483648, 3] := by
  have htext : "s SATISFIABLE\nv 1 -2147483648\nv 3 0\nv 4 CPU".toList
      = "s SATISFIABLE\n".toList ++ modelText [[1, -2147483648], [3]] ++ "\nv 4 CPU".toList := by
    decide
  obtain ⟨-, -, hfound⟩ :=
    modelOfReport_reads "s SATISFIABLE\nv 1 -2147483648\nv 3 0\nv 4 CPU".toList
  refine ⟨htext, hfound _ _ _ htext (by decide) (by decide) (by decide) ?_ ?_⟩
  · intro c hc
    obtain rfl : '\n' = c := Option.some.inj hc
    rfl
  · intro c hc
    obtain rfl : '\n' = c := Option.some.inj hc
    rfl

end SpectrumPacking
