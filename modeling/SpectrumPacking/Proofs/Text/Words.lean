import Mathlib.Data.List.TakeWhile
import SpectrumPacking.Text.Numeral
import SpectrumPacking.Text.Pieces

/-!
# Words of Written Texts

Blanks at the ends of a text do not change its words (`words_trim`), so a text may be read word by
word without looking at how it is laid out.  Words joined by blanks are the words of the joined text
(`words_joined`), fields joined by a separator are its fields (`splitAtChar_joined`), and lines that
are each closed by a line feed are the lines of the whole (`lines_closed`).  Joined numerals
determine the numbers (`Numeral.joined_ofInt_inj`).
-/

namespace SpectrumPacking.Text

/-! ## §1 Blanks at the End -/

/-- Characters that all pass the test make only empty pieces behind a text. -/
theorem cut_append {p : Char → Bool} {t g : List Char} (hg : ∀ c ∈ g, p c = true) :
    (cut p (t ++ g)).1 = (cut p t).1 ∧
      ∃ k, (cut p (t ++ g)).2 = (cut p t).2 ++ List.replicate k [] := by
  induction t with
  | nil =>
    induction g with
    | nil => exact ⟨rfl, 0, rfl⟩
    | cons c g ih =>
      obtain ⟨hfirst, k, hmore⟩ := ih fun d hd => hg d (List.mem_cons_of_mem c hd)
      simp only [List.nil_append, cut] at hfirst hmore ⊢
      refine ⟨by simp [hg c (by simp)], k + 1, ?_⟩
      simp [hg c (by simp), hfirst, hmore, List.replicate_succ]
  | cons c t ih =>
    obtain ⟨hfirst, k, hmore⟩ := ih
    simp only [List.cons_append, cut]
    cases p c
    · exact ⟨by simp [hfirst], k, by simpa using hmore⟩
    · exact ⟨by simp, k, by simp [hfirst, hmore]⟩

theorem words_append_of_blank {t g : List Char} (hg : ∀ c ∈ g, isBlank c = true) :
    words (t ++ g) = words t := by
  obtain ⟨hfirst, k, hmore⟩ := cut_append (t := t) hg
  simp [words, pieces, hfirst, hmore, List.filter_cons]

theorem exists_dropReturn (line : List Char) :
    ∃ g, line = dropReturn line ++ g ∧ ∀ c ∈ g, isBlank c = true := by
  rw [dropReturn]
  split
  · rename_i h
    obtain ⟨l, rfl⟩ := List.getLast?_eq_some_iff.1 h
    refine ⟨['\r'], by rw [List.dropLast_concat], fun c hc => ?_⟩
    rw [List.mem_singleton.1 hc]
    decide
  · exact ⟨[], (List.append_nil _).symm, nofun⟩

theorem words_dropReturn {line : List Char} : words (dropReturn line) = words line := by
  obtain ⟨g, hg, hblank⟩ := exists_dropReturn line
  rw [hg, words_append_of_blank hblank, ← hg]

/-! ## §2 Trimming -/

theorem words_trimStart {t : List Char} : words (trimStart t) = words t := by
  induction t with
  | nil => rfl
  | cons c t ih =>
    cases h : isBlank c
    · rw [trimStart_eq_self h]
    · rw [words_cons_of_blank h, ← ih, trimStart, List.dropWhile_cons_of_pos h]
      rfl

theorem exists_trimEnd (t : List Char) :
    ∃ g, t = trimEnd t ++ g ∧ ∀ c ∈ g, isBlank c = true := by
  refine ⟨(t.reverse.takeWhile isBlank).reverse, ?_, ?_⟩
  · rw [trimEnd, ← List.reverse_append, List.takeWhile_append_dropWhile, List.reverse_reverse]
  · intro c hc
    exact List.mem_takeWhile_imp (List.mem_reverse.1 hc)

/-- Trimming does not change the words. -/
theorem words_trim {t : List Char} : words (trim t) = words t := by
  obtain ⟨g, hg, hblank⟩ := exists_trimEnd (trimStart t)
  rw [← words_trimStart (t := t), hg, words_append_of_blank hblank]
  rfl

theorem head?_words_of_not_blank {c : Char} {t : List Char} (h : isBlank c = false) :
    (words (c :: t)).head?.bind List.head? = some c := by
  rw [words, pieces_cons_of_neg h, List.filter_cons_of_pos (by simp)]
  rfl

/-- A trimmed text starts with the first character of its first word. -/
theorem head?_trim {t : List Char} : (trim t).head? = (words t).head?.bind List.head? := by
  rw [← words_trim]
  cases htrim : trim t with
  | nil => rfl
  | cons c r =>
    have hblank : isBlank c = false := by
      obtain ⟨g, hg, -⟩ := exists_trimEnd (trimStart t)
      have hstart : t.dropWhile isBlank = c :: (r ++ g) := by
        rw [show trimEnd (trimStart t) = c :: r from htrim] at hg
        exact hg
      have hne : t.dropWhile isBlank ≠ [] := by simp [hstart]
      have hhead := List.head_dropWhile_not isBlank hne
      simpa [hstart] using hhead
    rw [head?_words_of_not_blank hblank, List.head?_cons]

/-! ## §3 Joined Words -/

/-- The text is a word: it holds something, and no blanks. -/
structure IsWord (w : List Char) : Prop where
  ne_nil : w ≠ []
  not_blank : ∀ c ∈ w, isBlank c = false

theorem IsWord.of_all {w : List Char} (hne : w ≠ []) (h : w.all (fun c => !isBlank c) = true) :
    IsWord w :=
  ⟨hne, fun c hc => by simpa using List.all_eq_true.1 h c hc⟩

/-- Words with a blank between each two, and another text behind a blank. -/
theorem words_joined {ws : List (List Char)} {t : List Char} (hws : ∀ w ∈ ws, IsWord w) :
    words ([' '].intercalate ws ++ ' ' :: t) = ws ++ words t := by
  induction ws with
  | nil => exact words_cons_of_blank (by decide)
  | cons w ws ih =>
    have hw := hws w (by simp)
    have ih := ih fun v hv => hws v (List.mem_cons_of_mem w hv)
    cases ws with
    | nil => simpa using words_append_cons (s := ' ') (t := t) hw.ne_nil hw.not_blank (by decide)
    | cons v ws =>
      have hjoin : [' '].intercalate (w :: v :: ws) ++ ' ' :: t
          = w ++ ' ' :: ([' '].intercalate (v :: ws) ++ ' ' :: t) := by
        simp [List.intercalate]
      rw [hjoin, words_append_cons hw.ne_nil hw.not_blank (by decide), ih]
      rfl

/-! ## §4 Joined Fields -/

/-- A separator cuts a text in two. -/
theorem pieces_append_of_pos {p : Char → Bool} {s : Char} {t u : List Char} (hs : p s = true) :
    pieces p (t ++ s :: u) = pieces p t ++ pieces p u := by
  induction t with
  | nil => exact pieces_cons_of_pos hs
  | cons c t ih =>
    cases hc : p c with
    | true => rw [List.cons_append, pieces_cons_of_pos hc, pieces_cons_of_pos hc, ih,
        List.cons_append]
    | false =>
      rw [List.cons_append, pieces_cons_of_neg hc, pieces_cons_of_neg hc]
      simp only [pieces, List.cons_append, List.cons.injEq] at ih ⊢
      rw [ih.1, ih.2]
      simp

/-- A blank ends the words in front of it. -/
theorem words_append_cons_of_blank {c : Char} {t u : List Char} (hc : isBlank c = true) :
    words (t ++ c :: u) = words t ++ words u := by
  rw [words, pieces_append_of_pos hc, List.filter_append, ← words, ← words]

/-- Two texts have the words of both if the first one ends, or the second one starts, with a
blank. -/
theorem words_append {t u : List Char}
    (h : (∀ c ∈ t.getLast?, isBlank c = true) ∨ ∀ c ∈ u.head?, isBlank c = true) :
    words (t ++ u) = words t ++ words u := by
  rcases h with h | h
  -- the blank ends the last word of the first text
  · cases hlast : t.getLast? with
    | none =>
      rw [List.getLast?_eq_none_iff.1 hlast]
      rfl
    | some c =>
      have hc : isBlank c = true := h c hlast
      obtain ⟨s, rfl⟩ := List.getLast?_eq_some_iff.1 hlast
      have hs : words (s ++ [c]) = words s := by
        rw [words_append_cons_of_blank hc, words_nil, List.append_nil]
      rw [hs, List.append_assoc, List.singleton_append, words_append_cons_of_blank hc]
  -- the blank keeps the first word of the second text apart
  · cases u with
    | nil => simp
    | cons c u =>
      have hc : isBlank c = true := h c rfl
      rw [words_append_cons_of_blank hc, words_cons_of_blank hc]

theorem splitAtChar_append_cons {sep : Char} {t u : List Char} :
    splitAtChar sep (t ++ sep :: u) = splitAtChar sep t ++ splitAtChar sep u :=
  pieces_append_of_pos (by simp)

/-- Joining adds the separator only. -/
theorem mem_joined {sep c : Char} {ws : List (List Char)} (h : c ∈ [sep].intercalate ws) :
    c = sep ∨ ∃ w ∈ ws, c ∈ w := by
  induction ws with
  | nil => cases h
  | cons w ws ih =>
    cases ws with
    | nil => exact Or.inr ⟨w, by simp, by simpa using h⟩
    | cons v ws =>
      simp only [List.intercalate, List.intersperse_cons_cons, List.flatten_cons, List.mem_append,
        List.mem_singleton] at h ih
      rcases h with h | h | h
      · exact Or.inr ⟨w, by simp, h⟩
      · exact Or.inl h
      · rcases ih h with h | ⟨u, hu, h⟩
        · exact Or.inl h
        · exact Or.inr ⟨u, List.mem_cons_of_mem w hu, h⟩

theorem splitAtChar_eq_singleton {sep : Char} {w : List Char} (hw : ¬ sep ∈ w) :
    splitAtChar sep w = [w] := by
  apply pieces_eq_singleton
  intro c hc
  rw [beq_eq_false_iff_ne]
  rintro rfl
  exact hw hc

/-- Fields that do not hold the separator are found again after they have been joined. -/
theorem splitAtChar_joined {sep : Char} {w : List Char} {ws : List (List Char)}
    (hws : ∀ v ∈ w :: ws, ¬ sep ∈ v) : splitAtChar sep ([sep].intercalate (w :: ws)) = w :: ws := by
  have hw := splitAtChar_eq_singleton (hws w (by simp))
  induction ws generalizing w with
  | nil => simpa using hw
  | cons v ws ih =>
    have hv := splitAtChar_eq_singleton (hws v (by simp))
    have hjoin : [sep].intercalate (w :: v :: ws) = w ++ sep :: [sep].intercalate (v :: ws) := by
      simp [List.intercalate]
    rw [hjoin, splitAtChar_append_cons, hw, ih (fun u hu => hws u (List.mem_cons_of_mem w hu)) hv]
    rfl

/-! ## §5 Closed Lines -/

/-- Lines that are each closed by a line feed are the lines of the text that they make up. -/
theorem lines_closed {l : List (List Char)} (hl : ∀ w ∈ l, ¬ '\n' ∈ w) :
    lines (l.flatMap fun w => w ++ ['\n']) = l.map dropReturn := by
  induction l with
  | nil => rfl
  | cons w l ih =>
    have hw : ∀ c ∈ w, c ≠ '\n' := fun c hc hn => hl w (by simp) (hn ▸ hc)
    rw [List.flatMap_cons, List.append_assoc, List.singleton_append, lines_append_cons hw,
      ih fun v hv => hl v (List.mem_cons_of_mem w hv), List.map_cons]

/-! ## §6 Numerals -/

namespace Numeral

theorem not_isBlank_of_isDigit {c : Char} (h : c.isDigit = true) : isBlank c = false := by
  have hrange : 48 ≤ c.toNat ∧ c.toNat ≤ 57 := by
    simp only [Char.isDigit, Bool.and_eq_true, decide_eq_true_eq] at h
    exact h
  simp only [isBlank, Bool.or_eq_false_iff, Bool.and_eq_false_iff, beq_eq_false_iff_ne,
    decide_eq_false_iff_not]
  omega

theorem isWord_ofNat {n : Nat} : IsWord (ofNat n) :=
  ⟨ofNat_ne_nil, fun _ hc => not_isBlank_of_isDigit (isDigit_of_mem_ofNat hc)⟩

/-- A character that is no digit does not occur in the numeral of a natural number. -/
theorem not_mem_ofNat {n : Nat} {c : Char} (hc : c.isDigit = false) : ¬ c ∈ ofNat n := by
  intro h
  rw [isDigit_of_mem_ofNat h] at hc
  cases hc

/-- The numeral of an integer consists of digits, perhaps with a hyphen in front. -/
theorem eq_or_isDigit_of_mem_ofInt {i : Int} {c : Char} (h : c ∈ ofInt i) :
    c = '-' ∨ c.isDigit = true := by
  cases i with
  | ofNat n => exact Or.inr (isDigit_of_mem_ofNat h)
  | negSucc n =>
    rcases List.mem_cons.1 h with rfl | h
    · exact Or.inl rfl
    · exact Or.inr (isDigit_of_mem_ofNat h)

theorem not_mem_ofInt {i : Int} {c : Char} (hhyphen : c ≠ '-') (hc : c.isDigit = false) :
    ¬ c ∈ ofInt i := by
  intro h
  rcases eq_or_isDigit_of_mem_ofInt h with h | h
  · exact hhyphen h
  · rw [h] at hc
    cases hc

theorem ofInt_ne_nil {i : Int} : ofInt i ≠ [] := by
  cases i with
  | ofNat n => exact ofNat_ne_nil
  | negSucc n => exact List.cons_ne_nil _ _

theorem isWord_ofInt {i : Int} : IsWord (ofInt i) := by
  refine ⟨ofInt_ne_nil, fun c hc => ?_⟩
  rcases eq_or_isDigit_of_mem_ofInt hc with rfl | hdigit
  · decide
  · exact not_isBlank_of_isDigit hdigit

/-! ## §7 Joined Numerals -/

/-- A text that does not go on with a digit. -/
def EndsNumeral (t : List Char) : Prop := ∀ c ∈ t.head?, c.isDigit = false

variable {t u : List Char} {m n : Nat} {i j : Int} {sep : Char}

/-- The digits of a numeral end where no digit follows. -/
theorem takeWhile_isDigit_ofNat (ht : EndsNumeral t) :
    (ofNat n ++ t).takeWhile Char.isDigit = ofNat n := by
  rw [List.takeWhile_append_of_pos fun c hc => isDigit_of_mem_ofNat hc]
  cases t with
  | nil => simp
  | cons c t => simp [ht c rfl]

theorem ofNat_append_inj (ht : EndsNumeral t) (hu : EndsNumeral u)
    (h : ofNat m ++ t = ofNat n ++ u) : m = n ∧ t = u := by
  have hdigits : ofNat m = ofNat n := by
    rw [← takeWhile_isDigit_ofNat ht, h, takeWhile_isDigit_ofNat hu]
  refine ⟨?_, List.append_cancel_left (hdigits ▸ h)⟩
  have hread : digits? (ofNat m) = digits? (ofNat n) := congrArg digits? hdigits
  simpa using hread

/-- A hyphen in front of a numeral is a sign, so no other numeral begins like it. -/
theorem ofNat_append_ne_hyphen : ofNat n ++ t ≠ '-' :: u := by
  intro h
  obtain ⟨c, r, hc⟩ := List.exists_cons_of_ne_nil (ofNat_ne_nil (n := n))
  rw [hc, List.cons_append, List.cons.injEq] at h
  apply not_mem_ofNat (n := n) (c := '-') (by decide)
  rw [hc, h.1]
  exact List.mem_cons_self

theorem ofInt_append_inj (ht : EndsNumeral t) (hu : EndsNumeral u)
    (h : ofInt i ++ t = ofInt j ++ u) : i = j ∧ t = u := by
  cases i with
  | ofNat m =>
    cases j with
    | ofNat n =>
      obtain ⟨rfl, htu⟩ := ofNat_append_inj ht hu h
      exact ⟨rfl, htu⟩
    | negSucc n => exact absurd h ofNat_append_ne_hyphen
  | negSucc m =>
    cases j with
    | ofNat n => exact absurd h.symm ofNat_append_ne_hyphen
    | negSucc n =>
      obtain ⟨hmn, htu⟩ := ofNat_append_inj ht hu (List.cons.inj h).2
      exact ⟨congrArg Int.negSucc (Nat.succ.inj hmn), htu⟩

/-- Numerals behind separators determine the numbers, even if the separator is the sign. -/
theorem separated_ofInt_inj (hsep : sep.isDigit = false) {l m : List Int}
    (h : (l.flatMap fun i => sep :: ofInt i) = m.flatMap fun i => sep :: ofInt i) : l = m := by
  -- a separator or the end follows each numeral, so it can be read off
  have hends : ∀ l : List Int, EndsNumeral (l.flatMap fun i => sep :: ofInt i) := by
    intro l c hc
    cases l with
    | nil => cases hc
    | cons i l =>
      cases hc
      exact hsep
  induction l generalizing m with
  | nil =>
    cases m with
    | nil => rfl
    | cons j m => simp at h
  | cons i l ih =>
    cases m with
    | nil => simp at h
    | cons j m =>
      simp only [List.flatMap_cons, List.cons_append, List.cons.injEq, true_and] at h
      obtain ⟨rfl, hrest⟩ := ofInt_append_inj (hends l) (hends m) h
      rw [ih hrest]

theorem joined_cons {w : List Char} {ws : List (List Char)} :
    [sep].intercalate (w :: ws) = w ++ ws.flatMap (sep :: ·) := by
  induction ws generalizing w with
  | nil => simp
  | cons v ws ih =>
    rw [List.intercalate_cons_cons, ih]
    simp

/-- Joined numerals determine the numbers. -/
theorem joined_ofInt_inj (hsep : sep.isDigit = false) {l m : List Int}
    (h : [sep].intercalate (l.map ofInt) = [sep].intercalate (m.map ofInt)) : l = m := by
  cases l with
  | nil =>
    cases m with
    | nil => rfl
    | cons j m => simp [joined_cons, ofInt_ne_nil] at h
  | cons i l =>
    cases m with
    | nil => simp [joined_cons, ofInt_ne_nil] at h
    | cons j m =>
      apply separated_ofInt_inj hsep
      simpa [joined_cons, List.flatMap_map] using h

theorem joined_ofNat_inj (hsep : sep.isDigit = false) {l m : List Nat}
    (h : [sep].intercalate (l.map ofNat) = [sep].intercalate (m.map ofNat)) : l = m := by
  have hints : ∀ l : List Nat, l.map ofNat = (l.map Int.ofNat).map ofInt := by
    intro l
    rw [List.map_map]
    rfl
  rw [hints, hints] at h
  exact (List.map_inj_right fun _ _ => Int.ofNat.inj).1 (joined_ofInt_inj hsep h)

end Numeral

end SpectrumPacking.Text
