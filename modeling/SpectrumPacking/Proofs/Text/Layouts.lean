import Mathlib.Data.List.Forall2
import SpectrumPacking.Proofs.Text.Words

/-!
# Layouts of Line Formats

A text lists its items line by line, but there are many ways to lay it out: remarks and blank lines
in between, blanks around fields, and fields with nothing in them (`Layout`).  Reading line by line
does not see the difference.  If what a step does depends on what its line says alone, then a text
takes it through the items that its lines say (`Telling.foldLines_eq`), and so a step that goes by
the fields of a line goes through the items that the text lists (`Layout.foldLines_eq`).

A line can say a list of words, with blanks between them (`WordsOn`), or two fields in front of
others that do not matter (`Opens`).  Reading finds the words and the fields again
(`WordsOn.words_eq`, `Opens.fields_eq`).
-/

namespace SpectrumPacking.Text

universe u v w

/-! ## §1 Blanks Around a Text -/

/-- The text consists of blanks. -/
def IsGap (g : List Char) : Prop := ∀ c ∈ g, isBlank c = true

instance {g : List Char} : Decidable (IsGap g) :=
  decidable_of_iff (g.all isBlank = true) List.all_eq_true

theorem isGap_nil : IsGap [] := nofun

section Blanks

variable {c : Char} {g t : List Char}

theorem trim_append_left (hg : IsGap g) : trim (g ++ t) = trim t := by
  rw [trim, trimStart_append_of_blank hg, ← trim]

theorem trim_append_right (hg : IsGap g) : trim (t ++ g) = trim t := by
  have hnone : g.dropWhile isBlank = [] := List.dropWhile_eq_nil_iff.2 hg
  rw [trim, trim, trimStart, List.dropWhile_append]
  split
  · rename_i h
    rw [trimStart, hnone, List.isEmpty_iff.1 h]
  · exact trimEnd_append_of_blank hg

theorem trim_dropReturn : trim (dropReturn t) = trim t := by
  obtain ⟨g, hg, hblank⟩ := exists_dropReturn t
  rw [hg, trim_append_right hblank, ← hg]

theorem exists_trim (t : List Char) :
    ∃ g g', t = g ++ trim t ++ g' ∧ IsGap g ∧ IsGap g' := by
  obtain ⟨g', hg', hblank'⟩ := exists_trimEnd (trimStart t)
  refine ⟨t.takeWhile isBlank, g', ?_, fun c hc => List.mem_takeWhile_imp hc, hblank'⟩
  rw [List.append_assoc, trim, ← hg', trimStart, List.takeWhile_append_dropWhile]

/-- Trimming keeps the first character if it is not blank. -/
theorem exists_trim_cons (hc : isBlank c = false) : ∃ r, trim (c :: t) = c :: r := by
  obtain ⟨g, hg, hblank⟩ := exists_trimEnd (c :: t)
  rw [trim, trimStart_eq_self hc]
  cases hend : trimEnd (c :: t) with
  | nil =>
    rw [hend, List.nil_append] at hg
    rw [hblank c (by simp [← hg])] at hc
    cases hc
  | cons d r =>
    rw [hend, List.cons_append, List.cons.injEq] at hg
    rw [hg.1]
    exact ⟨r, rfl⟩

theorem IsWord.trim_eq (ht : IsWord t) : trim t = t := by
  have hnone : ∀ {l : List Char}, (∀ c ∈ l, isBlank c = false) → l.dropWhile isBlank = l := by
    intro l hl
    cases l with
    | nil => rfl
    | cons c l => exact List.dropWhile_cons_of_neg (by simp [hl c (by simp)])
  rw [trim, trimStart, hnone ht.not_blank, trimEnd,
    hnone fun c hc => ht.not_blank c (List.mem_reverse.1 hc), List.reverse_reverse]

end Blanks

/-! ## §2 Blanks Around Fields -/

section Fields

variable {g t u : List Char}

theorem fields_append_cons : fields (t ++ ',' :: u) = fields t ++ fields u := by
  rw [fields, splitAtChar_append_cons, List.map_append]
  rfl

theorem fields_eq_singleton (ht : ¬ ',' ∈ t) : fields t = [trim t] := by
  rw [fields, splitAtChar_eq_singleton ht]
  rfl

theorem IsGap.no_comma (hg : IsGap g) : ¬ ',' ∈ g :=
  fun h => absurd (hg ',' h) (by decide)

theorem fields_append_left (hg : IsGap g) : fields (g ++ t) = fields t := by
  have hfirst : ∀ {a}, ¬ ',' ∈ a → fields (g ++ a) = fields a := by
    intro a ha
    have hga : ¬ ',' ∈ g ++ a := by
      rw [List.mem_append]
      exact fun h => h.elim hg.no_comma ha
    rw [fields_eq_singleton hga, fields_eq_singleton ha, trim_append_left hg]
  by_cases ht : ',' ∈ t
  · obtain ⟨a, b, rfl, ha⟩ := List.eq_append_cons_of_mem ht
    rw [← List.append_assoc, fields_append_cons, fields_append_cons, hfirst ha]
  · exact hfirst ht

theorem fields_append_right {t : List Char} (hg : IsGap g) :
    fields (t ++ g) = fields t := by
  by_cases ht : ',' ∈ t
  · obtain ⟨a, b, rfl, -⟩ := List.eq_append_cons_of_mem ht
    rw [List.append_assoc, List.cons_append, fields_append_cons, fields_append_cons,
      fields_append_right (t := b) hg]
  · have htg : ¬ ',' ∈ t ++ g := by
      rw [List.mem_append]
      exact fun h => h.elim ht hg.no_comma
    rw [fields_eq_singleton htg, fields_eq_singleton ht, trim_append_right hg]
termination_by t.length
decreasing_by
  subst_vars
  rw [List.length_append, List.length_cons]
  omega

/-- Trimming a line does not change its fields. -/
theorem fields_trim : fields (trim t) = fields t := by
  obtain ⟨g, g', ht, hg, hg'⟩ := exists_trim t
  rw [ht, fields_append_right hg', fields_append_left hg, ← ht]

theorem filledFields_trim : filledFields (trim t) = filledFields t := by
  rw [filledFields, filledFields, fields_trim]

end Fields

/-! ## §3 Layouts -/

/-- The text can be a field: there is something in it, without blanks around it, and no comma. -/
structure IsField (w : List Char) : Prop where
  ne_nil : w ≠ []
  trim_eq : trim w = w
  no_comma : ¬ ',' ∈ w

theorem IsWord.isField {w : List Char} (hw : IsWord w) (hcomma : ¬ ',' ∈ w) : IsField w :=
  ⟨hw.ne_nil, hw.trim_eq, hcomma⟩

/-- How the pieces between the commas of a line may hold its fields. -/
inductive Spaced : List (List Char) → List (List Char) → Prop where
  | nil : Spaced [] []
  /-- A piece without a field. -/
  | gap {ws ps g} (hg : IsGap g) (h : Spaced ws ps) : Spaced ws (g :: ps)
  /-- A piece with a field and blanks around it. -/
  | field {w ws ps l r} (hl : IsGap l) (hr : IsGap r)
      (h : Spaced ws ps) : Spaced (w :: ws) ((l ++ w ++ r) :: ps)

/-- A line holds fields. -/
def Holds (line : List Char) (ws : List (List Char)) : Prop :=
  ∃ ps, Spaced ws ps ∧ line = [','].intercalate ps

/-- A line that holds nothing but blanks, and perhaps a remark behind a number sign. -/
def IsRemarkLine (line : List Char) : Prop :=
  ∃ g t, line = g ++ t ∧ IsGap g ∧ (t = [] ∨ t.head? = some '#')

/-- Lines that list items, each on a line of its own and with remarks in between.  An item can be
written with the fields to which it belongs. -/
inductive ListedOn {α : Type u} (Item : List (List Char) → α → Prop) :
    List (List Char) → List α → Prop where
  | nil : ListedOn Item [] []
  | remark {line ls as} (hline : IsRemarkLine line) (h : ListedOn Item ls as) :
      ListedOn Item (line :: ls) as
  | item {line ws ls a as} (hline : Holds line ws) (hitem : Item ws a) (h : ListedOn Item ls as) :
      ListedOn Item (line :: ls) (a :: as)

/-- A text that lists items. -/
def Layout {α : Type u} (Item : List (List Char) → α → Prop) (text : List Char) (as : List α) :
    Prop :=
  ∃ ls, ListedOn Item ls as ∧ (∀ line ∈ ls, ¬ '\n' ∈ line) ∧ text = ['\n'].intercalate ls

/-! ## §4 Lines -/

section Lines

variable {w : List Char} {ws ps : List (List Char)} {line : List Char}

/-- A field may stand without blanks. -/
theorem Spaced.bare (h : Spaced ws ps) : Spaced (w :: ws) (w :: ps) := by
  simpa using Spaced.field (w := w) isGap_nil isGap_nil h

theorem Spaced.no_comma (h : Spaced ws ps) (hws : ∀ w ∈ ws, IsField w) : ∀ p ∈ ps, ¬ ',' ∈ p := by
  induction h with
  | nil => exact nofun
  | gap hg h ih =>
    intro p hp
    rcases List.mem_cons.1 hp with rfl | hp
    · exact hg.no_comma
    · exact ih hws p hp
  | field hl hr h ih =>
    intro p hp
    rcases List.mem_cons.1 hp with rfl | hp
    · rw [List.mem_append, List.mem_append]
      rintro ((hcomma | hcomma) | hcomma)
      · exact hl.no_comma hcomma
      · exact (hws _ (by simp)).no_comma hcomma
      · exact hr.no_comma hcomma
    · exact ih (fun w hw => hws w (List.mem_cons_of_mem _ hw)) p hp

/-- Of spaced fields, trimming leaves the fields. -/
theorem Spaced.filter_trim (h : Spaced ws ps) (hws : ∀ w ∈ ws, IsField w) :
    (ps.map trim).filter (fun f => !f.isEmpty) = ws := by
  induction h with
  | nil => rfl
  | @gap ws ps g hg h ih =>
    have hnone : trim g = [] := by
      have := trim_append_left (t := []) hg
      rwa [List.append_nil] at this
    rw [List.map_cons, hnone, List.filter_cons_of_neg (by simp)]
    exact ih hws
  | @field w ws ps l r hl hr h ih =>
    have hw := hws w (by simp)
    have htrim : trim (l ++ w ++ r) = w := by
      rw [trim_append_right hr, trim_append_left hl, hw.trim_eq]
    rw [List.map_cons, htrim, List.filter_cons_of_pos (by simpa using hw.ne_nil),
      ih fun v hv => hws v (List.mem_cons_of_mem _ hv)]

/-- The fields of a line are found again. -/
theorem Holds.filledFields_eq (h : Holds line ws) (hws : ∀ w ∈ ws, IsField w) :
    filledFields line = ws := by
  obtain ⟨ps, hps, rfl⟩ := h
  have hfilter := hps.filter_trim hws
  cases ps with
  | nil =>
    rw [← hfilter]
    rfl
  | cons p ps => rw [filledFields, fields, splitAtChar_joined (hps.no_comma hws), hfilter]

/-- A line whose first field does not start with a number sign is not a remark. -/
theorem Holds.isRemark_eq_false (h : Holds line (w :: ws)) (hws : ∀ v ∈ w :: ws, IsField v)
    (hhash : w.head? ≠ some '#') : isRemark line = false := by
  have hfields := h.filledFields_eq hws
  rw [← filledFields_trim] at hfields
  unfold isRemark
  cases htrim : trim line with
  | nil =>
    rw [htrim] at hfields
    cases hfields
  | cons c t =>
    by_cases hc : c = '#'
    · -- a number sign in front would be that of the first field
      exfalso
      subst hc
      obtain ⟨r, hr⟩ := exists_trim_cons (c := '#') (t := (cut (· == ',') t).1) (by decide)
      rw [htrim, filledFields, fields, splitAtChar, pieces_cons_of_neg (by decide), List.map_cons,
        hr, List.filter_cons_of_pos (by simp), List.cons.injEq] at hfields
      exact hhash (by rw [← hfields.1, List.head?_cons])
    · exact beq_eq_false_iff_ne.2 hc

theorem IsRemarkLine.isRemark (h : IsRemarkLine line) : isRemark line = true := by
  obtain ⟨g, t, rfl, hg, ht⟩ := h
  rw [Text.isRemark, trim_append_left hg]
  cases t with
  | nil => rfl
  | cons c t =>
    rcases ht with ht | ht
    · cases ht
    · rw [List.head?_cons, Option.some.injEq] at ht
      subst ht
      obtain ⟨r, hr⟩ := exists_trim_cons (c := '#') (t := t) (by decide)
      rw [hr]
      rfl

end Lines

/-! ## §5 Numerals and Tags -/

namespace Numeral

variable {n : Nat}

theorem isField_ofNat : IsField (ofNat n) := isWord_ofNat.isField (not_mem_ofNat (by decide))

theorem head?_ofNat_ne {c : Char} (hc : c.isDigit = false) : (ofNat n).head? ≠ some c :=
  fun h => not_mem_ofNat hc (List.mem_of_head? h)

/-- Digits have no letter case. -/
theorem upper_ofNat : upper (ofNat n) = ofNat n := by
  refine (List.map_congr_left fun c hc => ?_).trans (List.map_id _)
  have hrange : c.toNat ≤ 57 := by
    have hdigit := isDigit_of_mem_ofNat hc
    simp only [Char.isDigit, Bool.and_eq_true, decide_eq_true_eq] at hdigit
    exact hdigit.2
  unfold Char.toUpper
  split
  · rename_i hlower
    have : 97 ≤ c.toNat := hlower.1
    omega
  · rfl

theorem isField_ofInt {i : Int} : IsField (ofInt i) :=
  isWord_ofInt.isField (not_mem_ofInt (by decide) (by decide))

end Numeral

/-- The text is a tag in any letter case; the tag itself is in upper case. -/
def IsTag (tag : String) (t : List Char) : Prop :=
  List.Forall₂ (fun c d => c = d ∨ c = d.toLower) t tag.toList

instance {tag : String} {t : List Char} : Decidable (IsTag tag t) :=
  inferInstanceAs (Decidable (List.Forall₂ (fun c d => c = d ∨ c = d.toLower) t tag.toList))

/-- A character that stands for `d` in a tag, and takes no part in the layout of a line. -/
def StandsFor (c d : Char) : Prop := c.toUpper = d ∧ isBlank c = false ∧ c ≠ ',' ∧ c ≠ '#'

instance {c d : Char} : Decidable (StandsFor c d) :=
  inferInstanceAs (Decidable (c.toUpper = d ∧ isBlank c = false ∧ c ≠ ',' ∧ c ≠ '#'))

/-- The letters of a tag can be written in either case. -/
def IsTagName (tag : String) : Bool :=
  tag.toList.all fun d => StandsFor d d ∧ StandsFor d.toLower d

section Tags

variable {tag : String} {t : List Char}

/-- Whatever its letter case, a tag is recognised, and takes no part in the layout of a line. -/
theorem IsTag.upper_eq (h : IsTag tag t) (htag : IsTagName tag = true) :
    upper t = tag.toList ∧ ∀ c ∈ t, isBlank c = false ∧ c ≠ ',' ∧ c ≠ '#' := by
  rw [IsTag] at h
  rw [IsTagName] at htag
  generalize tag.toList = l at h htag
  induction h with
  | nil => exact ⟨rfl, nofun⟩
  | @cons c d t l hc h ih =>
    rw [List.all_cons, Bool.and_eq_true, decide_eq_true_iff] at htag
    obtain ⟨⟨hupperCase, hlowerCase⟩, htag⟩ := htag
    -- a letter of the tag stands in either case, and any other character as it is
    have hstands : StandsFor c d := by
      rcases hc with rfl | rfl
      · exact hupperCase
      · exact hlowerCase
    obtain ⟨hrest, hall⟩ := ih htag
    refine ⟨by rw [upper, List.map_cons, hstands.1, ← upper, hrest], fun e he => ?_⟩
    rcases List.mem_cons.1 he with rfl | he
    · exact hstands.2
    · exact hall e he

theorem IsTag.isField (h : IsTag tag t) (htag : IsTagName tag = true) (hne : tag.toList ≠ []) :
    IsField t ∧ t.head? ≠ some '#' := by
  obtain ⟨hupper, hplain⟩ := h.upper_eq htag
  have hword : IsWord t := by
    refine ⟨?_, fun c hc => (hplain c hc).1⟩
    rintro rfl
    exact hne hupper.symm
  refine ⟨hword.isField fun hc => (hplain _ hc).2.1 rfl, fun hhead => ?_⟩
  exact (hplain _ (List.mem_of_head? hhead)).2.2 rfl

end Tags

/-! ## §6 Lines That Say Items -/

section Telling

variable {α : Type u} (Idle : List Char → Prop) (Says : List Char → α → Prop)

/-- Lines that say items, each on a line of its own and with idle lines in between. -/
inductive Tells : List (List Char) → List α → Prop where
  | nil : Tells [] []
  | idle {line ls as} (hline : Idle line) (h : Tells ls as) : Tells (line :: ls) as
  | item {line ls a as} (hline : Says line a) (h : Tells ls as) : Tells (line :: ls) (a :: as)

/-- A text whose lines say items. -/
def Telling (text : List Char) (as : List α) : Prop :=
  ∃ ls, Tells Idle Says ls as ∧ (∀ line ∈ ls, ¬ '\n' ∈ line) ∧ text = ['\n'].intercalate ls

end Telling

/-! ## §7 Reading Line by Line -/

section Reading

variable {ε : Type u} {σ : Type v} {α : Type w} {step : Nat → σ → List Char → Except ε σ}
  {Idle : List Char → Prop} {Says : List Char → α → Prop} {ls : List (List Char)} {as : List α}
  {text : List Char} {n : Nat} {s : σ}

/-- Joined lines are read as they are, if blanks around a line do not count and an empty line
changes nothing. -/
theorem foldLines_joined (htrim : ∀ n s l l', trim l = trim l' → step n s l = step n s l')
    (hempty : ∀ n s, step n s [] = .ok s) (hls : ∀ line ∈ ls, ¬ '\n' ∈ line) :
    foldLines step n s (lines (['\n'].intercalate ls)) = foldLines step n s ls := by
  have hreturn : ∀ n s l, step n s (dropReturn l) = step n s l :=
    fun n s l => htrim n s _ _ trim_dropReturn
  induction ls generalizing n s with
  | nil => rfl
  | cons line ls ih =>
    have hline : ∀ c ∈ line, c ≠ '\n' := fun c hc hn => hls line (by simp) (hn ▸ hc)
    have ih := fun n s => ih (n := n) (s := s) fun l hl => hls l (List.mem_cons_of_mem _ hl)
    cases ls with
    | nil =>
      -- the last line is not seen if it is empty
      have hsingle : ['\n'].intercalate [line] = line := by simp [List.intercalate]
      rw [hsingle]
      by_cases hnil : line = []
      · subst hnil
        rw [lines_nil, foldLines, foldLines, hempty]
        rfl
      · rw [lines_eq_singleton hnil hline]
    | cons next ls =>
      have hjoin : ['\n'].intercalate (line :: next :: ls)
          = line ++ '\n' :: ['\n'].intercalate (next :: ls) := by simp [List.intercalate]
      rw [hjoin, lines_append_cons hline, foldLines, hreturn, foldLines.eq_def]
      dsimp only
      split
      · rfl
      · exact ih _ _

/-- Reading lines takes what they say, one item after another. -/
theorem Tells.foldLines_eq {f : σ → α → Except ε σ} (h : Tells Idle Says ls as)
    (hidle : ∀ line, Idle line → ∀ n s, step n s line = .ok s)
    (hitem : ∀ a ∈ as, ∀ line, Says line a → ∀ n s, step n s line = f s a) :
    foldLines step n s ls = as.foldlM f s := by
  induction h generalizing n s with
  | nil => rfl
  | idle hline _ ih =>
    rw [foldLines, hidle _ hline]
    exact ih hitem
  | @item line ls a as hline _ ih =>
    have hrest := fun b hb => hitem b (List.mem_cons_of_mem a hb)
    rw [foldLines, hitem a (by simp) _ hline, List.foldlM_cons]
    cases f s a with
    | error e => rfl
    | ok t => exact ih hrest

/-- Reading a text takes what its lines say, if blanks around a line do not count. -/
theorem Telling.foldLines_eq {f : σ → α → Except ε σ} (h : Telling Idle Says text as)
    (htrim : ∀ n s l l', trim l = trim l' → step n s l = step n s l')
    (hempty : ∀ n s, step n s [] = .ok s)
    (hidle : ∀ line, Idle line → ∀ n s, step n s line = .ok s)
    (hitem : ∀ a ∈ as, ∀ line, Says line a → ∀ n s, step n s line = f s a) :
    foldLines step n s (lines text) = as.foldlM f s := by
  obtain ⟨ls, hls, hfeed, rfl⟩ := h
  rw [foldLines_joined htrim hempty hfeed]
  exact hls.foldLines_eq hidle hitem

/-- A text that lists items is told line by line. -/
theorem Layout.telling {Item : List (List Char) → α → Prop} (h : Layout Item text as) :
    Telling IsRemarkLine (fun line a => ∃ ws, Holds line ws ∧ Item ws a) text as := by
  obtain ⟨ls, hls, hfeed, htext⟩ := h
  refine ⟨ls, ?_, hfeed, htext⟩
  clear hfeed htext
  induction hls with
  | nil => exact .nil
  | remark hline _ ih => exact .idle hline ih
  | item hline hitem _ ih => exact .item ⟨_, hline, hitem⟩ ih

/-- A text is read as the items that it lists, whatever its layout. -/
theorem Layout.foldLines_eq {Item : List (List Char) → α → Prop} {f : σ → α → σ}
    (h : Layout Item text as)
    (htrim : ∀ n s l l', trim l = trim l' → step n s l = step n s l')
    (hremark : ∀ n s line, isRemark line = true → step n s line = .ok s)
    (hitem : ∀ a ∈ as, ∀ ws, Item ws a → ∀ n s line, Holds line ws → step n s line = .ok (f s a)) :
    foldLines step n s (lines text) = .ok (as.foldl f s) := by
  rw [h.telling.foldLines_eq (f := fun s a => .ok (f s a)) htrim fun n s => hremark n s [] rfl]
  · exact List.foldlM_pure
  · exact fun line hline n s => hremark n s line hline.isRemark
  · intro a ha line hline n s
    obtain ⟨ws, hws, hitems⟩ := hline
    exact hitem a ha ws hitems n s line hws

end Reading

/-! ## §8 Words on a Line -/

/-- A line says words: there are blanks between each two of them, and there may be more around
them. -/
inductive WordsOn : List Char → List (List Char) → Prop where
  | gap {g} (hg : IsGap g) : WordsOn g []
  | last {g w} (hg : IsGap g) (hw : IsWord w) : WordsOn (g ++ w) [w]
  | word {g w b line ws} (hg : IsGap g) (hw : IsWord w) (hb : isBlank b = true)
      (h : WordsOn line ws) : WordsOn (g ++ w ++ b :: line) (w :: ws)

theorem words_append_left {g t : List Char} (hg : IsGap g) : words (g ++ t) = words t := by
  rw [← words_trim, trim_append_left hg, words_trim]

/-- The words of a line are found again. -/
theorem WordsOn.words_eq {line : List Char} {ws : List (List Char)} (h : WordsOn line ws) :
    words line = ws := by
  induction h with
  | gap hg => simpa using words_append_left (t := []) hg
  | last hg hw => rw [words_append_left hg, words_eq_singleton hw.ne_nil hw.not_blank]
  | word hg hw hb _ ih =>
    rw [List.append_assoc, words_append_left hg, words_append_cons hw.ne_nil hw.not_blank hb, ih]

theorem exists_wordsOn (line : List Char) : ∃ ws, WordsOn line ws := by
  induction line with
  | nil => exact ⟨[], .gap isGap_nil⟩
  | cons c line ih =>
    obtain ⟨ws, h⟩ := ih
    cases hc : isBlank c with
    | true =>
      -- a blank lengthens the gap in front of the words
      have hgap : ∀ {g}, IsGap g → IsGap (c :: g) := fun hg => List.forall_mem_cons.2 ⟨hc, hg⟩
      cases h with
      | gap hg => exact ⟨_, .gap (hgap hg)⟩
      | last hg hw => exact ⟨_, .last (hgap hg) hw⟩
      | word hg hw hb h => exact ⟨_, .word (hgap hg) hw hb h⟩
    | false =>
      -- another letter starts a word of its own, or lengthens the first word
      have hletter : IsWord [c] := ⟨by simp, by simp [hc]⟩
      have hlonger : ∀ {w}, IsWord w → IsWord (c :: w) := fun hw =>
        ⟨by simp, List.forall_mem_cons.2 ⟨hc, hw.not_blank⟩⟩
      have hbehind : ∀ {b g}, IsGap (b :: g) → isBlank b = true ∧ IsGap g :=
        fun hg => List.forall_mem_cons.1 hg
      cases h with
      | gap hg =>
        cases line with
        | nil => exact ⟨[[c]], .last isGap_nil hletter⟩
        | cons b line => exact ⟨_, .word isGap_nil hletter (hbehind hg).1 (.gap (hbehind hg).2)⟩
      | @last g w hg hw =>
        cases g with
        | nil => exact ⟨[c :: w], .last isGap_nil (hlonger hw)⟩
        | cons b g => exact ⟨_, .word isGap_nil hletter (hbehind hg).1 (.last (hbehind hg).2 hw)⟩
      | @word g w b line ws hg hw hb h =>
        cases g with
        | nil => exact ⟨(c :: w) :: ws, .word isGap_nil (hlonger hw) hb h⟩
        | cons b' g =>
          exact ⟨_, .word isGap_nil hletter (hbehind hg).1 (.word (hbehind hg).2 hw hb h)⟩

/-- A line says its words, and nothing else. -/
theorem wordsOn_iff {line : List Char} {ws : List (List Char)} :
    WordsOn line ws ↔ words line = ws := by
  refine ⟨WordsOn.words_eq, ?_⟩
  rintro rfl
  obtain ⟨ws, h⟩ := exists_wordsOn line
  rwa [h.words_eq]

/-! ## §9 Fields at the Start of a Line -/

/-- A text that can be a field as it is: it has neither a comma nor blanks at its ends. -/
structure IsFieldText (w : List Char) : Prop where
  trim_eq : trim w = w
  no_comma : ¬ ',' ∈ w

/-- A piece between commas holds a text, with blanks around it. -/
def Frames (piece w : List Char) : Prop := ∃ l r, IsGap l ∧ IsGap r ∧ piece = l ++ w ++ r

/-- A line starts with a field, and more fields may follow. -/
def Leads (line w : List Char) : Prop :=
  ∃ piece rest, Frames piece w ∧ (∀ c ∈ rest.head?, c = ',') ∧ line = piece ++ rest

/-- A line starts with two fields, and more fields may follow.  The second one is empty if the line
has a single field. -/
inductive Opens : List Char → List Char → List Char → Prop where
  | alone {line key} (hkey : Frames line key) : Opens line key []
  | two {piece line key value} (hkey : Frames piece key) (hvalue : Leads line value) :
      Opens (piece ++ ',' :: line) key value

section Fields

variable {piece w line key value : List Char}

theorem IsField.isFieldText (h : IsField w) : IsFieldText w := ⟨h.trim_eq, h.no_comma⟩

theorem isFieldText_nil : IsFieldText [] := ⟨rfl, nofun⟩

/-- A piece that holds a field is one field. -/
theorem Frames.fields_eq (h : Frames piece w) (hw : IsFieldText w) : fields piece = [w] := by
  obtain ⟨l, r, hl, hr, rfl⟩ := h
  rw [fields_append_right hr, fields_append_left hl, fields_eq_singleton hw.no_comma, hw.trim_eq]

theorem Leads.fields_eq (h : Leads line w) (hw : IsFieldText w) :
    ∃ more, fields line = w :: more := by
  obtain ⟨piece, rest, hpiece, hrest, rfl⟩ := h
  cases rest with
  | nil => exact ⟨[], by rw [List.append_nil, hpiece.fields_eq hw]⟩
  | cons c rest =>
    obtain rfl : c = ',' := hrest c rfl
    exact ⟨fields rest, by rw [fields_append_cons, hpiece.fields_eq hw]; rfl⟩

theorem frames_trim : Frames piece (trim piece) := by
  obtain ⟨l, r, hpiece, hl, hr⟩ := exists_trim piece
  exact ⟨l, r, hl, hr, hpiece⟩

/-- Every line starts with its first field. -/
theorem leads_of_fields {more : List (List Char)} (h : fields line = w :: more) : Leads line w := by
  by_cases hcomma : ',' ∈ line
  · obtain ⟨piece, rest, rfl, hpiece⟩ := List.eq_append_cons_of_mem hcomma
    rw [fields_append_cons, fields_eq_singleton hpiece, List.singleton_append, List.cons.injEq] at h
    exact ⟨piece, ',' :: rest, h.1 ▸ frames_trim, by simp, rfl⟩
  · rw [fields_eq_singleton hcomma, List.cons.injEq] at h
    exact ⟨line, [], h.1 ▸ frames_trim, by simp, by simp⟩

/-- Every line is opened by its first two fields. -/
theorem opens_of_fields (h : (fields line = [key] ∧ value = []) ∨
    ∃ more, fields line = key :: value :: more) : Opens line key value := by
  by_cases hcomma : ',' ∈ line
  · obtain ⟨piece, rest, rfl, hpiece⟩ := List.eq_append_cons_of_mem hcomma
    rw [fields_append_cons, fields_eq_singleton hpiece, List.singleton_append] at h
    have hrest : fields rest ≠ [] := by simp [fields, splitAtChar, pieces]
    obtain ⟨hsingle, -⟩ | ⟨more, hmore⟩ := h
    · exact absurd (List.cons.inj hsingle).2 hrest
    · obtain ⟨rfl, hvalue⟩ := List.cons.inj hmore
      exact .two frames_trim (leads_of_fields hvalue)
  · rw [fields_eq_singleton hcomma] at h
    obtain ⟨hsingle, rfl⟩ | ⟨more, hmore⟩ := h
    · obtain rfl := (List.cons.inj hsingle).1
      exact .alone frames_trim
    · cases (List.cons.inj hmore).2

/-- The fields of a line start with the two that open it. -/
theorem Opens.fields_eq (h : Opens line key value) (hkey : IsFieldText key)
    (hvalue : IsFieldText value) :
    (fields line = [key] ∧ value = []) ∨ ∃ more, fields line = key :: value :: more := by
  cases h with
  | alone hframe => exact .inl ⟨hframe.fields_eq hkey, rfl⟩
  | two hframe hleads =>
    obtain ⟨more, hmore⟩ := hleads.fields_eq hvalue
    refine .inr ⟨more, ?_⟩
    rw [fields_append_cons, hframe.fields_eq hkey, hmore]
    rfl

end Fields

end SpectrumPacking.Text
