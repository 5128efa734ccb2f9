/-!
# Cutting Texts into Pieces

A text is handled as its list of characters.  Blank characters are those with the Unicode property
White_Space; the zero-width space U+200B and the byte order mark U+FEFF lack it.  Fields between
separators, words between blanks, and lines all come from one cut of a text at the characters that
pass a test; `intercalate_splitAtChar` says that cutting loses nothing but the separators.

In a line format every line is an item of its own, and is read with its number at hand.
-/

namespace SpectrumPacking.Text

universe u v

/-! ## §1 Blank Characters -/

/-- Whether a character has the property White_Space. -/
def isBlank (c : Char) : Bool :=
  let n := c.toNat
  (9 ≤ n && n ≤ 13) || n == 0x20 || n == 0x85 || n == 0xA0 || n == 0x1680 ||
    (0x2000 ≤ n && n ≤ 0x200A) || n == 0x2028 || n == 0x2029 || n == 0x202F || n == 0x205F ||
    n == 0x3000

/-- The ASCII blanks of the core library are blank. -/
example : isBlank '\u00a0' = true ∧ isBlank '\u200b' = false ∧ isBlank '\ufeff' = false := by
  decide

/-! ## §2 Trimming -/

/-- Drops the blanks in front. -/
def trimStart (t : List Char) : List Char := t.dropWhile isBlank

/-- Drops the blanks at the end. -/
def trimEnd (t : List Char) : List Char := (t.reverse.dropWhile isBlank).reverse

/-- Drops the blanks at both ends. -/
def trim (t : List Char) : List Char := trimEnd (trimStart t)

@[simp] theorem trim_nil : trim [] = [] := rfl

theorem trimStart_eq_self {c : Char} {t : List Char} (h : isBlank c = false) :
    trimStart (c :: t) = c :: t := by
  rw [trimStart, List.dropWhile_cons_of_neg (by simp [h])]

theorem trimStart_append_of_blank {g t : List Char} (h : ∀ c ∈ g, isBlank c = true) :
    trimStart (g ++ t) = trimStart t := by
  induction g with
  | nil => rfl
  | cons c g ih =>
    rw [trimStart, List.cons_append, List.dropWhile_cons_of_pos (h c (by simp))]
    exact ih fun d hd => h d (List.mem_cons_of_mem c hd)

theorem trimEnd_append_of_blank {g t : List Char} (h : ∀ c ∈ g, isBlank c = true) :
    trimEnd (t ++ g) = trimEnd t := by
  have := trimStart_append_of_blank (g := g.reverse) (t := t.reverse)
    (fun c hc => h c (List.mem_reverse.1 hc))
  simp only [trimStart] at this
  rw [trimEnd, List.reverse_append, this, trimEnd]

/-! ## §3 Cutting at Characters -/

/-- Cuts a text at every character that passes the test: the first piece and the others. -/
def cut (p : Char → Bool) : List Char → List Char × List (List Char)
  | [] => ([], [])
  | c :: rest =>
    let (piece, more) := cut p rest
    if p c then ([], piece :: more) else (c :: piece, more)

/-- The pieces between the characters that pass the test; there is at least one. -/
def pieces (p : Char → Bool) (t : List Char) : List (List Char) := (cut p t).1 :: (cut p t).2

/-- The fields between the occurrences of a separator. -/
def splitAtChar (sep : Char) (t : List Char) : List (List Char) := pieces (· == sep) t

@[simp] theorem pieces_nil {p : Char → Bool} : pieces p [] = [[]] := rfl

theorem pieces_cons_of_pos {p : Char → Bool} {c : Char} {t : List Char} (h : p c = true) :
    pieces p (c :: t) = [] :: pieces p t := by
  simp [pieces, cut, h]

theorem pieces_cons_of_neg {p : Char → Bool} {c : Char} {t : List Char} (h : p c = false) :
    pieces p (c :: t) = (c :: (cut p t).1) :: (cut p t).2 := by
  simp [pieces, cut, h]

theorem pieces_ne_nil {p : Char → Bool} {t : List Char} : pieces p t ≠ [] := by simp [pieces]

/-- A text without separators is one piece. -/
theorem pieces_eq_singleton {p : Char → Bool} {t : List Char} (h : ∀ c ∈ t, p c = false) :
    pieces p t = [t] := by
  induction t with
  | nil => rfl
  | cons c t ih =>
    have ht := ih fun d hd => h d (List.mem_cons_of_mem c hd)
    rw [pieces_cons_of_neg (h c (by simp))]
    simp only [pieces, List.cons.injEq] at ht
    rw [ht.1, ht.2]

/-- A separator ends the piece in front of it. -/
theorem pieces_append_cons {p : Char → Bool} {s : Char} {w t : List Char}
    (hw : ∀ c ∈ w, p c = false) (hs : p s = true) :
    pieces p (w ++ s :: t) = w :: pieces p t := by
  induction w with
  | nil => exact pieces_cons_of_pos hs
  | cons c w ih =>
    have hrest := ih fun d hd => hw d (List.mem_cons_of_mem c hd)
    rw [List.cons_append, pieces_cons_of_neg (hw c (by simp))]
    simp only [pieces, List.cons.injEq] at hrest
    rw [hrest.1, hrest.2]
    rfl

/-- Putting the separator back between the fields gives the text. -/
theorem intercalate_splitAtChar (sep : Char) (t : List Char) :
    [sep].intercalate (splitAtChar sep t) = t := by
  induction t with
  | nil => rfl
  | cons c t ih =>
    cases h : (c == sep) with
    | true =>
      -- a separator starts a new piece, and any other character belongs to the first piece
      have hc : c = sep := by simpa using h
      rw [splitAtChar, pieces_cons_of_pos (p := (· == sep)) h]
      rw [splitAtChar, pieces] at ih
      simp only [List.intercalate, pieces, List.intersperse_cons_cons, List.flatten_cons,
        List.nil_append] at ih ⊢
      rw [ih, hc]
      rfl
    | false =>
      rw [splitAtChar, pieces_cons_of_neg (p := (· == sep)) h]
      rw [splitAtChar, pieces] at ih
      cases hm : (cut (· == sep) t).2 with
      | nil =>
        rw [hm] at ih
        simp only [List.intercalate, List.intersperse_singleton, List.flatten_cons,
          List.flatten_nil, List.append_nil] at ih ⊢
        rw [ih]
      | cons q more =>
        rw [hm] at ih
        simp only [List.intercalate, List.intersperse_cons_cons, List.flatten_cons,
          List.cons_append] at ih ⊢
        rw [ih]

/-! ## §4 Words -/

/-- The maximal runs of characters that are not blank. -/
def words (t : List Char) : List (List Char) := (pieces isBlank t).filter fun w => !w.isEmpty

@[simp] theorem words_nil : words [] = [] := rfl

theorem words_cons_of_blank {c : Char} {t : List Char} (h : isBlank c = true) :
    words (c :: t) = words t := by
  simp [words, pieces_cons_of_pos h]

/-- A word followed by a blank is the first word. -/
theorem words_append_cons {w : List Char} {s : Char} {t : List Char}
    (hne : w ≠ []) (hw : ∀ c ∈ w, isBlank c = false) (hs : isBlank s = true) :
    words (w ++ s :: t) = w :: words t := by
  rw [words, pieces_append_cons hw hs, List.filter_cons_of_pos (by simpa using hne), words]

/-- A text without blanks is one word. -/
theorem words_eq_singleton {w : List Char} (hne : w ≠ []) (hw : ∀ c ∈ w, isBlank c = false) :
    words w = [w] := by
  rw [words, pieces_eq_singleton hw]
  simpa using hne

/-! ## §5 Lines -/

/-- Drops one carriage return at the end. -/
def dropReturn (line : List Char) : List Char :=
  if line.getLast? = some '\r' then line.dropLast else line

/-- A line that a line feed ends loses a carriage return in front of it; what follows the last
line feed is a line if it is not empty, and keeps its characters. -/
def endLines (line : List Char) : List (List Char) → List (List Char)
  | [] => if line.isEmpty then [] else [line]
  | next :: rest => dropReturn line :: endLines next rest

/-- The lines of a text. -/
def lines (t : List Char) : List (List Char) :=
  endLines (cut (· == '\n') t).1 (cut (· == '\n') t).2

@[simp] theorem lines_nil : lines [] = [] := rfl

/-- A line feed ends the first line. -/
theorem lines_append_cons {w t : List Char} (hw : ∀ c ∈ w, c ≠ '\n') :
    lines (w ++ '\n' :: t) = dropReturn w :: lines t := by
  have := pieces_append_cons (p := (· == '\n')) (s := '\n') (w := w) (t := t)
    (fun c hc => by simpa using hw c hc) (by decide)
  simp only [pieces, List.cons.injEq] at this
  rw [lines, this.1, this.2]
  rfl

/-- A text without line feeds is one line, or none if it is empty. -/
theorem lines_eq_singleton {w : List Char} (hne : w ≠ []) (hw : ∀ c ∈ w, c ≠ '\n') :
    lines w = [w] := by
  have := pieces_eq_singleton (p := (· == '\n')) (t := w) (fun c hc => by simpa using hw c hc)
  simp only [pieces, List.cons.injEq] at this
  rw [lines, this.1, this.2]
  simpa [endLines] using hne

example : lines "a\r\nb\n\r\nc\r".toList = ["a".toList, "b".toList, [], "c\r".toList] := by
  decide

/-! ## §6 Letter Case -/

/-- Replaces the ASCII lower-case letters by upper-case ones. -/
def upper (t : List Char) : List Char := t.map Char.toUpper

/-! ## §7 Line Formats -/

/-- Feeds the lines of a list to `step` one after another, with their numbers from `n` on, until
one is refused. -/
def foldLines {ε : Type u} {σ : Type v} (step : Nat → σ → List Char → Except ε σ) :
    Nat → σ → List (List Char) → Except ε σ
  | _, s, [] => .ok s
  | n, s, line :: rest =>
    match step n s line with
    | .error e => .error e
    | .ok t => foldLines step (n + 1) t rest

/-- The fields of a line, without the blanks around them. -/
def fields (line : List Char) : List (List Char) := (splitAtChar ',' line).map trim

/-- The fields of a line that hold something. -/
def filledFields (line : List Char) : List (List Char) := (fields line).filter fun f => !f.isEmpty

/-- Whether a line is blank or starts, after blanks, with a number sign. -/
def isRemark (line : List Char) : Bool :=
  match trim line with
  | [] => true
  | c :: _ => c == '#'

theorem foldLines_append {ε : Type u} {σ : Type v} {step : Nat → σ → List Char → Except ε σ}
    {n : Nat} {s : σ} {l m : List (List Char)} :
    foldLines step n s (l ++ m)
      = (foldLines step n s l).bind fun t => foldLines step (n + l.length) t m := by
  induction l generalizing n s with
  | nil => rfl
  | cons line l ih =>
    rw [List.cons_append, foldLines, foldLines]
    cases step n s line with
    | error e => rfl
    | ok t =>
      have hlength : n + (line :: l).length = n + 1 + l.length := by
        rw [List.length_cons]
        omega
      rw [hlength]
      exact ih

/-- What holds of the lines read so far and of what they come to holds in the end, if every step
keeps it. -/
theorem foldLines_induct {ε : Type u} {σ : Type v} {step : Nat → σ → List Char → Except ε σ}
    {P : List (List Char) → σ → Prop}
    (hstep : ∀ past n s line t, P past s → step n s line = .ok t → P (past ++ [line]) t)
    (past : List (List Char)) {l : List (List Char)} {n : Nat} {s t : σ} (hs : P past s)
    (h : foldLines step n s l = .ok t) : P (past ++ l) t := by
  induction l generalizing past n s with
  | nil =>
    cases h
    rwa [List.append_nil]
  | cons line l ih =>
    rw [foldLines] at h
    split at h
    · cases h
    · rename_i u hu
      rw [List.append_cons]
      exact ih _ (hstep _ _ _ _ _ hs hu) h

end SpectrumPacking.Text
