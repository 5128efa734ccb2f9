import SpectrumPacking.Proofs.Files.Stores

/-!
# Making a Directory Again

A directory that was made is there, and making it again changes nothing.  A directory that could not
be made cannot be made later either: the second attempt leaves the store as it is, and its fault
reads as before, but for one case (`FileStore.provideAll_again`).  A first attempt may walk through
directories that it has only just made and then find a file in the place of a directory to be made;
later attempts meet this file on their way.
-/

namespace SpectrumPacking

open Text

/-- How the fault of an attempt can read when the attempt is repeated. -/
inductive FileFault.ReadsAgain : FileFault → FileFault → Prop where
  | same (e : FileFault) : ReadsAgain e e
  /-- A file that stood in the place of a directory is met on the way. -/
  | onTheWay : ReadsAgain .occupied .notDirectory

theorem FileFault.ReadsAgain.trans {e e' e'' : FileFault} (h : e.ReadsAgain e')
    (h' : e'.ReadsAgain e'') : e.ReadsAgain e'' := by
  cases h with
  | same => exact h'
  | onTheWay =>
    cases h' with
    | same => exact .onTheWay

namespace FileStore

variable {s t : FileStore} {p : Path} {l : Location} {ps up tail : List String}
  {e : FileFault} {content : FileContent} {w : List Char}

/-! ## §1 One Directory -/

theorem provideDirectory_of_walk_error (h : s.walk [] ps = .error e) :
    s.provideDirectory ps = .error e := by
  simp only [provideDirectory, makeDirectory, leadsToDirectory, h, Bool.false_eq_true, if_false]

/-- A file stands in the way. -/
theorem provideDirectory_of_file (h : s.walk [] ps = .ok l)
    (hfile : s.entry? l = some (.file content)) : s.provideDirectory ps = .error .occupied := by
  simp only [provideDirectory, makeDirectory, leadsToDirectory, h, hfile]
  rfl

theorem walk_of_missing (htail : tail ≠ []) (h : s.entry? l = none) :
    s.walk l tail = .error .missing := by
  obtain ⟨piece, rest, rfl⟩ := List.exists_cons_of_ne_nil htail
  rw [walk, h]

theorem walk_of_file (htail : tail ≠ []) (h : s.entry? l = some (.file content)) :
    s.walk l tail = .error .notDirectory := by
  obtain ⟨piece, rest, rfl⟩ := List.exists_cons_of_ne_nil htail
  rw [walk, h]

theorem provideBelow_of_leadsToDirectory {above : FileStore → Except FileFault Unit × FileStore}
    (h : s.leadsToDirectory ps = true) : s.provideBelow above ps = (.ok (), s) := by
  rw [provideBelow, provideDirectory_of_leadsToDirectory h]
  rfl

theorem provideBelow_of_error {above : FileStore → Except FileFault Unit × FileStore}
    (h : s.provideDirectory ps = .error e) (he : e ≠ .missing) :
    s.provideBelow above ps = (.error e, s) := by
  rw [provideBelow, h]
  cases e with
  | missing => exact absurd rfl he
  | _ => rfl

theorem provideBelow_of_above_error {above : FileStore → Except FileFault Unit × FileStore}
    (h : s.provideDirectory ps = .error .missing) (habove : above s = (.error e, t)) :
    s.provideBelow above ps = (.error e, t) := by
  simp only [provideBelow, h, habove]

theorem provideBelow_of_above_ok {above : FileStore → Except FileFault Unit × FileStore}
    (h : s.provideDirectory ps = .error .missing) (habove : above s = (.ok (), t)) :
    s.provideBelow above ps = t.attempted (t.provideDirectory ps) := by
  simp only [provideBelow, h, habove]

/-! ## §2 The Directories Above -/

theorem makeAll_of_ok (h : makeAll up s = (.ok (), t)) : makeAll up t = (.ok (), t) := by
  cases up with
  | nil => rfl
  | cons piece up =>
    have hleads := (grows_provideBelow (fun _ _ => grows_makeAll) h).2 rfl
    exact provideBelow_of_leadsToDirectory hleads

/-- Pieces lead through what other pieces lead to. -/
def LeadThrough (ps qs : List String) : Prop :=
  ∃ tail, tail ≠ [] ∧ ∀ s : FileStore, s.walk [] ps = s.walk [] (qs ++ tail)

/-- Where the directories above cannot be made, a directory cannot be made, either: it is out of
reach, or its fault is theirs. -/
theorem provideDirectory_of_makeAll_error (hup : up ≠ [] → LeadThrough ps up.reverse)
    (h : makeAll up t = (.error e, t)) :
    ∃ e', t.provideDirectory ps = .error e' ∧ (e' = .missing ∨ e.ReadsAgain e') := by
  cases up with
  | nil => cases h
  | cons piece up =>
    obtain ⟨tail, htail, hwalk⟩ := hup (List.cons_ne_nil piece up)
    have hps := (hwalk t).trans walk_append
    rw [makeAll] at h
    -- the way to the directory goes through the one above it
    cases hreach : t.walk [] (piece :: up).reverse with
    | error y =>
      rw [hreach] at hps
      refine ⟨y, provideDirectory_of_walk_error hps, ?_⟩
      by_cases hy : y = .missing
      · exact Or.inl hy
      · rw [provideBelow_of_error (provideDirectory_of_walk_error hreach) hy] at h
        cases h
        exact Or.inr (.same _)
    | ok l =>
      rw [hreach] at hps
      rcases hentry : t.entry? l with _ | _ | content
      · exact ⟨_, provideDirectory_of_walk_error (hps.trans (walk_of_missing htail hentry)),
          Or.inl rfl⟩
      · rw [provideBelow_of_leadsToDirectory (leadsToDirectory_iff.2 ⟨l, hreach, hentry⟩)] at h
        cases h
      · rw [provideBelow_of_error (provideDirectory_of_file hreach hentry) (by decide)] at h
        cases h
        exact ⟨_, provideDirectory_of_walk_error (hps.trans (walk_of_file htail hentry)),
          Or.inr .onTheWay⟩

/-- A directory that could not be made is tried again, if that goes for those above it. -/
theorem provideBelow_again (hup : up ≠ [] → LeadThrough ps up.reverse)
    (ih : ∀ {s t e}, makeAll up s = (.error e, t) →
      ∃ e', makeAll up t = (.error e', t) ∧ e.ReadsAgain e')
    (h : s.provideBelow (makeAll up) ps = (.error e, t)) :
    ∃ e', t.provideBelow (makeAll up) ps = (.error e', t) ∧ e.ReadsAgain e' := by
  cases hfirst : s.provideDirectory ps with
  | ok u =>
    rw [provideBelow, hfirst] at h
    cases h
  | error x =>
    by_cases hx : x = .missing
    · subst hx
      rcases habove : makeAll up s with ⟨y | _, u⟩
      · rw [provideBelow_of_above_error hfirst habove] at h
        cases h
        obtain ⟨e', hagain, he'⟩ := ih habove
        obtain ⟨e'', hprovide, he''⟩ := provideDirectory_of_makeAll_error hup hagain
        by_cases hmissing : e'' = .missing
        · subst hmissing
          -- the directories above are tried again, and fail again
          exact ⟨e', provideBelow_of_above_error hprovide hagain, he'⟩
        -- what was made on the way shows another fault now
        · exact ⟨e'', provideBelow_of_error hprovide hmissing,
            he'.trans (he''.resolve_left hmissing)⟩
      · rw [provideBelow_of_above_ok hfirst habove] at h
        cases hsecond : u.provideDirectory ps with
        | ok v =>
          rw [hsecond] at h
          cases h
        | error y =>
          rw [hsecond] at h
          cases h
          refine ⟨e, ?_, .same e⟩
          by_cases he : e = .missing
          · subst he
            rw [provideBelow_of_above_ok hsecond (makeAll_of_ok habove), hsecond]
            rfl
          · exact provideBelow_of_error hsecond he
    · rw [provideBelow_of_error hfirst hx] at h
      cases h
      exact ⟨e, provideBelow_of_error hfirst hx, .same e⟩

theorem makeAll_again (h : makeAll up s = (.error e, t)) :
    ∃ e', makeAll up t = (.error e', t) ∧ e.ReadsAgain e' := by
  induction up generalizing s t e with
  | nil => cases h
  | cons piece up ih =>
    have hup : LeadThrough (piece :: up).reverse up.reverse :=
      ⟨[piece], List.cons_ne_nil _ _, fun s => by rw [List.reverse_cons]⟩
    exact provideBelow_again (fun _ => hup) ih h

/-! ## §3 Paths -/

theorem isIdle_iff : Path.isIdle w = true ↔ w = [] ∨ w = ['.'] := by
  simp [Path.isIdle]

/-- A piece that stands for a component spells it. -/
theorem exists_ofPiece (isFirst : Bool) (hempty : w ≠ []) (hdot : w = ['.'] → isFirst = true) :
    ∃ c, Path.Component.ofPiece isFirst w = some c ∧ pieceOf c = String.ofList w := by
  unfold Path.Component.ofPiece
  split
  · exact absurd rfl hempty
  · exact ⟨.current, if_pos (hdot rfl), rfl⟩
  · exact ⟨.parent, rfl, rfl⟩
  · exact ⟨_, rfl, rfl⟩

/-- The pieces between slashes that stand for components. -/
theorem map_pieceOf_filterMap {ws : List (List Char)} :
    (ws.filterMap (Path.Component.ofPiece false)).map pieceOf
      = (ws.filter fun w => !Path.isIdle w).map String.ofList := by
  induction ws with
  | nil => rfl
  | cons w ws ih =>
    by_cases hidle : Path.isIdle w = true
    · have hnone : Path.Component.ofPiece false w = none := by
        rcases isIdle_iff.1 hidle with rfl | rfl <;> rfl
      rw [List.filterMap_cons_none hnone, List.filter_cons_of_neg (by simp [hidle]), ih]
    · have hplain := not_or.1 (mt isIdle_iff.2 hidle)
      obtain ⟨c, hc, hpiece⟩ :=
        exists_ofPiece false hplain.1 fun hdot => absurd hdot hplain.2
      rw [List.filterMap_cons_some hc, List.filter_cons_of_pos (by simp [hidle]), List.map_cons,
        List.map_cons, hpiece, ih]

theorem map_pieceOf_components {first : List Char} {rest : List (List Char)}
    (hsplit : splitAtChar '/' p.text.toList = first :: rest) (hp : p.text ≠ "") :
    p.components.map pieceOf
      = String.ofList first :: (rest.filter fun w => !Path.isIdle w).map String.ofList := by
  rw [← map_pieceOf_filterMap]
  unfold Path.components
  rw [hsplit]
  cases first with
  | nil =>
    cases rest with
    | nil =>
      -- only the empty path has no piece
      have htext := intercalate_splitAtChar '/' p.text.toList
      rw [hsplit] at htext
      exact absurd (String.toList_eq_nil_iff.1 htext.symm) hp
    | cons w rest => rfl
  | cons c cs =>
    obtain ⟨d, hd, hpiece⟩ := exists_ofPiece true (List.cons_ne_nil c cs) fun _ => rfl
    show ((Path.Component.ofPiece true (c :: cs)).toList ++ _).map pieceOf = _
    rw [hd, List.map_append, ← hpiece]
    rfl

/-- A piece that stands for no component is walked past. -/
theorem walk_idle (hw : Path.isIdle w = true) (htail : tail ≠ []) :
    s.walk l (String.ofList w :: tail) = s.walk l tail := by
  have hshort : ¬ maxNameBytes < (String.ofList w).utf8ByteSize := by
    rcases isIdle_iff.1 hw with rfl | rfl <;> decide
  have hstep : stepTo l (String.ofList w) = l := by
    rcases isIdle_iff.1 hw with rfl | rfl <;> rfl
  rcases hentry : s.entry? l with _ | _ | content
  · rw [walk_of_missing htail hentry, walk, hentry]
  · rw [walk, hentry]
    dsimp only
    rw [if_neg hshort, hstep]
  · rw [walk_of_file htail hentry, walk, hentry]

theorem walk_cons_congr {piece : String} (h : ∀ l, s.walk l ps = s.walk l tail) :
    s.walk l (piece :: ps) = s.walk l (piece :: tail) := by
  rw [walk, walk]
  simp only [h]

theorem walk_filter {ws : List (List Char)} (htail : tail ≠ []) :
    s.walk l (ws.map String.ofList ++ tail)
      = s.walk l ((ws.filter fun w => !Path.isIdle w).map String.ofList ++ tail) := by
  induction ws generalizing l with
  | nil => rfl
  | cons w ws ih =>
    rw [List.map_cons, List.cons_append, List.filter_cons]
    split
    · exact walk_cons_congr fun l => ih
    · rename_i hidle
      rw [walk_idle (by simpa using hidle) (by simp [htail]), ih]

theorem withoutSlashes_append (h : withoutSlashes ps = ps) :
    withoutSlashes (ps ++ tail) = ps ++ withoutSlashes tail := by
  have hreverse : ps.reverse.dropWhile (· == "") = ps.reverse := by
    rw [← List.reverse_reverse (ps.reverse.dropWhile _)]
    exact congrArg List.reverse h
  rw [withoutSlashes, withoutSlashes, List.reverse_append, List.dropWhile_append]
  split
  · rename_i hnil
    rw [hreverse, List.reverse_reverse, List.isEmpty_iff.1 hnil, List.reverse_nil, List.append_nil]
  · rw [List.reverse_append, List.reverse_reverse]

/-- Empty pieces behind another one are dropped, and no other pieces. -/
theorem withoutSlashes_append_cons {piece : String} (hpiece : piece ≠ "") :
    withoutSlashes (ps ++ piece :: tail) = ps ++ piece :: withoutSlashes tail := by
  have hlast : ¬ (ps ++ [piece]).getLast? = some "" := by
    rw [List.getLast?_concat]
    exact fun hempty => hpiece (Option.some.inj hempty)
  have happend : withoutSlashes (ps ++ [piece] ++ tail) = ps ++ [piece] ++ withoutSlashes tail :=
    withoutSlashes_append (withoutSlashes_of_getLast? hlast)
  rw [List.append_assoc, List.append_assoc] at happend
  exact happend

/-- The path of a directory leads through the components above the last one. -/
theorem leadThrough_components (hp : p.text ≠ "")
    (hup : (p.components.map pieceOf).reverse.drop 1 ≠ []) :
    LeadThrough (withoutSlashes (splitPath p))
      ((p.components.map pieceOf).reverse.drop 1).reverse := by
  obtain ⟨first, rest, hsplit⟩ : ∃ first rest, splitAtChar '/' p.text.toList = first :: rest :=
    List.exists_cons_of_ne_nil pieces_ne_nil
  have hcomponents := map_pieceOf_components hsplit hp
  rcases List.eq_nil_or_concat (rest.filter fun w => !Path.isIdle w) with hnil | ⟨kept, w, hkept⟩
  · rw [hcomponents, hnil] at hup
    exact absurd rfl hup
  -- the last piece that stands for a component, and what stands around it
  rw [List.concat_eq_append] at hkept
  obtain ⟨before, more, rfl, hbefore, hmore⟩ := List.filter_eq_append_iff.1 hkept
  obtain ⟨idle, after, rfl, hidle, hw, -⟩ := List.filter_eq_cons_iff.1 hmore
  have hfilter : (before ++ idle).filter (fun w => !Path.isIdle w) = kept := by
    rw [List.filter_append, hbefore, List.filter_eq_nil_iff.2 hidle, List.append_nil]
  have hup' : ((p.components.map pieceOf).reverse.drop 1).reverse
      = String.ofList first :: kept.map String.ofList := by
    rw [hcomponents, hkept]
    simp
  have hpiece : String.ofList w ≠ "" := by
    intro hempty
    have hnil : w = [] := by simpa using hempty
    rw [hnil] at hw
    exact absurd hw (by decide)
  have hpath : withoutSlashes (splitPath p)
      = String.ofList first :: ((before ++ idle).map String.ofList
        ++ String.ofList w :: withoutSlashes (after.map String.ofList)) := by
    have hall : splitPath p = (first :: (before ++ idle)).map String.ofList
        ++ String.ofList w :: after.map String.ofList := by
      rw [splitPath, hsplit]
      simp
    rw [hall, withoutSlashes_append_cons hpiece]
    rfl
  refine ⟨String.ofList w :: withoutSlashes (after.map String.ofList), List.cons_ne_nil _ _,
    fun s => ?_⟩
  rw [hpath, hup', ← hfilter, List.cons_append]
  exact walk_cons_congr fun l => walk_filter (List.cons_ne_nil _ _)

/-- A directory that could not be made cannot be made later, and trying changes nothing more. -/
theorem provideAll_again (h : s.provideAll p = (.error e, t)) :
    ∃ e', t.provideAll p = (.error e', t) ∧ e.ReadsAgain e' := by
  rw [provideAll] at h ⊢
  split at h
  · cases h
  rename_i hp
  rw [if_neg hp]
  split at h
  · cases h
    exact ⟨_, rfl, .same _⟩
  rename_i l hl
  obtain rfl := (pieces_eq_ok_iff.1 hl).2.2.2
  exact provideBelow_again (leadThrough_components hp) makeAll_again h

-- the first attempt makes `a`, and only then gets as far as the file
example :
    let s : FileStore := ⟨SortedMap.ofList [(["f"], .file (.text ""))]⟩
    (s.provideAll ⟨"a/../f/x"⟩).1 = .error .occupied ∧
      ((s.provideAll ⟨"a/../f/x"⟩).2.provideAll ⟨"a/../f/x"⟩).1 = .error .notDirectory := by
  decide

end FileStore

end SpectrumPacking
