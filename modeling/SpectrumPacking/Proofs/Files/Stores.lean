import SpectrumPacking.Files.Store
import SpectrumPacking.Proofs.Text.Words

/-!
# What Operations on Files Keep

A path that can be walked leads to the same location in every store (`FileStore.walk_eq_foldl`), and
no operation turns a directory into something else, so a path that could be walked once can be
walked ever after (`FileStore.walk_of_keepsDirectories`).  Making directories adds directories and
nothing else (`FileStore.grows_makeDirectories`).  Writing changes one location
(`FileStore.write_eq_ok`), so files at other locations still read as before
(`FileStore.read_of_write_of_ne`).
-/

namespace SpectrumPacking

open Text

namespace FileStore

variable {s t u : FileStore} {p q : Path} {l l' : Location} {ps qs : List String} {e : FileEntry}
  {content : FileContent} {text : String} {r : Except FileFault Unit}

/-! ## §1 Walking -/

@[simp] theorem entry?_nil : s.entry? [] = some .directory := rfl

theorem entry?_insert (hl : l ≠ []) :
    entry? ⟨s.entries.insert l e⟩ l' = if l = l' then some e else s.entry? l' := by
  by_cases hl' : l' = []
  · subst hl'
    simp [hl]
  · simp [ entry?, hl']

/-- What there is besides the top. -/
theorem ne_nil_of_entry?_ne (h : s.entry? l ≠ some .directory) : l ≠ [] := by
  rintro rfl
  exact h rfl

/-- Walking leads to the location that the pieces spell. -/
theorem walk_eq_foldl (h : s.walk l ps = .ok l') : l' = ps.foldl stepTo l := by
  induction ps generalizing l with
  | nil =>
    cases h
    rfl
  | cons piece ps ih =>
    rw [walk] at h
    split at h
    · cases h
    · cases h
    · split at h
      · cases h
      · exact ih h

theorem walk_append :
    s.walk l (ps ++ qs) = (s.walk l ps).bind fun l' => s.walk l' qs := by
  induction ps generalizing l with
  | nil => rfl
  | cons piece ps ih =>
    rw [List.cons_append, walk, walk]
    split
    · rfl
    · rfl
    · split
      · rfl
      · exact ih

/-- One piece more can be walked from a directory. -/
theorem walk_singleton {piece : String} (h : s.entry? l = some .directory)
    (hshort : piece.utf8ByteSize ≤ maxNameBytes) : s.walk l [piece] = .ok (stepTo l piece) := by
  simp [walk, h, Nat.not_lt.2 hshort]

/-- Empty pieces lead nowhere else. -/
theorem walk_replicate {k : Nat} (h : s.entry? l = some .directory) :
    s.walk l (List.replicate k "") = .ok l := by
  induction k with
  | zero => rfl
  | succ k ih =>
    rw [List.replicate_succ, walk, h]
    exact ih

/-- Directories stay directories from one store to another. -/
def KeepsDirectories (s t : FileStore) : Prop :=
  ∀ l, s.entry? l = some .directory → t.entry? l = some .directory

theorem walk_of_keepsDirectories (hst : s.KeepsDirectories t) (h : s.walk l ps = .ok l') :
    t.walk l ps = .ok l' := by
  induction ps generalizing l with
  | nil => exact h
  | cons piece ps ih =>
    rw [walk] at h ⊢
    split at h
    · cases h
    · cases h
    · rename_i hdirectory
      rw [hst l hdirectory]
      dsimp only
      split at h
      · cases h
      · rename_i hshort
        rw [if_neg hshort]
        exact ih h

/-! ## §2 Making Directories -/

/-- Nothing is lost from one store to another, and all that is new are directories. -/
structure Grows (s t : FileStore) : Prop where
  entry?_of : ∀ l e, s.entry? l = some e → t.entry? l = some e
  file_of : ∀ l content, t.entry? l = some (.file content) → s.entry? l = some (.file content)

theorem Grows.refl : s.Grows s := ⟨fun _ _ h => h, fun _ _ h => h⟩

theorem Grows.trans (h : s.Grows t) (h' : t.Grows u) : s.Grows u :=
  ⟨fun l e hl => h'.entry?_of l e (h.entry?_of l e hl),
    fun l c hl => h.file_of l c (h'.file_of l c hl)⟩

theorem Grows.keepsDirectories (h : s.Grows t) : s.KeepsDirectories t :=
  fun l => h.entry?_of l .directory

theorem leadsToDirectory_iff : s.leadsToDirectory ps = true ↔
    ∃ l, s.walk [] ps = .ok l ∧ s.entry? l = some .directory := by
  have hkind : ∀ o : Option FileEntry,
      (o.map FileEntry.kind == some .directory) = true ↔ o = some .directory := by
    rintro (_ | _ | _) <;> simp [FileEntry.kind]
  unfold leadsToDirectory
  split
  · rename_i l hwalk
    rw [hkind, hwalk]
    simp
  · rename_i e hwalk
    simp [hwalk]

theorem leadsToDirectory_of_keepsDirectories (hst : s.KeepsDirectories t)
    (h : s.leadsToDirectory ps = true) : t.leadsToDirectory ps = true := by
  obtain ⟨l, hwalk, hdirectory⟩ := leadsToDirectory_iff.1 h
  exact leadsToDirectory_iff.2 ⟨l, walk_of_keepsDirectories hst hwalk, hst l hdirectory⟩

theorem grows_makeDirectory (h : s.makeDirectory ps = .ok t) :
    s.Grows t ∧ t.leadsToDirectory ps = true := by
  unfold makeDirectory at h
  split at h
  · cases h
  · rename_i l hwalk
    split at h
    · cases h
    · rename_i hnone
      cases h
      have hl : l ≠ [] := ne_nil_of_entry?_ne (s := s) (by simp [hnone])
      -- only the new entry is added, and it is a directory
      have hgrows : s.Grows ⟨s.entries.insert l .directory⟩ := by
        refine ⟨fun l' e hl' => ?_, fun l' c hl' => ?_⟩
        · rw [entry?_insert hl, if_neg]
          · exact hl'
          · rintro rfl
            rw [hnone] at hl'
            cases hl'
        · rw [entry?_insert hl] at hl'
          split at hl'
          · cases hl'
          · exact hl'
      refine ⟨hgrows, leadsToDirectory_iff.2
        ⟨l, walk_of_keepsDirectories hgrows.keepsDirectories hwalk, ?_⟩⟩
      rw [entry?_insert hl, if_pos rfl]

theorem grows_provideDirectory (h : s.provideDirectory ps = .ok t) :
    s.Grows t ∧ t.leadsToDirectory ps = true := by
  unfold provideDirectory at h
  split at h
  · rename_i s' hmake
    cases h
    exact grows_makeDirectory hmake
  · split at h
    · rename_i hleads
      cases h
      exact ⟨.refl, hleads⟩
    · cases h

/-- A directory that is there need not be made. -/
theorem provideDirectory_of_leadsToDirectory (h : s.leadsToDirectory ps = true) :
    s.provideDirectory ps = .ok s := by
  obtain ⟨l, hwalk, hdirectory⟩ := leadsToDirectory_iff.1 h
  simp [provideDirectory, makeDirectory, hwalk, hdirectory, h]

theorem grows_attempted (h : s.attempted (s.provideDirectory ps) = (r, t)) :
    s.Grows t ∧ (r = .ok () → t.leadsToDirectory ps = true) := by
  cases hprovide : s.provideDirectory ps with
  | error e =>
    rw [hprovide] at h
    cases h
    exact ⟨.refl, nofun⟩
  | ok u =>
    rw [hprovide] at h
    cases h
    exact (grows_provideDirectory hprovide).imp_right fun hleads _ => hleads

theorem grows_provideBelow {above : FileStore → Except FileFault Unit × FileStore}
    (habove : ∀ r t, above s = (r, t) → s.Grows t) (h : s.provideBelow above ps = (r, t)) :
    s.Grows t ∧ (r = .ok () → t.leadsToDirectory ps = true) := by
  unfold provideBelow at h
  split at h
  · split at h
    · rename_i s' hs'
      obtain ⟨hgrows, hleads⟩ := grows_attempted h
      exact ⟨(habove _ _ hs').trans hgrows, hleads⟩
    · rename_i e s' hs'
      cases h
      exact ⟨habove _ _ hs', nofun⟩
  · exact grows_attempted h

theorem grows_makeAll (h : makeAll ps s = (r, t)) : s.Grows t := by
  induction ps generalizing s t r with
  | nil =>
    cases h
    exact .refl
  | cons piece up ih =>
    rw [makeAll] at h
    exact (grows_provideBelow (fun _ _ ht => ih ht) h).1

/-- The path can be used as a directory; the empty path stands for the place where one is. -/
def HasDirectory (s : FileStore) (p : Path) : Prop :=
  p.text = "" ∨ ∃ l, pieces p = .ok l ∧ s.leadsToDirectory (withoutSlashes l) = true

theorem HasDirectory.of_keepsDirectories (hst : s.KeepsDirectories t) (h : s.HasDirectory p) :
    t.HasDirectory p :=
  h.imp_right fun ⟨l, hl, hleads⟩ => ⟨l, hl, leadsToDirectory_of_keepsDirectories hst hleads⟩

/-- Making a directory adds directories only, and the directory is there afterwards unless that
failed. -/
theorem grows_provideAll (h : s.provideAll p = (r, t)) :
    s.Grows t ∧ (r = .ok () → t.HasDirectory p) := by
  unfold provideAll at h
  split at h
  · rename_i hempty
    cases h
    exact ⟨.refl, fun _ => Or.inl hempty⟩
  · split at h
    · cases h
      exact ⟨.refl, nofun⟩
    · rename_i l hl
      obtain ⟨hgrows, hleads⟩ := grows_provideBelow (fun _ _ ht => grows_makeAll ht) h
      exact ⟨hgrows, fun hr => Or.inr ⟨l, hl, hleads hr⟩⟩

theorem makeDirectories_eq_ok_iff :
    s.makeDirectories p = .ok t ↔ s.provideAll p = (.ok (), t) := by
  unfold makeDirectories
  split
  · rename_i u hu
    simp [hu]
  · rename_i e u hu
    simp [hu]

theorem grows_makeDirectories (h : s.makeDirectories p = .ok t) : s.Grows t ∧ t.HasDirectory p :=
  (grows_provideAll (makeDirectories_eq_ok_iff.1 h)).imp_right fun hdirectory => hdirectory rfl

/-- A directory that is there is not made again. -/
theorem provideAll_of_hasDirectory (h : s.HasDirectory p) : s.provideAll p = (.ok (), s) := by
  rcases h with h | ⟨l, hl, hleads⟩
  · rw [provideAll, if_pos h]
  · rw [provideAll]
    split
    · rfl
    · rw [hl]
      simp [provideBelow, provideDirectory_of_leadsToDirectory hleads, attempted]

theorem makeDirectories_of_hasDirectory (h : s.HasDirectory p) : s.makeDirectories p = .ok s :=
  makeDirectories_eq_ok_iff.2 (provideAll_of_hasDirectory h)

/-! ## §3 Reading and Writing -/

/-- The pieces of a path between slashes. -/
def splitPath (p : Path) : List String := (splitAtChar '/' p.text.toList).map String.ofList

/-- The location that the pieces of a path spell. -/
def location (p : Path) : Location := (splitPath p).foldl stepTo []

theorem pieces_eq_ok_iff {l : List String} : pieces p = .ok l ↔
    ¬ '\x00' ∈ p.text.toList ∧ p.text ≠ "" ∧ p.text.utf8ByteSize ≤ maxPathBytes ∧
      l = splitPath p := by
  unfold pieces
  split
  · rename_i h
    simp_all
  · rename_i hnul
    split
    · rename_i h
      simp [h]
    · rename_i hempty
      split
      · rename_i hlong
        simp [Nat.not_le.2 hlong]
      · rename_i hshort
        have hnul : ¬ '\x00' ∈ p.text.toList := by simpa using hnul
        simp only [Except.ok.injEq, hnul, hempty, Nat.not_lt.1 hshort, not_false_eq_true, ne_eq,
          true_and]
        exact eq_comm

theorem locate_eq_ok (h : s.locate p = .ok l) : l = location p := by
  unfold locate at h
  split at h
  · cases h
  · rename_i ps hps
    rw [walk_eq_foldl h, (pieces_eq_ok_iff.1 hps).2.2.2, location]

theorem locate_of_keepsDirectories (hst : s.KeepsDirectories t) (h : s.locate p = .ok l) :
    t.locate p = .ok l := by
  unfold locate at h ⊢
  split at h
  · cases h
  · exact walk_of_keepsDirectories hst h

/-- Without a slash at the end, all pieces count. -/
theorem withoutSlashes_of_getLast? (h : ¬ ps.getLast? = some "") : withoutSlashes ps = ps := by
  rw [withoutSlashes]
  cases hreverse : ps.reverse with
  | nil => simpa using hreverse.symm
  | cons last front =>
    have hps : ps = front.reverse ++ [last] := by simpa using congrArg List.reverse hreverse
    have hlast : ¬ (last == "") = true := by simpa [hps] using h
    rw [List.dropWhile_cons_of_neg (p := (· == "")) hlast, ← hreverse, List.reverse_reverse]

/-- A file is written where its path leads, unless there is a directory. -/
theorem write_eq_ok (h : s.write p content = .ok t) :
    s.locate p = .ok (location p) ∧ s.entry? (location p) ≠ some .directory ∧
      t = ⟨s.entries.insert (location p) (.file content)⟩ := by
  unfold write at h
  split at h
  · cases h
  · rename_i ps hps
    split at h
    · cases h
    · rename_i l hwalk
      split at h
      · cases h
      · rename_i hslash
        -- a path without a slash at its end leads to an entry of its own name
        have hall := withoutSlashes_of_getLast? hslash
        have hlocate : s.locate p = .ok l := by rw [locate, hps, ← hwalk, hall]
        obtain rfl := locate_eq_ok hlocate
        split at h
        · cases h
        · rename_i hfree
          cases h
          exact ⟨hlocate, fun hdirectory => hfree hdirectory, rfl⟩

theorem entry?_of_write (h : s.write p content = .ok t) :
    t.entry? l = if location p = l then some (.file content) else s.entry? l := by
  obtain ⟨-, hfree, rfl⟩ := write_eq_ok h
  exact entry?_insert (ne_nil_of_entry?_ne hfree)

theorem keepsDirectories_write (h : s.write p content = .ok t) : s.KeepsDirectories t := by
  intro l hl
  rw [entry?_of_write h, if_neg]
  · exact hl
  · rintro rfl
    exact (write_eq_ok h).2.1 hl

theorem read_eq_ok_iff : s.read p = .ok text ↔
    s.locate p = .ok (location p) ∧ s.entry? (location p) = some (.file (.text text)) := by
  unfold read
  split
  · rename_i e he
    simp [he]
  · rename_i l hl
    obtain rfl := locate_eq_ok hl
    split <;> simp_all

/-- A file holds what was written into it. -/
theorem read_of_write (h : s.write p (.text text) = .ok t) : t.read p = .ok text := by
  refine read_eq_ok_iff.2
    ⟨locate_of_keepsDirectories (keepsDirectories_write h) (write_eq_ok h).1, ?_⟩
  rw [entry?_of_write h, if_pos rfl]

/-- Files at other locations are left alone. -/
theorem read_of_write_of_ne (h : s.write p content = .ok t) (hne : location p ≠ location q)
    (hread : s.read q = .ok text) : t.read q = .ok text := by
  obtain ⟨hlocate, hentry⟩ := read_eq_ok_iff.1 hread
  refine read_eq_ok_iff.2 ⟨locate_of_keepsDirectories (keepsDirectories_write h) hlocate, ?_⟩
  rw [entry?_of_write h, if_neg hne, hentry]

/-- Making directories leaves files alone. -/
theorem Grows.read_of (h : s.Grows t) (hread : s.read p = .ok text) : t.read p = .ok text := by
  obtain ⟨hlocate, hentry⟩ := read_eq_ok_iff.1 hread
  exact read_eq_ok_iff.2 ⟨locate_of_keepsDirectories h.keepsDirectories hlocate,
    h.entry?_of _ _ hentry⟩

/-! ## §4 Entries of a Directory -/

/-- The name can be that of an entry of a directory. -/
structure IsEntryName (name : String) : Prop where
  not_slash : ¬ '/' ∈ name.toList
  not_nul : ¬ '\x00' ∈ name.toList
  short : name.utf8ByteSize ≤ maxNameBytes
  plain : ¬ (name = "" ∨ name = ".") ∧ name ≠ ".."

/-- The pieces in front of the name of an entry of a directory. -/
def above (d : Path) : List String :=
  if d.text.toList.isEmpty then []
  else if d.text.toList.getLast? == some '/' then (splitPath d).dropLast
  else splitPath d

variable {d : Path} {name : String}

theorem IsEntryName.stepTo_eq (hname : IsEntryName name) : stepTo l name = l ++ [name] := by
  rw [stepTo, if_neg hname.plain.1, if_neg hname.plain.2]

theorem IsEntryName.splitPath_mk (hname : IsEntryName name) : splitPath ⟨name⟩ = [name] := by
  rw [splitPath, splitAtChar_eq_singleton hname.not_slash, List.map_singleton, String.ofList_toList]

/-- A path that ends with a slash has an empty piece at its end. -/
theorem splitPath_eq_dropLast (h : (d.text.toList.getLast? == some '/') = true) :
    splitPath d = (splitPath d).dropLast ++ [""] ∧
      ∃ t, d.text.toList = t ++ ['/'] ∧
        (splitPath d).dropLast = (splitAtChar '/' t).map String.ofList := by
  obtain ⟨t, ht⟩ := List.getLast?_eq_some_iff.1 (beq_iff_eq.1 h)
  have hsplit : splitPath d = (splitAtChar '/' t).map String.ofList ++ [""] := by
    rw [splitPath, ht, splitAtChar_append_cons, List.map_append]
    rfl
  refine ⟨by rw [hsplit, List.dropLast_concat], t, ht, ?_⟩
  rw [hsplit, List.dropLast_concat]

theorem splitPath_join (hname : IsEntryName name) :
    splitPath (d.join ⟨name⟩) = above d ++ [name] := by
  -- a name holds no slash, so it does not start over at the top
  have habsolute : (Path.mk name).isAbsolute = false := by
    rw [Path.isAbsolute, beq_eq_false_iff_ne]
    intro hslash
    exact hname.not_slash (List.mem_of_mem_head? hslash)
  rw [Path.join, above, habsolute, Bool.false_or]
  split
  · exact hname.splitPath_mk
  · have hname' := hname.splitPath_mk
    split
    · rename_i hslash
      obtain ⟨-, t, ht, hdrop⟩ := splitPath_eq_dropLast hslash
      rw [hdrop, ← hname', splitPath, String.toList_append, ht, List.append_assoc,
        List.singleton_append, splitAtChar_append_cons, List.map_append]
      rfl
    · rw [← hname', splitPath, String.toList_append, String.toList_append, List.append_assoc]
      show (splitAtChar '/' (d.text.toList ++ '/' :: name.toList)).map String.ofList = _
      rw [splitAtChar_append_cons, List.map_append]
      rfl

theorem foldl_above : (above d).foldl stepTo [] = location d := by
  have hidle : ∀ l, stepTo l "" = l := fun l => by simp [stepTo]
  rw [above, location]
  split
  · rename_i hempty
    rw [splitPath, List.isEmpty_iff.1 hempty]
    rfl
  · split
    · rename_i hslash
      obtain ⟨hsplit, -⟩ := splitPath_eq_dropLast hslash
      conv => rhs; rw [hsplit]
      rw [List.foldl_append, List.foldl_cons, List.foldl_nil, hidle]
    · rfl

theorem location_join (hname : IsEntryName name) :
    location (d.join ⟨name⟩) = location d ++ [name] := by
  rw [location, splitPath_join hname, List.foldl_append, List.foldl_cons, List.foldl_nil,
    foldl_above, hname.stepTo_eq]

theorem exists_withoutSlashes (ps : List String) :
    ∃ k, ps = withoutSlashes ps ++ List.replicate k "" := by
  have hempty : ps.reverse.takeWhile (· == "")
      = List.replicate (ps.reverse.takeWhile (· == "")).length "" := by
    rw [List.eq_replicate_iff]
    exact ⟨rfl, fun w hw => beq_iff_eq.1 (List.mem_takeWhile_imp (p := (· == "")) hw)⟩
  refine ⟨(ps.reverse.takeWhile (· == "")).length, ?_⟩
  rw [withoutSlashes, ← List.reverse_replicate, ← hempty, ← List.reverse_append,
    List.takeWhile_append_dropWhile, List.reverse_reverse]

/-- The pieces in front of an entry's name lead to the directory. -/
theorem HasDirectory.walk_above (h : s.HasDirectory d) :
    s.walk [] (above d) = .ok (location d) ∧ s.entry? (location d) = some .directory := by
  -- above an entry stand the pieces without those of trailing slashes, and some of the latter
  have hwalk : ∃ l, s.walk [] (above d) = .ok l ∧ s.entry? l = some .directory := by
    rcases h with hempty | ⟨ps, hps, hleads⟩
    · exact ⟨[], by simp [above, hempty, walk], rfl⟩
    · obtain ⟨-, hne, -, rfl⟩ := pieces_eq_ok_iff.1 hps
      obtain ⟨l, hwalk, hdirectory⟩ := leadsToDirectory_iff.1 hleads
      have habove : ∃ k, above d = withoutSlashes (splitPath d) ++ List.replicate k "" := by
        obtain ⟨k, hk⟩ := exists_withoutSlashes (splitPath d)
        rw [above, if_neg (by simpa using hne)]
        split
        · rename_i hslash
          obtain ⟨hsplit, -⟩ := splitPath_eq_dropLast hslash
          cases k with
          | zero =>
            -- a trailing slash leaves an empty piece, which is dropped
            have hlast : (splitPath d).getLast? = some "" := by
              rw [hsplit, List.getLast?_concat]
            rw [List.replicate_zero, List.append_nil] at hk
            have hhead := List.head?_dropWhile_not (· == "") (splitPath d).reverse
            rw [← List.head?_reverse, hk, withoutSlashes, List.reverse_reverse] at hlast
            simp [hlast] at hhead
          | succ k =>
            refine ⟨k, ?_⟩
            conv => lhs; rw [hk]
            rw [List.replicate_succ', ← List.append_assoc, List.dropLast_concat]
        · exact ⟨k, hk⟩
      obtain ⟨k, hk⟩ := habove
      refine ⟨l, ?_, hdirectory⟩
      rw [hk, walk_append, hwalk]
      exact walk_replicate hdirectory
  obtain ⟨l, hwalk, hdirectory⟩ := hwalk
  have hl : l = location d := (walk_eq_foldl hwalk).trans foldl_above
  exact hl ▸ ⟨hwalk, hdirectory⟩

theorem HasDirectory.not_nul (h : s.HasDirectory d) : ¬ '\x00' ∈ d.text.toList := by
  rcases h with hempty | ⟨ps, hps, -⟩
  · simp [hempty]
  · exact (pieces_eq_ok_iff.1 hps).1

theorem utf8ByteSize_join_le :
    (d.join ⟨name⟩).text.utf8ByteSize ≤ d.text.utf8ByteSize + 1 + name.utf8ByteSize := by
  rw [Path.join]
  split
  · exact Nat.le_add_left ..
  · split
    · simp only [String.utf8ByteSize_append]
      omega
    · simp only [String.utf8ByteSize_append]
      exact Nat.le_refl _

theorem mem_join {c : Char} (h : c ∈ (d.join ⟨name⟩).text.toList) :
    c ∈ d.text.toList ∨ c = '/' ∨ c ∈ name.toList := by
  rw [Path.join] at h
  split at h
  · exact Or.inr (Or.inr h)
  · split at h
    · rw [String.toList_append, List.mem_append] at h
      exact h.imp_right Or.inr
    · rw [String.toList_append, String.toList_append, List.mem_append, List.mem_append] at h
      rcases h with (h | h) | h
      · exact Or.inl h
      · exact Or.inr (Or.inl (List.mem_singleton.1 h))
      · exact Or.inr (Or.inr h)

theorem HasDirectory.not_nul_join (h : s.HasDirectory d) (hname : IsEntryName name) :
    ¬ '\x00' ∈ (d.join ⟨name⟩).text.toList := by
  intro hnul
  rcases mem_join hnul with hnul | hnul | hnul
  · exact h.not_nul hnul
  · exact absurd hnul (by decide)
  · exact hname.not_nul hnul

theorem HasDirectory.pieces_join (h : s.HasDirectory d) (hname : IsEntryName name)
    (hshort : (d.join ⟨name⟩).text.utf8ByteSize ≤ maxPathBytes) :
    pieces (d.join ⟨name⟩) = .ok (above d ++ [name]) := by
  rw [pieces_eq_ok_iff, splitPath_join hname]
  refine ⟨h.not_nul_join hname, ?_, hshort, rfl⟩
  intro hempty
  have hsplit := splitPath_join (d := d) hname
  rw [splitPath, hempty] at hsplit
  have hname' : [""] = above d ++ [name] := hsplit
  have hlast := congrArg List.getLast? hname'
  simp only [List.getLast?_singleton, List.getLast?_concat, Option.some.injEq] at hlast
  exact hname.plain.1 (Or.inl hlast.symm)

/-- The pieces of an entry's path lead into the directory. -/
theorem HasDirectory.walk_join (h : s.HasDirectory d) (hname : IsEntryName name) :
    s.walk [] (above d ++ [name]) = .ok (location d ++ [name]) := by
  obtain ⟨hwalk, hdirectory⟩ := h.walk_above
  rw [walk_append, hwalk]
  show s.walk (location d) [name] = _
  rw [walk_singleton hdirectory hname.short, hname.stepTo_eq]

/-- The path of an entry leads into the directory. -/
theorem HasDirectory.locate_join (h : s.HasDirectory d) (hname : IsEntryName name)
    (hshort : (d.join ⟨name⟩).text.utf8ByteSize ≤ maxPathBytes) :
    s.locate (d.join ⟨name⟩) = .ok (location d ++ [name]) := by
  rw [locate, h.pieces_join hname hshort]
  exact h.walk_join hname

theorem IsEntryName.getLast?_concat (hname : IsEntryName name) :
    ¬ (ps ++ [name]).getLast? = some "" := by
  rw [List.getLast?_concat]
  rintro hempty
  exact hname.plain.1 (Or.inl (Option.some.inj hempty))

/-- No file is written in the place of a directory. -/
theorem HasDirectory.write_join_of_directory (h : s.HasDirectory d) (hname : IsEntryName name)
    (hshort : (d.join ⟨name⟩).text.utf8ByteSize ≤ maxPathBytes)
    (hdirectory : s.entry? (location d ++ [name]) = some .directory) :
    s.write (d.join ⟨name⟩) content = .error .isDirectory := by
  simp only [write, h.pieces_join hname hshort, withoutSlashes_of_getLast? hname.getLast?_concat,
    h.walk_join hname, hname.getLast?_concat, if_false, hdirectory]

/-- A file is written into a directory, unless there is a directory of its name. -/
theorem HasDirectory.exists_write (h : s.HasDirectory d) (hname : IsEntryName name)
    (hshort : (d.join ⟨name⟩).text.utf8ByteSize ≤ maxPathBytes)
    (hfree : s.entry? (location d ++ [name]) ≠ some .directory) :
    ∃ t, s.write (d.join ⟨name⟩) content = .ok t := by
  simp only [write, h.pieces_join hname hshort, withoutSlashes_of_getLast? hname.getLast?_concat,
    h.walk_join hname, hname.getLast?_concat, if_false]
  exact ⟨_, rfl⟩

theorem HasDirectory.write_join_of_long (h : s.HasDirectory d) (hname : IsEntryName name)
    (hlong : maxPathBytes < (d.join ⟨name⟩).text.utf8ByteSize) :
    s.write (d.join ⟨name⟩) content = .error .nameTooLong := by
  have hnul : (d.join ⟨name⟩).text.toList.contains '\x00' = false := by
    rw [List.contains_eq_mem, decide_eq_false_iff_not]
    exact h.not_nul_join hname
  have hempty : ¬ (d.join ⟨name⟩).text = "" := by
    intro hempty
    rw [hempty] at hlong
    exact absurd hlong (by decide)
  have hpieces : pieces (d.join ⟨name⟩) = .error .nameTooLong := by
    rw [pieces, hnul, if_neg Bool.false_ne_true, if_neg hempty, if_pos hlong]
  rw [write, hpieces]

/-- Two stores have the same directories. -/
def SameDirectories (s t : FileStore) : Prop :=
  ∀ l, s.entry? l = some .directory ↔ t.entry? l = some .directory

theorem SameDirectories.refl : s.SameDirectories s := fun _ => Iff.rfl

theorem SameDirectories.trans (h : s.SameDirectories t) (h' : t.SameDirectories u) :
    s.SameDirectories u := fun l => (h l).trans (h' l)

theorem sameDirectories_write (h : s.write p content = .ok t) : s.SameDirectories t := by
  intro l
  rw [entry?_of_write h]
  split
  · rename_i hl
    subst hl
    exact iff_of_false (write_eq_ok h).2.1 nofun
  · exact Iff.rfl

/-- Whether a file can be written into a directory depends on the directories alone. -/
theorem HasDirectory.write_join_congr {α : Type} {a : α} (hs : s.HasDirectory d)
    (hst : s.SameDirectories t) (hname : IsEntryName name) :
    (s.write (d.join ⟨name⟩) content).map (fun _ => a)
      = (t.write (d.join ⟨name⟩) content).map fun _ => a := by
  have ht : t.HasDirectory d := hs.of_keepsDirectories fun l => (hst l).1
  by_cases hlong : maxPathBytes < (d.join ⟨name⟩).text.utf8ByteSize
  · rw [hs.write_join_of_long hname hlong, ht.write_join_of_long hname hlong]
  · have hshort := Nat.not_lt.1 hlong
    by_cases hdirectory : s.entry? (location d ++ [name]) = some .directory
    · rw [hs.write_join_of_directory hname hshort hdirectory,
        ht.write_join_of_directory hname hshort ((hst _).1 hdirectory)]
    · obtain ⟨s', hs'⟩ : ∃ s', s.write (d.join ⟨name⟩) content = .ok s' :=
        hs.exists_write hname hshort hdirectory
      obtain ⟨t', ht'⟩ : ∃ t', t.write (d.join ⟨name⟩) content = .ok t' :=
        ht.exists_write hname hshort (mt (hst _).2 hdirectory)
      rw [hs', ht']
      rfl

/-! ## §5 Access -/

theorem read_access (h : s.read p = .ok text) :
    (FileAccess.read p : StateM FileStore (Except FileFault String)) s = (.ok text, s) := by
  show (s.read p, s) = _
  rw [h]

theorem change_of_ok {f : FileStore → Except FileFault FileStore} (h : f s = .ok t) :
    HasFiles.change f s = (.ok (), t) := by
  simp only [HasFiles.change, HasFiles.files, HasFiles.withFiles, id_eq, h]

theorem change_of_error {f : FileStore → Except FileFault FileStore} {cause : FileFault}
    (h : f s = .error cause) : HasFiles.change f s = (.error cause, s) := by
  simp only [HasFiles.change, HasFiles.files, id_eq, h]

theorem makeDirectories_access (h : s.makeDirectories p = .ok t) :
    (FileAccess.makeDirectories p : StateM FileStore (Except FileFault Unit)) s = (.ok (), t) :=
  makeDirectories_eq_ok_iff.1 h

theorem write_access (h : s.write p (.text text) = .ok t) :
    (FileAccess.write p text : StateM FileStore (Except FileFault Unit)) s = (.ok (), t) :=
  change_of_ok h

theorem write_access_error {cause : FileFault} (h : s.write p (.text text) = .error cause) :
    (FileAccess.write p text : StateM FileStore (Except FileFault Unit)) s = (.error cause, s) :=
  change_of_error h

end FileStore

end SpectrumPacking
