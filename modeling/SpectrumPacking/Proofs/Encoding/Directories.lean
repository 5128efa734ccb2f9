import Mathlib.Data.Set.Function
import SpectrumPacking.Encoding.CnfDirectory
import SpectrumPacking.Proofs.Files.Stores
import SpectrumPacking.Proofs.Formula.Texts
import SpectrumPacking.Proofs.Solve.Programs

/-!
# Directories of Formulas as Maps

The key of a station set names its stations and nothing else, so different sets have different keys
(`stationKey_eq_iff`).  As long as the digest tells the keys of two problems apart, the problems
share a file exactly if they have the same stations (`Problem.fileName_eq_iff`).

A directory of formulas keeps one text a file name.  Saving a formula replaces the text under its
name and no other (`CnfDirectory.Ready.save`), so after any number of saves the last one under each
name is there (`CnfDirectory.Ready.saveAll`).  Where the digest tells station sets apart, names
stand for station sets, and the directory is a map from station sets to formulas
(`CnfDirectory.load_of_saves`).
-/

namespace SpectrumPacking

open Text

/-! ## §1 Keys -/

/-- The key of some stations in bytes; all its characters are ASCII. -/
def stationBytes (l : List StationId) : List UInt8 :=
  (stationKey l).map fun c => UInt8.ofNat c.toNat

theorem mem_stationKey {l : List StationId} {c : Char} (h : c ∈ stationKey l) :
    c = '-' ∨ c.isDigit = true := by
  rcases mem_joined h with h | ⟨w, hw, h⟩
  · exact Or.inl h
  · obtain ⟨n, -, rfl⟩ := List.mem_map.1 hw
    exact Or.inr (Numeral.isDigit_of_mem_ofNat h)

/-- Only lists of the same stations have the same key. -/
theorem stationKey_eq_iff {l m : List StationId} : stationKey l = stationKey m ↔ l.Perm m := by
  constructor
  · intro h
    have hsorted : l.mergeSort = m.mergeSort := Numeral.joined_ofNat_inj (by decide) h
    calc l.Perm l.mergeSort := (List.mergeSort_perm l _).symm
      _ = m.mergeSort := hsorted
      List.Perm _ m := List.mergeSort_perm m _
  · exact stationKey_eq_of_perm

/-- The bytes of a key are those of its characters. -/
theorem stationKey_eq_of_stationBytes_eq {l m : List StationId}
    (h : stationBytes l = stationBytes m) : stationKey l = stationKey m := by
  have hread : ∀ l, (stationBytes l).map (fun b => Char.ofNat b.toNat) = stationKey l := by
    intro l
    rw [stationBytes, List.map_map]
    refine (List.map_congr_left ?_).trans (List.map_id _)
    intro c hc
    have hascii : c.toNat < 256 := by
      rcases mem_stationKey hc with rfl | hdigit
      · decide
      · simp only [Char.isDigit, Bool.and_eq_true, decide_eq_true_eq] at hdigit
        exact Nat.lt_of_le_of_lt (UInt32.le_iff_toNat_le.1 hdigit.2) (by decide)
    simp [Nat.mod_eq_of_lt hascii]
  rw [← hread l, ← hread m, h]

namespace Problem

variable {p q : Problem}

/-- Problems whose keys have the same bytes have the same stations. -/
theorem stationSet_eq_of_stationBytes_eq (h : stationBytes p.stations = stationBytes q.stations) :
    p.stationSet = q.stationSet := by
  have hperm := stationKey_eq_iff.1 (stationKey_eq_of_stationBytes_eq h)
  exact SortedSet.ext fun s => hperm.mem_iff

theorem stations_eq_of_stationSet_eq (h : p.stationSet = q.stationSet) :
    p.stations = q.stations := congrArg SortedSet.toList h

end Problem

/-! ## §2 Digests -/

namespace Sha1

/-- The digest tells texts apart. -/
def Separates (texts : Set (List UInt8)) : Prop := Set.InjOn hexDigest texts

theorem Separates.mono {texts texts' : Set (List UInt8)} (h : Separates texts)
    (hsubset : texts' ⊆ texts) : Separates texts' := Set.InjOn.mono hsubset h

theorem length_hexDigest {message : List UInt8} : (hexDigest message).length = 40 := rfl

/-- Digests are written with sixteen digits. -/
theorem mem_hexDigest {message : List UInt8} {c : Char} (h : c ∈ hexDigest message) :
    c ∈ "0123456789abcdef".toList := by
  have hdigit : ∀ n < 16, Nat.digitChar n ∈ "0123456789abcdef".toList := by decide
  have hword : ∀ w, c ∈ hexWord w → c ∈ "0123456789abcdef".toList := by
    intro w hw
    obtain ⟨i, -, rfl⟩ := List.mem_map.1 hw
    exact hdigit _ (Nat.mod_lt _ (by decide))
  simp only [hexDigest, List.mem_append] at h
  rcases h with (((h | h) | h) | h) | h <;> exact hword _ h

end Sha1

/-! ## §3 Names -/

namespace Problem

variable {p q : Problem}

theorem toList_fileName :
    p.fileName.toList = Sha1.hexDigest (stationBytes p.stations) ++ ".cnf".toList :=
  String.toList_ofList

/-- Names are made of digits, four letters and a dot. -/
theorem mem_fileName {c : Char} (h : c ∈ p.fileName.toList) :
    c ∈ "0123456789abcdef.cnf".toList := by
  rw [toList_fileName, List.mem_append] at h
  have hall : "0123456789abcdef.cnf".toList = "0123456789abcdef".toList ++ ".cnf".toList := by
    decide
  rw [hall, List.mem_append]
  exact h.imp_left Sha1.mem_hexDigest

theorem length_fileName : p.fileName.toList.length = 44 := by
  rw [toList_fileName, List.length_append, Sha1.length_hexDigest]
  rfl

/-- Problems with the same stations share a file, and if the digest tells the keys of two problems
apart, only such problems do. -/
theorem fileName_eq_iff
    (h : Sha1.Separates {stationBytes p.stations, stationBytes q.stations}) :
    p.fileName = q.fileName ↔ p.stationSet = q.stationSet := by
  constructor
  · intro hname
    have hlist : p.fileName.toList = q.fileName.toList := congrArg String.toList hname
    rw [toList_fileName, toList_fileName, List.append_cancel_right_eq] at hlist
    exact stationSet_eq_of_stationBytes_eq (h (by simp) (by simp) hlist)
  · intro hset
    rw [fileName, fileName, stations_eq_of_stationSet_eq hset]

end Problem

/-! ## §4 Files of a Directory -/

namespace Problem

variable {p : Problem}

theorem utf8ByteSize_fileName : p.fileName.utf8ByteSize = 44 := by
  -- every character of a name takes one byte
  have hsize : ∀ l : List Char, (∀ c ∈ l, c.utf8Size = 1) →
      (String.ofList l).utf8ByteSize = l.length := by
    intro l hl
    induction l with
    | nil => rfl
    | cons c l ih =>
      rw [String.ofList_cons, String.utf8ByteSize_append, String.utf8ByteSize_singleton,
        hl c List.mem_cons_self, ih fun c' hc' => hl c' (List.mem_cons_of_mem _ hc'),
        List.length_cons, Nat.add_comm]
  have hall : "0123456789abcdef.cnf".toList.all (fun c => c.utf8Size == 1) = true := by decide
  have hname := hsize p.fileName.toList fun c hc =>
    beq_iff_eq.1 (List.all_eq_true.1 hall c (mem_fileName hc))
  rwa [String.ofList_toList, length_fileName] at hname

theorem isEntryName_fileName : FileStore.IsEntryName p.fileName := by
  have hlength : ∀ name : String, p.fileName = name → name.toList.length = 44 := by
    rintro name rfl
    exact length_fileName
  refine ⟨fun h => absurd (mem_fileName h) (by decide),
    fun h => absurd (mem_fileName h) (by decide), ?_, ⟨?_, ?_⟩⟩
  · rw [utf8ByteSize_fileName]
    decide
  · rintro (h | h) <;> exact absurd (hlength _ h) (by decide)
  · exact fun h => absurd (hlength _ h) (by decide)

end Problem

/-! ## §5 Single Operations -/

/-- A formula to save for the stations of a problem. -/
structure Save where
  problem : Problem
  formula : Cnf
  /-- Lines in front of the formula. -/
  comments : List (List Char)

namespace Save

/-- The text that is saved. -/
def text (v : Save) : String := String.ofList (v.formula.toDimacs v.comments)

/-- The text can be read back: the formula is well-formed and its numbers fit into machine words,
and the comments are single lines. -/
structure IsReadable (v : Save) : Prop where
  isWellFormed : v.formula.IsWellFormed
  fitsWords : v.formula.FitsWords
  singleLines : ∀ t ∈ v.comments, ¬ '\n' ∈ t

theorem IsReadable.ofDimacs_text {v : Save} (hv : v.IsReadable) :
    Cnf.ofDimacs v.text.toList = .ok v.formula := by
  rw [text, String.toList_ofList]
  exact Cnf.ofDimacs_toDimacs_of_isWellFormed hv.fitsWords hv.isWellFormed hv.singleLines

/-- Saves the formula in a directory. -/
def into (v : Save) (d : CnfDirectory) : StateM FileStore (Except LookupError Path) :=
  d.save v.problem v.formula v.comments

/-- The last of some saves under a name. -/
def lastUnder (saves : List Save) (name : String) : Option Save :=
  (saves.filter fun v => v.problem.fileName = name).getLast?

/-- The last of some saves for the stations of a problem. -/
def lastFor (saves : List Save) (p : Problem) : Option Save :=
  (saves.filter fun v => v.problem.stationSet = p.stationSet).getLast?

theorem lastUnder_concat {saves : List Save} {v : Save} {name : String} :
    lastUnder (saves ++ [v]) name
      = if v.problem.fileName = name then some v else lastUnder saves name := by
  rw [lastUnder, List.filter_append, List.filter_cons, List.filter_nil]
  by_cases hname : v.problem.fileName = name
  · simp [hname]
  · simp [hname, lastUnder]

theorem mem_of_lastUnder {saves : List Save} {v : Save} {name : String}
    (h : lastUnder saves name = some v) : v ∈ saves :=
  (List.mem_filter.1 (List.mem_of_getLast? h)).1

/-- The keys of the station sets of some problems. -/
def keys (saves : List Save) : Set (List UInt8) :=
  {text | ∃ v ∈ saves, text = stationBytes v.problem.stations}

/-- Names stand for station sets if the digest tells them apart. -/
theorem lastUnder_fileName {saves : List Save} {p : Problem}
    (h : Sha1.Separates (insert (stationBytes p.stations) (keys saves))) :
    lastUnder saves p.fileName = lastFor saves p := by
  rw [lastUnder, lastFor]
  congr 1
  apply List.filter_congr
  intro v hv
  have hpair : Sha1.Separates {stationBytes v.problem.stations, stationBytes p.stations} := by
    apply h.mono
    rintro text (rfl | rfl)
    · exact Or.inr ⟨v, hv, rfl⟩
    · exact Or.inl rfl
  rw [decide_eq_decide, Problem.fileName_eq_iff hpair]

end Save

namespace CnfDirectory

open FileStore

variable {d : CnfDirectory} {s t u : FileStore} {p : Problem} {v : Save} {saves : List Save}
  {text : String}

theorem location_file : location (d.file p) = location d.path ++ [p.fileName] :=
  location_join Problem.isEntryName_fileName

/-- Different names are names of different files. -/
theorem location_file_inj {q : Problem} (h : location (d.file p) = location (d.file q)) :
    p.fileName = q.fileName := by
  rw [location_file, location_file] at h
  exact List.singleton_inj.1 (List.append_cancel_left h)

theorem has_eq : (d.has p : StateM FileStore Bool) s = (s.kind? (d.file p) == some .file, s) := rfl

/-- Where there is no file, no formula is found. -/
theorem load_of_missing (h : s.kind? (d.file p) ≠ some .file) :
    (d.load p : StateM FileStore (Except LookupError Cnf)) s
      = (.error (.missing (d.file p)), s) := by
  rw [load, bind_eq has_eq, beq_eq_false_iff_ne.2 h]
  rfl

/-- A formula is found where its text is. -/
theorem load_of_read {f : Cnf} (h : s.read (d.file p) = .ok text)
    (hf : Cnf.ofDimacs text.toList = .ok f) :
    (d.load p : StateM FileStore (Except LookupError Cnf)) s = (.ok f, s) := by
  have hhas : (s.kind? (d.file p) == some .file) = true := by
    obtain ⟨hlocate, hentry⟩ := read_eq_ok_iff.1 h
    simp [kind?, at?, hlocate, hentry, FileEntry.kind]
  rw [load, bind_eq has_eq, hhas, if_neg (by decide), bind_eq (read_access h)]
  dsimp only
  rw [hf]
  rfl

section Saving

variable {f : Cnf} {comments : List (List Char)} {cause : FileFault}

/-- Nothing is saved where the directory cannot be made. -/
theorem save_of_refused (h : s.provideAll d.path = (.error cause, t)) :
    (d.save p f comments : StateM FileStore _) s = (.error (.inaccessible d.path cause), t) := by
  have hmake : (FileAccess.makeDirectories d.path : StateM FileStore _) s = (.error cause, t) := h
  rw [save, bind_eq hmake]
  rfl

theorem save_of_write_error (hmake : s.makeDirectories d.path = .ok t)
    (hwrite : t.write (d.file p) (.text (String.ofList (f.toDimacs comments))) = .error cause) :
    (d.save p f comments : StateM FileStore _) s
      = (.error (.inaccessible (d.file p) cause), t) := by
  rw [save, bind_eq (makeDirectories_access hmake)]
  dsimp only
  rw [bind_eq (write_access_error hwrite)]
  rfl

/-- Saving makes the directory and then writes the text. -/
theorem save_eq (hmake : s.makeDirectories d.path = .ok t)
    (hwrite : t.write (d.file p) (.text (String.ofList (f.toDimacs comments))) = .ok u) :
    (d.save p f comments : StateM FileStore _) s = (.ok (d.file p), u) := by
  rw [save, bind_eq (makeDirectories_access hmake)]
  dsimp only
  rw [bind_eq (write_access hwrite)]
  rfl

/-- What saving comes to is what writing comes to, once the directory is made. -/
theorem fst_save (hmake : s.makeDirectories d.path = .ok t) :
    ((d.save p f comments : StateM FileStore _) s).1
      = ((t.write (d.file p) (.text (String.ofList (f.toDimacs comments)))).map
          fun _ => d.file p).mapError (LookupError.inaccessible (d.file p)) := by
  cases hwrite : t.write (d.file p) (.text (String.ofList (f.toDimacs comments))) with
  | error cause =>
    rw [save_of_write_error hmake hwrite]
    rfl
  | ok u =>
    rw [save_eq hmake hwrite]
    rfl

/-- A formula that was saved can be read in the file for its problem. -/
theorem read_of_save {file : Path}
    (h : (d.save p f comments : StateM FileStore _) s = (.ok file, t)) :
    file = d.file p ∧ t.read file = .ok (String.ofList (f.toDimacs comments)) := by
  rcases hmake : s.provideAll d.path with ⟨cause | _, u⟩
  · rw [save_of_refused hmake] at h
    cases h
  have hmake := makeDirectories_eq_ok_iff.2 hmake
  cases hwrite : u.write (d.file p) (.text (String.ofList (f.toDimacs comments))) with
  | error cause =>
    rw [save_of_write_error hmake hwrite] at h
    cases h
  | ok v =>
    rw [save_eq hmake hwrite] at h
    cases h
    exact ⟨rfl, read_of_write hwrite⟩

end Saving

/-! ## §6 Sequences of Saves -/

/-- The directory is there, and it holds the last of some saves under each name. -/
structure Holds (d : CnfDirectory) (saves : List Save) (s : FileStore) : Prop where
  hasDirectory : s.HasDirectory d.path
  entry?_eq : ∀ name, s.entry? (location d.path ++ [name])
    = (Save.lastUnder saves name).map fun v => .file (.text v.text)

/-- The directory holds the last of some saves once it is made, if it has to be. -/
def Ready (d : CnfDirectory) (saves : List Save) (s : FileStore) : Prop :=
  ∃ t, s.makeDirectories d.path = .ok t ∧ d.Holds saves t

/-- The paths of the files are not too long. -/
def IsShort (d : CnfDirectory) : Prop := ∀ p, (d.file p).text.utf8ByteSize ≤ maxPathBytes

theorem Holds.ready (h : d.Holds saves s) : d.Ready saves s :=
  ⟨s, makeDirectories_of_hasDirectory h.hasDirectory, h⟩

/-- Writing a text into the directory replaces what is under its name. -/
theorem Holds.write (h : d.Holds saves s) (hshort : d.IsShort) :
    ∃ t, s.write (d.file v.problem) (.text v.text) = .ok t ∧ d.Holds (saves ++ [v]) t := by
  have hfree : s.entry? (location d.path ++ [v.problem.fileName]) ≠ some .directory := by
    rw [h.entry?_eq]
    cases Save.lastUnder saves v.problem.fileName <;> simp
  obtain ⟨t, ht⟩ : ∃ t, s.write (d.file v.problem) (.text v.text) = .ok t :=
    h.hasDirectory.exists_write Problem.isEntryName_fileName (hshort v.problem) hfree
  refine ⟨t, ht, h.hasDirectory.of_keepsDirectories (keepsDirectories_write ht), ?_⟩
  intro name
  have hlocation : location (d.file v.problem) = location d.path ++ [name]
      ↔ v.problem.fileName = name := by
    rw [location_file]
    simp
  rw [entry?_of_write ht, Save.lastUnder_concat, h.entry?_eq]
  simp only [hlocation]
  split <;> rfl

/-- A save succeeds and is the last one under its name from then on. -/
theorem Ready.save (h : d.Ready saves s) (hshort : d.IsShort) :
    ∃ t, v.into d s = (.ok (d.file v.problem), t) ∧ d.Holds (saves ++ [v]) t := by
  obtain ⟨made, hmake, hholds⟩ := h
  obtain ⟨t, hwrite, ht⟩ := hholds.write hshort (v := v)
  exact ⟨t, save_eq hmake hwrite, ht⟩

/-- Save after save succeeds, and the last one under each name is there. -/
theorem Ready.saveAll (h : d.Ready saves s) (hshort : d.IsShort) (rest : List Save) :
    ∃ t, rest.mapM (·.into d) s = (rest.map fun v => .ok (d.file v.problem), t) ∧
      d.Ready (saves ++ rest) t ∧ (rest ≠ [] → d.Holds (saves ++ rest) t) := by
  induction rest generalizing saves s with
  | nil => exact ⟨s, rfl, by simpa using h, by simp⟩
  | cons v rest ih =>
    obtain ⟨s', hv, hs'⟩ := h.save hshort (v := v)
    obtain ⟨t, hrest, hready, hholds⟩ := ih hs'.ready
    have hsaves : saves ++ [v] ++ rest = saves ++ v :: rest := by simp
    refine ⟨t, ?_, hsaves ▸ hready, fun _ => ?_⟩
    · rw [List.mapM_cons, bind_eq hv, bind_eq hrest]
      rfl
    · cases rest with
      | nil =>
        obtain rfl : s' = t := congrArg Prod.snd hrest
        exact hs'
      | cons w rest => exact hsaves ▸ hholds (List.cons_ne_nil _ _)

/-! ## §7 Finding Formulas -/

/-- The formula that was saved last under the name of a problem is found. -/
theorem Holds.load (h : d.Holds saves s) (hshort : d.IsShort)
    (hlast : Save.lastUnder saves p.fileName = some v) (hv : v.IsReadable) :
    (d.load p : StateM FileStore (Except LookupError Cnf)) s = (.ok v.formula, s) ∧
      s.kind? (d.file p) = some .file := by
  have hlocate := h.hasDirectory.locate_join Problem.isEntryName_fileName (hshort p)
  have hentry : s.entry? (location (d.file p)) = some (.file (.text v.text)) := by
    rw [location_file, h.entry?_eq, hlast]
    rfl
  have hread : s.read (d.file p) = .ok v.text := by
    refine read_eq_ok_iff.2 ⟨?_, hentry⟩
    rw [location_file]
    exact hlocate
  refine ⟨load_of_read hread hv.ofDimacs_text, ?_⟩
  simp [kind?, at?, (read_eq_ok_iff.1 hread).1, hentry, FileEntry.kind]

/-- Nothing is found under a name that nothing was saved under. -/
theorem Ready.load_of_none (h : d.Ready saves s)
    (hnone : Save.lastUnder saves p.fileName = none) :
    (d.load p : StateM FileStore (Except LookupError Cnf)) s = (.error (.missing (d.file p)), s) ∧
      s.kind? (d.file p) = none := by
  obtain ⟨made, hmake, hholds⟩ := h
  have hentry : s.entry? (location (d.file p)) = none := by
    have hmade : made.entry? (location (d.file p)) = none := by
      rw [location_file, hholds.entry?_eq, hnone]
      rfl
    -- what is there before is there after the directory is made
    cases he : s.entry? (location (d.file p)) with
    | none => rfl
    | some e => rw [(grows_makeDirectories hmake).1.entry?_of _ _ he] at hmade; cases hmade
  have hkind : s.kind? (d.file p) = none := by
    cases hlocate : s.locate (d.file p) with
    | error e => simp only [kind?, at?, hlocate, Option.map_none]
    | ok l => simp only [kind?, at?, hlocate, locate_eq_ok hlocate, hentry, Option.map_none]
  exact ⟨load_of_missing (by simp [hkind]), hkind⟩

/-- Once it is made, the directory has no entries, and the paths of its files are not too long. -/
structure IsEmptyIn (d : CnfDirectory) (s : FileStore) : Prop where
  exists_made : ∃ t, s.makeDirectories d.path = .ok t ∧
    ∀ name, t.entry? (location d.path ++ [name]) = none
  isShort : d.IsShort

theorem IsEmptyIn.ready (h : d.IsEmptyIn s) : d.Ready [] s := by
  obtain ⟨t, hmake, hnone⟩ := h.exists_made
  exact ⟨t, hmake, (grows_makeDirectories hmake).2, hnone⟩

/-- A directory is a map from station sets to formulas.  After saves into an empty directory, the
formula that was saved last for the stations of a problem is found, and none if there was no such
save, as long as the digest tells the station sets apart.  The key that is digested does not depend
on the order of the stations, and problems share a file exactly if they have the same stations. -/
theorem load_of_saves :
    (∀ (d : CnfDirectory) (s : FileStore) (saves : List Save) (p : Problem), d.IsEmptyIn s →
      (∀ v ∈ saves, v.IsReadable) →
      Sha1.Separates (insert (stationBytes p.stations) (Save.keys saves)) →
      ∃ t, saves.mapM (·.into d) s = (saves.map fun v => .ok (d.file v.problem), t) ∧
        (d.load p : StateM FileStore (Except LookupError Cnf)) t
          = (match Save.lastFor saves p with
            | some v => .ok v.formula
            | none => .error (.missing (d.file p)), t) ∧
        (d.has p : StateM FileStore Bool) t = ((Save.lastFor saves p).isSome, t)) ∧
    (∀ l m : List StationId, l.Perm m → stationKey l = stationKey m) ∧
    ∀ p q : Problem, Sha1.Separates {stationBytes p.stations, stationBytes q.stations} →
      (p.fileName = q.fileName ↔ p.stationSet = q.stationSet) := by
  refine ⟨?_, fun l m => stationKey_eq_of_perm, fun p q => Problem.fileName_eq_iff⟩
  intro d s saves p hempty hsaves hseparates
  obtain ⟨t, hrun, hready, hholds⟩ := hempty.ready.saveAll hempty.isShort saves
  rw [List.nil_append] at hready hholds
  refine ⟨t, hrun, ?_⟩
  rw [has_eq, ← Save.lastUnder_fileName hseparates]
  -- under these keys a file name stands for a station set
  cases hlast : Save.lastUnder saves p.fileName with
  | none =>
    obtain ⟨hload, hkind⟩ := hready.load_of_none hlast
    exact ⟨hload, by rw [hkind]; rfl⟩
  | some v =>
    have hmem := Save.mem_of_lastUnder hlast
    obtain ⟨hload, hkind⟩ := (hholds (List.ne_nil_of_mem hmem)).load hempty.isShort hlast
      (hsaves v hmem)
    exact ⟨hload, by rw [hkind]; rfl⟩

end CnfDirectory

/-- A problem with one station, which may take one channel. -/
def Problem.lone (s : StationId) (c : Channel) : Problem :=
  .ofDomains (SortedMap.ofList [(s, SortedSet.ofList [c])]) SortedMap.empty

namespace CnfDirectory

open FileStore

/-- A directory that can be made where there is nothing yet. -/
def cnfs : CnfDirectory := ⟨⟨"cnfs"⟩⟩

theorem isEmptyIn_cnfs : cnfs.IsEmptyIn {} := by
  refine ⟨⟨⟨SortedMap.empty.insert ["cnfs"] .directory⟩, rfl, ?_⟩, ?_⟩
  · intro name
    have hlocation : location cnfs.path = ["cnfs"] := by decide
    rw [hlocation, entry?_insert (List.cons_ne_nil _ _), if_neg (by simp)]
    rfl
  · intro p
    have hbytes : (cnfs.file p).text.utf8ByteSize
        ≤ "cnfs".utf8ByteSize + 1 + p.fileName.utf8ByteSize := utf8ByteSize_join_le
    rw [Problem.utf8ByteSize_fileName] at hbytes
    exact hbytes.trans (by decide)

/-- Two formulas for one station, and one for another in between. -/
def threeSaves : List Save :=
  [⟨.lone 5 1, ⟨2, [[1, -2]]⟩, ["c".toList]⟩, ⟨.lone 9 1, ⟨1, [[]]⟩, []⟩,
    ⟨.lone 5 2, ⟨1, [[1]]⟩, []⟩]

theorem load_of_saves_three :
    ∃ t, threeSaves.mapM (·.into cnfs) {}
        = (threeSaves.map fun v => .ok (cnfs.file v.problem), t) ∧
      (cnfs.load (.lone 5 3) : StateM FileStore (Except LookupError Cnf)) t
        = (.ok ⟨1, [[1]]⟩, t) ∧
      (cnfs.has (.lone 5 3) : StateM FileStore Bool) t = (true, t) ∧
      (Problem.lone 5 3).fileName ≠ (Problem.lone 9 1).fileName := by
  have hreadable : ∀ v ∈ threeSaves, v.IsReadable := by
    intro v hv
    simp only [threeSaves, List.mem_cons, List.not_mem_nil, or_false] at hv
    rcases hv with rfl | rfl | rfl <;>
      exact ⟨by unfold Cnf.IsWellFormed; decide, ⟨by decide, by decide, by decide⟩, by decide⟩
  -- the two keys are digested here, and only here
  have hseparates : Sha1.Separates {stationBytes [5], stationBytes [9]} := by
    rintro _ (rfl | rfl) _ (rfl | rfl) h
    · rfl
    · exact absurd h (by decide +kernel)
    · exact absurd h (by decide +kernel)
    · rfl
  have hkeys : insert (stationBytes (Problem.lone 5 3).stations) (Save.keys threeSaves)
      ⊆ {stationBytes [5], stationBytes [9]} := by
    rintro _ (rfl | ⟨v, hv, rfl⟩)
    · exact Or.inl rfl
    · simp only [threeSaves, List.mem_cons, List.not_mem_nil, or_false] at hv
      rcases hv with rfl | rfl | rfl
      · exact Or.inl rfl
      · exact Or.inr rfl
      · exact Or.inl rfl
  have hlast : Save.lastFor threeSaves (.lone 5 3) = some ⟨.lone 5 2, ⟨1, [[1]]⟩, []⟩ := rfl
  obtain ⟨t, hrun, hload, hhas⟩ := load_of_saves.1 cnfs {} threeSaves (.lone 5 3) isEmptyIn_cnfs
    hreadable (hseparates.mono hkeys)
  rw [hlast] at hload hhas
  have hnames := load_of_saves.2.2 (.lone 5 3) (.lone 9 1) hseparates
  exact ⟨t, hrun, hload, hhas, fun h => absurd (hnames.1 h) (by decide)⟩

end CnfDirectory

end SpectrumPacking
