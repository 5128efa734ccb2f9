import SpectrumPacking.Proofs.Files.Retries
import SpectrumPacking.Proofs.Service.Extractions

/-!
# Questions of a Batch on Their Own

What becomes of a question does not depend on the batch that it is part of: in every run of a batch,
each question is treated as if it were extracted alone, from the same files
(`Extraction.Run.isAsAlone`).  Datasets are loaded once for each key, in the order in which the
questions name them.  Questions meet in one more place, the directory of the formulas, which one of
them makes for all.  What carries the proof is that they find it as they would have left it
themselves, but for the files in it (`CnfDirectory.MidSave`).
-/

namespace SpectrumPacking

/-! ## §1 Loading -/

/-- A file store, with the keys of the datasets that were loaded up to now. -/
structure Recorded where
  store : FileStore
  loaded : List String

instance : HasFiles Recorded := ⟨Recorded.store, fun s t => { s with store := t }⟩

/-- The loader that looks keys up in a table and keeps record of them. -/
def recording (table : String → Except DataError Dataset) (key : String) :
    StateM Recorded (Except DataError Dataset) := fun s =>
  (table key, { s with loaded := s.loaded ++ [key] })

namespace Extraction

section Loading

variable {table : String → Except DataError Dataset} {datasets : Datasets} {keys : List String}
  {key : String} {s : Recorded}

/-- Loaded datasets are those of a table. -/
def AreFrom (datasets : Datasets) (table : String → Except DataError Dataset) : Prop :=
  ∀ key entry, datasets.get? key = some entry → entry = (table key).mapError DataError.message

theorem AreFrom.insert (h : AreFrom datasets table) :
    AreFrom (datasets.insert key ((table key).mapError DataError.message)) table := by
  intro key' entry hentry
  rw [SortedMap.get?_insert] at hentry
  split at hentry
  · rename_i hkey
    subst hkey
    exact (Option.some.inj hentry).symm
  · exact h key' entry hentry

/-- Every key of a list has its dataset after loading. -/
theorem get?_loadAll (h : AreFrom datasets table)
    (hkey : key ∈ keys ∨ datasets.contains key = true) :
    (loadAll (recording table) datasets keys s).1.get? key
      = some ((table key).mapError DataError.message) := by
  induction keys generalizing datasets s with
  | nil =>
    obtain ⟨entry, hentry⟩ := SortedMap.contains_iff.1 (hkey.resolve_left List.not_mem_nil)
    exact hentry.trans (congrArg some (h key entry hentry))
  | cons first rest ih =>
    rw [loadAll]
    split
    · rename_i hfirst
      refine ih h ?_
      rcases hkey with hkey | hkey
      · rcases List.mem_cons.1 hkey with rfl | hkey
        · exact Or.inr hfirst
        · exact Or.inl hkey
      · exact Or.inr hkey
    · refine ih h.insert ?_
      rw [SortedMap.contains_iff]
      simp only [SortedMap.get?_insert]
      -- what is loaded now is either the entry asked for, or does not touch it
      by_cases hfirst : first = key
      · exact Or.inr ⟨_, if_pos hfirst⟩
      · rcases hkey with hkey | hkey
        · exact Or.inl ((List.mem_cons.1 hkey).resolve_left fun h => hfirst h.symm)
        · rw [if_neg hfirst]
          exact Or.inr (SortedMap.contains_iff.1 hkey)

/-- The keys without a dataset are loaded, each once, in the order in which they first appear. -/
theorem loaded_loadAll : (loadAll (recording table) datasets keys s).2 =
    { s with loaded := s.loaded ++ (keys.filter fun k => !datasets.contains k).eraseDups } := by
  induction keys generalizing datasets s with
  | nil => simp [loadAll]; rfl
  | cons first rest ih =>
    rw [loadAll]
    split
    · rename_i hfirst
      rw [ih, List.filter_cons_of_neg (by simp [hfirst])]
    · rename_i hfirst
      -- once the first key has its dataset, it is not loaded again
      have hkeys : (rest.filter fun k =>
          !(datasets.insert first ((table first).mapError DataError.message)).contains k)
          = (rest.filter fun k => !datasets.contains k).filter fun k => !k == first := by
        rw [List.filter_filter]
        refine List.filter_congr fun k _ => ?_
        rw [SortedMap.contains, SortedMap.get?_insert]
        by_cases hk : first = k
        · simp [hk]
        · simp [hk, Ne.symm hk, SortedMap.contains]
      refine ih.trans ?_
      rw [hkeys, List.filter_cons_of_pos (by simp [hfirst]), List.eraseDups_cons]
      simp

end Loading

end Extraction

/-! ## §2 Saving -/

namespace CnfDirectory

open FileStore

section Saving

variable {d : CnfDirectory} {s u v : FileStore} {p : Problem} {f : Cnf}
  {comments : List (List Char)} {e : FileFault}

/-- A store in which the directory was made, starting from another one, and files were written. -/
def Made (d : CnfDirectory) (s u : FileStore) : Prop :=
  ∃ t, s.makeDirectories d.path = .ok t ∧ t.SameDirectories u

/-- A store that can be met while formulas are saved, starting from another one. -/
inductive MidSave (d : CnfDirectory) (s : FileStore) : FileStore → Prop where
  /-- No formula was saved yet. -/
  | untouched : MidSave d s s
  | made {u : FileStore} (h : d.Made s u) : MidSave d s u
  /-- The directory could not be made, and no formula is saved. -/
  | refused {e : FileFault} {t : FileStore} (h : s.provideAll d.path = (.error e, t)) :
    MidSave d s t

/-- Saving formulas leads from stores that can be met to others, and the directory stays. -/
structure Saves (d : CnfDirectory) (s u v : FileStore) : Prop where
  midSave : d.MidSave s u → d.MidSave s v
  made : d.Made s u → d.Made s v

theorem isPreorder_saves : FileTask.IsPreorder (d.Saves s) :=
  ⟨fun _ => ⟨id, id⟩, fun _ _ _ h h' => ⟨h'.midSave ∘ h.midSave, h'.made ∘ h.made⟩⟩

theorem Made.hasDirectory (h : d.Made s u) : u.HasDirectory d.path := by
  obtain ⟨t, hmake, hsame⟩ := h
  exact (grows_makeDirectories hmake).2.of_keepsDirectories fun l => (hsame l).1

/-- The directory is made where that can be done, and was there otherwise. -/
theorem MidSave.made_of_provideAll (h : d.MidSave s u) (hmake : u.provideAll d.path = (.ok (), v)) :
    d.Made s v := by
  cases h with
  | untouched => exact ⟨v, makeDirectories_eq_ok_iff.2 hmake, .refl⟩
  | made h =>
    rw [provideAll_of_hasDirectory h.hasDirectory] at hmake
    cases hmake
    exact h
  | refused h =>
    obtain ⟨e', hagain, -⟩ := provideAll_again h
    rw [hagain] at hmake
    cases hmake

/-- The directory is refused where it was refused from the start. -/
theorem MidSave.refused_of_provideAll (h : d.MidSave s u)
    (hmake : u.provideAll d.path = (.error e, v)) :
    ∃ e₀, s.provideAll d.path = (.error e₀, v) ∧ e₀.ReadsAgain e := by
  cases h with
  | untouched => exact ⟨e, hmake, .same e⟩
  | made h =>
    rw [provideAll_of_hasDirectory h.hasDirectory] at hmake
    cases hmake
  | refused h =>
    obtain ⟨e', hagain, he'⟩ := provideAll_again h
    rw [hagain] at hmake
    cases hmake
    exact ⟨_, h, he'⟩

/-- What saving comes to is the same as elsewhere; if the directory cannot be made, the fault may
read as on another attempt. -/
inductive SavesAlike (d : CnfDirectory) :
    Except LookupError Path → Except LookupError Path → Prop where
  | same (r : Except LookupError Path) : SavesAlike d r r
  | refused {e e' : FileFault} (h : e.ReadsAgain e') :
    SavesAlike d (.error (.inaccessible d.path e)) (.error (.inaccessible d.path e'))

/-- Where the directory was made, writing comes to what saving comes to from the start. -/
theorem Made.fst_save (h : d.Made s u) :
    ((d.save p f comments : StateM FileStore _) s).1
      = ((u.write (d.file p) (.text (String.ofList (f.toDimacs comments)))).map
          fun _ => d.file p).mapError (LookupError.inaccessible (d.file p)) := by
  obtain ⟨t, hmake, hsame⟩ := h
  have hname : IsEntryName p.fileName := Problem.isEntryName_fileName
  have hdirectory : t.HasDirectory d.path := (grows_makeDirectories hmake).2
  rw [CnfDirectory.fst_save hmake, file, hdirectory.write_join_congr hsame hname]

theorem Made.write {q : Path} {content : FileContent} (h : d.Made s u)
    (hwrite : u.write q content = .ok v) : d.Made s v := by
  obtain ⟨t, hmake, hsame⟩ := h
  exact ⟨t, hmake, hsame.trans (sameDirectories_write hwrite)⟩

/-- Where the directory was refused from the start, it was never made. -/
theorem not_made_of_refused (h : s.provideAll d.path = (.error e, v)) : ¬ d.Made s u := by
  rintro ⟨t, hmake, -⟩
  rw [makeDirectories_eq_ok_iff, h] at hmake
  cases hmake

/-- Wherever formulas are saved, one more is saved as it would have been from the start. -/
theorem MidSave.meets_save (hu : d.MidSave s u) :
    (d.save p f comments : FileTask _).Meets (d.Saves s)
      (fun r _ => d.SavesAlike ((d.save p f comments : StateM FileStore _) s).1 r) u := by
  refine FileTask.Meets.makeDirectories fun v r w huv hmake => ?_
  have hv : d.MidSave s v := huv.midSave hu
  cases r with
  | error cause =>
    -- the directory could not be made from the start, either
    obtain ⟨cause₀, hrefused, hcause⟩ := hv.refused_of_provideAll hmake
    refine ⟨⟨fun _ => .refused hrefused, fun hmade => ?_⟩, ?_⟩
    · exact absurd hmade (not_made_of_refused hrefused)
    · show d.SavesAlike _ (.error (.inaccessible d.path cause))
      rw [save_of_refused hrefused]
      exact .refused hcause
  | ok _ =>
    -- the directory is as it would have been made from the start
    have hmade : d.Made s w := hv.made_of_provideAll hmake
    refine ⟨⟨fun _ => .made hmade, fun _ => hmade⟩, ?_⟩
    refine FileTask.Meets.write isPreorder_saves (fun x y hwx hwrite => ?_)
      (fun x cause hwx hwrite => ?_)
    · have hx : d.Made s x := hwx.made hmade
      refine ⟨⟨fun _ => .made (hx.write hwrite), fun _ => hx.write hwrite⟩, ?_⟩
      rw [hx.fst_save, hwrite]
      exact .same _
    · have hx : d.Made s x := hwx.made hmade
      rw [hx.fst_save, hwrite]
      exact .same _

end Saving

end CnfDirectory

namespace Extraction

/-! ## §3 One Question -/

section Questions

variable {directory : CnfDirectory} {datasets datasets' : Datasets} {path : Path}
  {question : Except DataError Question} {s u : FileStore}

/-- The outcome of a question is the same as elsewhere; if the directory cannot be made, the fault
behind it may read as on another attempt. -/
inductive SameOutcome (directory : CnfDirectory) :
    Except ExtractionError Path → Except ExtractionError Path → Prop where
  | same (o : Except ExtractionError Path) : SameOutcome directory o o
  | refused {e e' : FileFault} (h : e.ReadsAgain e') :
    SameOutcome directory (.error (.lookup (.inaccessible directory.path e)))
      (.error (.lookup (.inaccessible directory.path e')))

/-- The wording of the outcome is the same. -/
theorem SameOutcome.message_eq {o o' : Except ExtractionError Path}
    (h : SameOutcome directory o o') :
    o'.mapError ExtractionError.message = o.mapError ExtractionError.message := by
  cases h with
  | same => rfl
  | refused h => rfl

/-- What became of a question is what becomes of it alone. -/
structure IsAsAlone (directory : CnfDirectory) (alone e : Extraction) : Prop where
  question_eq : e.question = alone.question
  outcome : SameOutcome directory alone.outcome e.outcome
  size_eq : e.size = alone.size

theorem meets_isAsAlone (hu : directory.MidSave s u) :
    (ofQuestion directory datasets path question : FileTask _).Meets (directory.Saves s)
      (fun e _ => IsAsAlone directory
        ((ofQuestion directory datasets path question : StateM FileStore _) s).1 e) u := by
  cases question with
  | error e => exact ⟨rfl, .same _, rfl⟩
  | ok q =>
    -- without a problem nothing is saved
    cases hproblem : problemOf datasets q with
    | error e =>
      rw [ofQuestion_eq_error hproblem, ofQuestion_eq_error hproblem]
      exact ⟨rfl, .same _, rfl⟩
    | ok px =>
      obtain ⟨p, x⟩ := px
      rw [ofQuestion_eq_save hproblem, ofQuestion_eq_save hproblem]
      refine hu.meets_save.bind fun r t hr => ?_
      show IsAsAlone directory
        (ofSaved path p x ((directory.save p (p.encode x) p.comments : StateM FileStore _) s).1)
        (ofSaved path p x r)
      generalize ((directory.save p (p.encode x) p.comments : StateM FileStore _) s).1 = alone
        at hr ⊢
      cases hr with
      | same => exact ⟨rfl, .same _, rfl⟩
      | refused h => exact ⟨rfl, .refused h, rfl⟩

/-- Of the datasets, a question looks at its own. -/
theorem ofQuestion_congr {m : Type → Type} [Monad m] [FileAccess m]
    (h : ∀ q, question = .ok q → datasets.get? q.dataset = datasets'.get? q.dataset) :
    (ofQuestion directory datasets path question : m _)
      = ofQuestion directory datasets' path question := by
  cases question with
  | error e => rfl
  | ok q => rw [ofQuestion, ofQuestion, problemOf, problemOf, h q rfl]

end Questions

/-! ## §4 Extractions with a Record -/

section Records

variable {α : Type} {directory : CnfDirectory} {datasets : Datasets} {paths : List Path}
  {s : Recorded}

/-- Does something to the store and leaves the record alone. -/
def onStore (x : StateM FileStore α) : StateM Recorded α := fun s =>
  ((x s.store).1, { s with store := (x s.store).2 })

theorem onStore_write {p : Path} {text : String} :
    onStore (FileAccess.write p text) = (FileAccess.write p text : StateM Recorded _) := by
  funext s
  cases hwrite : s.store.write p (.text text) with
  | error cause =>
    rw [onStore, FileStore.write_access_error hwrite]
    show _ = HasFiles.change _ s
    simp [HasFiles.change, HasFiles.files, hwrite]
  | ok t =>
    rw [onStore, FileStore.write_access hwrite]
    show _ = HasFiles.change _ s
    simp [HasFiles.change, HasFiles.files, HasFiles.withFiles, hwrite]

/-- Programs on the store work beside a record as they do without one. -/
def storing : FileTranslation (StateM FileStore) (StateM Recorded) where
  carry := onStore
  carry_pure _ := rfl
  carry_bind _ _ := rfl
  carry_read _ := rfl
  carry_write _ _ := onStore_write
  carry_makeDirectories _ := rfl

theorem onStore_saveAll {l : List (Path × Except DataError Question)} :
    onStore (saveAll directory datasets l)
      = (saveAll directory datasets l : StateM Recorded _) := by
  induction l with
  | nil => rfl
  | cons q rest ih =>
    have hfirst : onStore (ofQuestion directory datasets q.1 q.2)
        = ofQuestion directory datasets q.1 q.2 := carry_ofQuestion storing
    rw [saveAll, saveAll, ← hfirst, ← ih]
    rfl

/-- The extraction with a record, one thing after another. -/
theorem extract_recorded {table : String → Except DataError Dataset} :
    let questions := paths.map fun path => (path, questionIn s.store path)
    let loaded := loadAll (recording table) SortedMap.empty (keysOf questions) s
    extract (recording table) directory paths s
      = onStore (saveAll directory loaded.1 questions) loaded.2 := by
  intro questions loaded
  rw [extract, bind_eq readAll_eq_map, onStore_saveAll]
  rfl

end Records

/-! ## §5 Batches -/

section Batch

variable {table : String → Except DataError Dataset} {directory : CnfDirectory}
  {paths : List Path} {path : Path} {start : Recorded}

/-- What loading comes to in a run. -/
theorem Run.loads_eq (r : Run (recording table) directory paths start) :
    r.datasets = (loadAll (recording table) SortedMap.empty (keysOf r.questions) start).1 ∧
      r.afterLoading = { start with loaded := start.loaded ++ (keysOf r.questions).eraseDups } := by
  have hloads := r.loads
  rw [r.afterReading_eq] at hloads
  have hstart : HasFiles.withFiles start (HasFiles.files start) = start := rfl
  rw [hstart] at hloads
  refine ⟨(congrArg Prod.fst hloads).symm, (congrArg Prod.snd hloads).symm.trans ?_⟩
  have hall : (keysOf r.questions).filter (fun key => !(SortedMap.empty : Datasets).contains key)
      = keysOf r.questions := List.filter_eq_self.2 fun key _ => rfl
  rw [loaded_loadAll, hall]

/-- What becomes of the question in a file when it is extracted alone. -/
def alone (table : String → Except DataError Dataset) (directory : CnfDirectory) (start : Recorded)
    (path : Path) : Extraction :=
  let question := questionIn start.store path
  let datasets :=
    (loadAll (recording table) SortedMap.empty (keysOf [(path, question)]) start).1
  ((ofQuestion directory datasets path question : StateM FileStore _) start.store).1

theorem extract_singleton :
    (extract (recording table) directory [path] start).1 = [alone table directory start path] := by
  rw [extract_recorded, loaded_loadAll]
  rfl

/-- A question that was read finds its dataset, in a batch as alone. -/
theorem get?_loadAll_keysOf {l : List (Path × Except DataError Question)} {q : Question}
    (h : (path, .ok q) ∈ l) :
    (loadAll (recording table) SortedMap.empty (keysOf l) start).1.get? q.dataset
      = some ((table q.dataset).mapError DataError.message) := by
  refine get?_loadAll (fun key entry hentry => ?_) (Or.inl ?_)
  · rw [SortedMap.get?_empty] at hentry
    cases hentry
  · exact List.mem_filterMap.2 ⟨_, h, rfl⟩

/-- In every interleaving, each question of a batch is treated as if it were alone. -/
theorem Run.isAsAlone (r : Run (recording table) directory paths start) :
    List.Forall₂ (fun path e => IsAsAlone directory (alone table directory start path) e) paths
      r.extractions := by
  let IsAlone (path : Path) (e : Extraction) (_ : FileStore) : Prop :=
    IsAsAlone directory (alone table directory start path) e
  -- what a question came to is not changed by what others do later
  have hstable : ∀ path, FileTask.IsStable (directory.Saves start.store) (IsAlone path) :=
    fun _ _ _ _ _ h => h
  obtain ⟨hdatasets, hloading⟩ := r.loads_eq
  have hsaves := r.saves
  rw [r.questions_eq, List.map_map, hloading] at hsaves
  refine (hsaves.meets CnfDirectory.isPreorder_saves hstable (l := paths) ?_).2
  rw [List.forall₂_map_right_iff, List.forall₂_same]
  intro path hpath
  -- the table holds for the question what it would hold for it alone
  have hsame : ∀ q, questionIn start.store path = .ok q → r.datasets.get? q.dataset
      = (loadAll (recording table) SortedMap.empty
          (keysOf [(path, questionIn start.store path)]) start).1.get? q.dataset := by
    intro q hq
    have hbatch : (path, .ok q) ∈ r.questions := by
      rw [r.questions_eq, ← hq]
      exact List.mem_map.2 ⟨path, hpath, rfl⟩
    have halone : (path, .ok q) ∈ [(path, questionIn start.store path)] := by
      rw [hq]
      exact List.mem_singleton.2 rfl
    rw [hdatasets, get?_loadAll_keysOf hbatch, get?_loadAll_keysOf halone]
  show (ofQuestion directory r.datasets path (questionIn start.store path) : FileTask _).Meets _ _ _
  rw [ofQuestion_congr hsame]
  exact meets_isAsAlone .untouched

/-- The extraction that does one thing after another is one of the runs. -/
def Run.recorded (table : String → Except DataError Dataset) (directory : CnfDirectory)
    (paths : List Path) (s : Recorded) : Run (recording table) directory paths s :=
  let questions := paths.map fun path => (path, questionIn s.store path)
  let loaded := loadAll (recording table) SortedMap.empty (keysOf questions) s
  let saved := (saveAll directory loaded.1 questions : StateM FileStore _) loaded.2.store
  { questions := questions
    afterReading := s.store
    datasets := loaded.1
    afterLoading := loaded.2
    extractions := saved.1
    final := saved.2
    reads := by
      have hreads : FileTask.Runs (paths.map readOne) s.store
          ((readAll paths : StateM FileStore _) s.store).1
          ((readAll paths : StateM FileStore _) s.store).2 := by
        simp only [readAll_eq]
        exact FileTask.runs_mapM
      rw [readAll_eq_map] at hreads
      exact hreads
    loads := rfl
    saves := by
      simp only [saved, saveAll_eq]
      exact FileTask.runs_mapM }

theorem extract_eq_recorded : extract (recording table) directory paths start
    = ((Run.recorded table directory paths start).extractions,
      ⟨(Run.recorded table directory paths start).final,
        (Run.recorded table directory paths start).afterLoading.loaded⟩) :=
  extract_recorded

theorem question_alone : (alone table directory start path).question = path := by
  unfold alone
  dsimp only
  cases questionIn start.store path with
  | error e => rfl
  | ok q =>
    cases hproblem : problemOf _ q with
    | error e =>
      rw [ofQuestion_eq_error hproblem]
      rfl
    | ok px =>
      rw [ofQuestion_eq_save hproblem]
      rfl

/-- Each question of a batch, in the order of the paths, comes to what it comes to alone, whatever
the interleaving; its wording is the same, too, although the cause behind a directory that cannot be
made may read as on another attempt.  A dataset is loaded once for each key that some question
names, in the order in which the keys first appear.  Extracting one after another is one of the
interleavings. -/
theorem batch_asAlone (table : String → Except DataError Dataset) (directory : CnfDirectory)
    (paths : List Path) (start : Recorded) :
    (∀ r : Run (recording table) directory paths start,
      List.Forall₂ (fun path e => e.question = path ∧ ∃ alone,
        (extract (recording table) directory [path] start).1 = [alone] ∧
        e.size = alone.size ∧ SameOutcome directory alone.outcome e.outcome ∧
        e.outcome.mapError ExtractionError.message
          = alone.outcome.mapError ExtractionError.message) paths r.extractions ∧
      r.afterLoading.loaded = start.loaded ++ (paths.filterMap fun path =>
        (questionIn start.store path).toOption.map Question.dataset).eraseDups) ∧
    ∃ r : Run (recording table) directory paths start,
      extract (recording table) directory paths start
        = (r.extractions, ⟨r.final, r.afterLoading.loaded⟩) := by
  refine ⟨fun r => ⟨?_, ?_⟩, .recorded table directory paths start, extract_eq_recorded⟩
  · refine r.isAsAlone.imp fun path e h => ?_
    exact ⟨h.question_eq.trans question_alone, _, extract_singleton, h.size_eq, h.outcome,
      h.outcome.message_eq⟩
  · have hkeys : keysOf r.questions = paths.filterMap fun path =>
        (questionIn start.store path).toOption.map Question.dataset := by
      rw [r.questions_eq, keysOf, List.filterMap_map]
      rfl
    rw [r.loads_eq.2, hkeys]

end Batch

/-- Questions on two datasets, and a text that is no question. -/
def mixed : Recorded := ⟨⟨SortedMap.ofList
  [(["low"], .file (.text "STATION_CONFIG,d\nBAND,LVHF\n1\n")),
    (["lost"], .file (.text "STATION_CONFIG,e\nBAND,UHF\n1\n")),
    (["note"], .file (.text "?"))]⟩, []⟩

/-- One dataset, in which the station may take a channel of either band. -/
def singleTable (key : String) : Except DataError Dataset :=
  if key = "d" then .ok ⟨SortedMap.ofList [(1, SortedSet.ofList [2, 14])], Interference.none⟩
  else .error (.notFound ⟨key⟩)

/-- A batch of two questions on the dataset, one on another dataset, a text that is no question and
a file that is not there. -/
theorem batch_asAlone_mixed :
    let paths : List Path := [⟨"low"⟩, ⟨"note"⟩, ⟨"lost"⟩, ⟨"low"⟩, ⟨"nowhere"⟩]
    let batch := extract (recording singleTable) .cnfs paths mixed
    batch.1.map Extraction.isFailed = [false, true, true, false, true] ∧
      batch.2.loaded = ["d", "e"] ∧
      List.Forall₂ (fun path e => ∃ alone,
        (extract (recording singleTable) .cnfs [path] mixed).1 = [alone] ∧
        e.size = alone.size ∧ SameOutcome .cnfs alone.outcome e.outcome) paths batch.1 := by
  intro paths batch
  obtain ⟨hall, r, hr⟩ := batch_asAlone singleTable .cnfs paths mixed
  obtain ⟨halone, hloaded⟩ := hall r
  refine ⟨by decide +kernel, ?_, ?_⟩
  · rw [show batch = _ from hr]
    exact hloaded.trans (by decide +kernel)
  · rw [show batch = _ from hr]
    exact halone.imp fun path e ⟨_, alone, hextract, hsize, houtcome, _⟩ =>
      ⟨alone, hextract, hsize, houtcome⟩

/-- A question, and a file in the place of a directory. -/
def blocked : Recorded := ⟨⟨SortedMap.ofList
  [(["low"], .file (.text "STATION_CONFIG,d\nBAND,LVHF\n1\n")), (["f"], .file (.text ""))]⟩, []⟩

/-- A question need not come to exactly what it comes to alone: where the first attempt to make the
directory of the formulas finds a file in the place of a directory, the second one meets this file
on its way. -/
theorem outcome_blocked :
    let directory : CnfDirectory := ⟨⟨"a/../f/x"⟩⟩
    let refused (cause : FileFault) : Except ExtractionError Path :=
      .error (.lookup (.inaccessible directory.path cause))
    let outcomes (paths : List Path) :=
      (extract (recording singleTable) directory paths blocked).1.map Extraction.outcome
    outcomes [⟨"low"⟩] = [refused .occupied] ∧
      outcomes [⟨"low"⟩, ⟨"low"⟩] = [refused .occupied, refused .notDirectory] := by
  decide +kernel

end Extraction

end SpectrumPacking
