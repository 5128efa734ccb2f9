import SpectrumPacking.Proofs.Encoding.Directories
import SpectrumPacking.Proofs.Files.Tasks
import SpectrumPacking.Service.Extraction

/-!
# Extracting Formulas Side by Side

The questions of a batch are read side by side, and after their datasets are loaded, they are
encoded and saved side by side (`Extraction.Run`).  Formulas are filed by station set, so questions
with the same stations share a file.  In every interleaving, a file that a question was saved in
holds the text of a question of the batch with the same stations at the end: its own, if all of
these yield the same text (`Extraction.Run.read_saved`).  Two questions with the same station and
different bands show that it need not be its own (`Extraction.not_read_own_twoBands`).
-/

namespace SpectrumPacking

namespace Extraction

/-! ## §1 Reading and Loading -/

/-- Reads the question in a file. -/
def readOne {m : Type → Type} [Monad m] [FileAccess m] (path : Path) :
    m (Path × Except DataError Question) := do
  let q ← Question.load path
  return (path, q)

/-- What reading the question in a file comes to. -/
def questionIn (s : FileStore) (path : Path) : Except DataError Question :=
  match s.read path with
  | .ok text => Question.ofText path text.toList
  | .error cause => .error (.unreadable path cause)

theorem isPreorder_eq : FileTask.IsPreorder Eq := ⟨fun _ => rfl, fun _ _ _ => Eq.trans⟩

/-- Reading changes nothing. -/
theorem meets_readOne {s : FileStore} {path : Path} :
    (readOne path : FileTask _).Meets Eq (fun e t => e = (path, questionIn t path)) s := by
  have hload : (Question.load path : FileTask _).Meets Eq (fun q t => q = questionIn t path) s := by
    refine FileTask.Meets.read isPreorder_eq fun t => ?_
    cases hread : t.read path with
    | ok text =>
      show Question.ofText path text.toList = questionIn t path
      simp only [questionIn, hread]
    | error cause =>
      show Except.error (DataError.unreadable path cause) = questionIn t path
      simp only [questionIn, hread]
  refine hload.bind fun q t hq => ?_
  rw [hq]
  rfl

theorem readAll_eq_map {σ : Type} [HasFiles σ] {paths : List Path} {s : σ} :
    (readAll paths : StateM σ _) s
      = (paths.map fun path => (path, questionIn (HasFiles.files s) path), s) := by
  have hload : ∀ path, (Question.load path : StateM σ _) s
      = (questionIn (HasFiles.files s) path, s) := by
    intro path
    have hread : (FileAccess.read path : StateM σ _) s = ((HasFiles.files s).read path, s) := rfl
    rw [Question.load, bind_eq hread, questionIn]
    cases (HasFiles.files s).read path <;> rfl
  induction paths with
  | nil => rfl
  | cons path rest ih =>
    rw [readAll, bind_eq (hload path), bind_eq ih]
    rfl

/-- A dataset that is there was there before, or was loaded for its key. -/
theorem loaded_of_get?_loadAll {σ : Type} {load : String → StateM σ (Except DataError Dataset)}
    {datasets : Datasets} {keys : List String} {w : σ} {key : String} {d : Dataset}
    (h : (loadAll load datasets keys w).1.get? key = some (.ok d)) :
    datasets.get? key = some (.ok d) ∨ ∃ w', (load key w').1 = .ok d := by
  induction keys generalizing datasets w with
  | nil => exact Or.inl h
  | cons first rest ih =>
    rw [loadAll] at h
    split at h
    · exact ih h
    · obtain h | h := ih (w := (load first w).2) h
      -- the entry is the one just loaded, or an older one
      · rw [SortedMap.get?_insert] at h
        split at h
        · rename_i hfirst
          cases hload : (load first w).1 with
          | error e => simp [hload, Except.mapError] at h
          | ok loaded =>
            obtain rfl : loaded = d := by simpa [hload, Except.mapError] using h
            exact Or.inr ⟨w, hfirst ▸ hload⟩
        · exact Or.inl h
      · exact Or.inr h

/-! ## §2 Saving -/

/-- The text of the formula of a problem. -/
def formulaText (p : Problem) (x : Interference) : String :=
  String.ofList ((p.encode x).toDimacs p.comments)

/-- What becomes of a question by what saving its formula comes to. -/
def ofSaved (path : Path) (p : Problem) (x : Interference) (r : Except LookupError Path) :
    Extraction :=
  ⟨path, r.mapError .lookup, r.toOption.map fun _ => .ofFormula p (p.encode x)⟩

theorem outcome_ofSaved_eq_ok_iff {path file : Path} {p : Problem} {x : Interference}
    {r : Except LookupError Path} : (ofSaved path p x r).outcome = .ok file ↔ r = .ok file := by
  cases r <;> simp [ofSaved, Except.mapError]

section Questions

variable {m : Type → Type} [Monad m] [FileAccess m] {directory : CnfDirectory}
  {datasets : Datasets} {path : Path} {q : Question} {p : Problem} {x : Interference}

theorem ofQuestion_eq_error {e : ExtractionError} (h : problemOf datasets q = .error e) :
    (ofQuestion directory datasets path (.ok q) : m _) = pure ⟨path, .error e, none⟩ := by
  rw [ofQuestion, h]

/-- A question that amounts to a problem comes to what saving its formula comes to. -/
theorem ofQuestion_eq_save (h : problemOf datasets q = .ok (p, x)) :
    (ofQuestion directory datasets path (.ok q) : m _)
      = directory.save p (p.encode x) p.comments >>= fun r => pure (ofSaved path p x r) := by
  rw [ofQuestion, h]
  exact bind_congr fun r => by cases r <;> rfl

end Questions

section Saving

variable {directory : CnfDirectory} {posed : Set (Problem × Interference)} {s t : FileStore}
  {p : Problem} {x : Interference}

/-- A file holds the text of one of some problems, which is filed there. -/
def HoldsOne (directory : CnfDirectory) (posed : Set (Problem × Interference)) (file : Path)
    (s : FileStore) : Prop :=
  ∃ px ∈ posed, directory.file px.1 = file ∧ s.read file = .ok (formulaText px.1 px.2)

/-- Files that hold the text of one of some problems do so still. -/
def KeepsTexts (directory : CnfDirectory) (posed : Set (Problem × Interference))
    (s t : FileStore) : Prop :=
  ∀ file, HoldsOne directory posed file s → HoldsOne directory posed file t

theorem isPreorder_keepsTexts : FileTask.IsPreorder (KeepsTexts directory posed) :=
  ⟨fun _ _ h => h, fun _ _ _ hst htu file h => htu file (hst file h)⟩

/-- Saving the text of another problem in a file leaves a text of such a problem there. -/
theorem keepsTexts_write (hposed : (p, x) ∈ posed)
    (h : s.write (directory.file p) (.text (formulaText p x)) = .ok t) :
    KeepsTexts directory posed s t := by
  rintro file ⟨px, hpx, rfl, hread⟩
  by_cases hlocation : FileStore.location (directory.file p)
      = FileStore.location (directory.file px.1)
  · have hfile : directory.file p = directory.file px.1 := by
      rw [CnfDirectory.file, CnfDirectory.location_file_inj hlocation, ← CnfDirectory.file]
    exact ⟨(p, x), hposed, hfile, hfile ▸ FileStore.read_of_write h⟩
  · exact ⟨px, hpx, rfl, FileStore.read_of_write_of_ne h hlocation hread⟩

/-- A question is saved in the file for its stations, and such a file never loses its text. -/
theorem meets_save (hposed : (p, x) ∈ posed) :
    (directory.save p (p.encode x) p.comments : FileTask _).Meets (KeepsTexts directory posed)
      (fun r t => ∀ file, r = .ok file → file = directory.file p ∧ HoldsOne directory posed file t)
      s := by
  have hpre : FileTask.IsPreorder (KeepsTexts directory posed) := isPreorder_keepsTexts
  refine FileTask.Meets.makeDirectories fun t made u _ hmake => ⟨?_, ?_⟩
  · rintro file ⟨px, hpx, hfile, hread⟩
    exact ⟨px, hpx, hfile, (FileStore.grows_provideAll hmake).1.read_of hread⟩
  cases made with
  | error cause => rintro file ⟨⟩
  | ok _ =>
    refine FileTask.Meets.write hpre (fun t u _ hwrite => ⟨keepsTexts_write hposed hwrite, ?_⟩)
      (fun t cause _ _ => ?_)
    · rintro file ⟨⟩
      exact ⟨rfl, (p, x), hposed, rfl, FileStore.read_of_write hwrite⟩
    · rintro file ⟨⟩

/-- What a question is saved as, if it is saved. -/
theorem meets_ofQuestion {datasets : Datasets} {path : Path} {question : Except DataError Question}
    (hposed : ∀ q p x, question = .ok q → problemOf datasets q = .ok (p, x) → (p, x) ∈ posed) :
    (ofQuestion directory datasets path question : FileTask _).Meets (KeepsTexts directory posed)
      (fun e t => e.question = path ∧ ∀ file, e.outcome = .ok file →
        ∃ q p x, question = .ok q ∧ problemOf datasets q = .ok (p, x) ∧ file = directory.file p ∧
          HoldsOne directory posed file t) s := by
  cases question with
  | error e => exact ⟨rfl, nofun⟩
  | ok q =>
    -- only a question with a problem saves anything
    cases hproblem : problemOf datasets q with
    | error e =>
      rw [ofQuestion_eq_error hproblem]
      exact ⟨rfl, nofun⟩
    | ok px =>
      obtain ⟨p, x⟩ := px
      rw [ofQuestion_eq_save hproblem]
      refine (meets_save (hposed q p x rfl hproblem)).bind fun r t hr => ⟨rfl, fun file hfile => ?_⟩
      obtain ⟨hfor, hholds⟩ := hr file (outcome_ofSaved_eq_ok_iff.1 hfile)
      exact ⟨q, p, x, rfl, hproblem, hfor, hholds⟩

end Saving

/-! ## §3 Runs -/

/-- An extraction in which the questions are read side by side and, once the datasets are loaded,
saved side by side. -/
structure Run {σ : Type} [HasFiles σ] (load : String → StateM σ (Except DataError Dataset))
    (directory : CnfDirectory) (paths : List Path) (start : σ) where
  /-- What reading the files came to, in the order of the paths. -/
  questions : List (Path × Except DataError Question)
  /-- The files once all questions are read. -/
  afterReading : FileStore
  /-- The datasets that the questions name, and the state once they are loaded. -/
  datasets : Datasets
  afterLoading : σ
  /-- What became of the questions, in the same order. -/
  extractions : List Extraction
  /-- The files at the end. -/
  final : FileStore
  reads : FileTask.Runs (paths.map readOne) (HasFiles.files start) questions afterReading
  loads : loadAll load SortedMap.empty (keysOf questions) (HasFiles.withFiles start afterReading)
    = (datasets, afterLoading)
  saves : FileTask.Runs (questions.map fun q => ofQuestion directory datasets q.1 q.2)
    (HasFiles.files afterLoading) extractions final

namespace Run

variable {σ : Type} [HasFiles σ] {load : String → StateM σ (Except DataError Dataset)}
  {directory : CnfDirectory} {paths : List Path} {start : σ} {path : Path} {p : Problem}
  {x : Interference}

/-- The question in a file amounts to a problem over the dataset that was loaded for it. -/
def Poses (r : Run load directory paths start) (path : Path) (p : Problem) (x : Interference) :
    Prop :=
  ∃ text q d, (HasFiles.files start).read path = .ok text ∧
    Question.ofText path text.toList = .ok q ∧ (∃ w, (load q.dataset w).1 = .ok d) ∧
    r.datasets.get? q.dataset = some (.ok d) ∧ q.problem d.domains = .ok p ∧ d.interference = x

/-- The texts of the questions of the batch that have the stations of a problem. -/
def textsFor (r : Run load directory paths start) (p : Problem) : Set String :=
  {text | ∃ path ∈ paths, ∃ p' x, r.Poses path p' x ∧ p'.stationSet = p.stationSet ∧
    text = formulaText p' x}

/-- The keys of the station sets of the batch. -/
def keys (r : Run load directory paths start) : Set (List UInt8) :=
  {text | ∃ path ∈ paths, ∃ p x, r.Poses path p x ∧ text = stationBytes p.stations}

theorem reads_eq (r : Run load directory paths start) :
    HasFiles.files start = r.afterReading ∧
      List.Forall₂ (fun path e => e = (path, questionIn r.afterReading path)) paths r.questions :=
  r.reads.meets (Q := fun path e t => e = (path, questionIn t path)) isPreorder_eq
    (fun _ _ _ _ hst he => hst ▸ he)
    (List.forall₂_map_right_iff.2 (List.forall₂_same.2 fun _ _ => meets_readOne))

theorem afterReading_eq (r : Run load directory paths start) :
    r.afterReading = HasFiles.files start := r.reads_eq.1.symm

theorem questions_eq (r : Run load directory paths start) :
    r.questions = paths.map fun path => (path, questionIn (HasFiles.files start) path) := by
  have hmap : List.Forall₂ (· = ·)
      (paths.map fun path => (path, questionIn (HasFiles.files start) path)) r.questions :=
    List.forall₂_map_left_iff.2 (r.reads_eq.2.imp fun path e he => by rw [he, r.afterReading_eq])
  rw [List.forall₂_eq_eq_eq] at hmap
  exact hmap.symm

/-- The problem that the question in a file amounts to, and the interference of its dataset. -/
def problem? (r : Run load directory paths start) (path : Path) : Option (Problem × Interference) :=
  (questionIn (HasFiles.files start) path).toOption.bind fun q => (problemOf r.datasets q).toOption

theorem problem?_of_poses {r : Run load directory paths start} (h : r.Poses path p x) :
    r.problem? path = some (p, x) := by
  obtain ⟨text, q, d, hread, hq, -, hd, hp, rfl⟩ := h
  simp [problem?, questionIn, problemOf, hread, hq, hd, hp, Except.toOption]

theorem poses_of_problemOf (r : Run load directory paths start) {q : Question}
    (hq : questionIn (HasFiles.files start) path = .ok q)
    (hproblem : problemOf r.datasets q = .ok (p, x)) : r.Poses path p x := by
  unfold questionIn at hq
  split at hq
  · rename_i text hread
    unfold problemOf at hproblem
    split at hproblem
    · cases hproblem
    · cases hproblem
    · rename_i d hd
      split at hproblem
      · cases hproblem
      · rename_i p' hp
        cases hproblem
        -- the dataset in the table came from the loader
        have hloaded : (loadAll load SortedMap.empty (keysOf r.questions)
            (HasFiles.withFiles start r.afterReading)).1.get? q.dataset = some (.ok d) := by
          rw [r.loads]
          exact hd
        obtain hempty | hload := loaded_of_get?_loadAll hloaded
        · cases hempty
        · exact ⟨text, q, d, hread, hq, hload, hd, hp, rfl⟩
  · cases hq

/-- The problems of the batch. -/
def problems (r : Run load directory paths start) : Set (Problem × Interference) :=
  {px | ∃ path ∈ paths, r.Poses path px.1 px.2}

/-- At the end, every file that a question was saved in is the file for its stations, and it holds
the text of a problem of the batch that is filed there. -/
theorem holdsOne_saved (r : Run load directory paths start) :
    List.Forall₂ (fun path e => path ∈ paths ∧ e.question = path ∧ ∀ file, e.outcome = .ok file →
      ∃ p x, r.Poses path p x ∧ file = directory.file p ∧
        HoldsOne directory r.problems file r.final) paths r.extractions := by
  -- to be shown for each question right after it is saved, and kept by all later ones
  let IsSaved (path : Path) (e : Extraction) (t : FileStore) : Prop :=
    e.question = path ∧ ∀ file, e.outcome = .ok file →
      ∃ q p x, questionIn (HasFiles.files start) path = .ok q ∧
        problemOf r.datasets q = .ok (p, x) ∧ file = directory.file p ∧
        HoldsOne directory r.problems file t
  have hstable : ∀ path, FileTask.IsStable (KeepsTexts directory r.problems) (IsSaved path) := by
    rintro path e s t hst ⟨hquestion, hsaved⟩
    refine ⟨hquestion, fun file hfile => ?_⟩
    obtain ⟨q, p, x, hq, hproblem, hfor, hholds⟩ := hsaved file hfile
    exact ⟨q, p, x, hq, hproblem, hfor, hst file hholds⟩
  have hsaves := r.saves
  rw [r.questions_eq, List.map_map] at hsaves
  obtain ⟨-, hresults⟩ := hsaves.meets isPreorder_keepsTexts hstable (l := paths)
    (List.forall₂_map_right_iff.2 (List.forall₂_same.2 fun path hpath =>
      meets_ofQuestion fun q p x hq hproblem => ⟨path, hpath, r.poses_of_problemOf hq hproblem⟩))
  refine (List.forall₂_and_left _ _ |>.2 ⟨fun _ h => h, hresults⟩).imp ?_
  rintro path e ⟨hpath, hquestion, hsaved⟩
  refine ⟨hpath, hquestion, fun file hfile => ?_⟩
  obtain ⟨q, p, x, hq, hproblem, hfor, hholds⟩ := hsaved file hfile
  exact ⟨p, x, r.poses_of_problemOf hq hproblem, hfor, hholds⟩

end Run

/-! ## §4 One after Another -/

section Translations

variable {m n : Type → Type} [Monad m] [Monad n] [FileAccess m] [FileAccess n]
  (φ : FileTranslation m n) {directory : CnfDirectory} {datasets : Datasets} {path : Path}
  {question : Except DataError Question}

theorem carry_readOne : φ.carry (readOne path) = readOne path := by
  have hload : φ.carry (Question.load path) = Question.load path := by
    rw [Question.load, φ.carry_bind, φ.carry_read, Question.load]
    refine bind_congr fun answer => ?_
    cases answer <;> exact φ.carry_pure _
  rw [readOne, φ.carry_bind, hload, readOne]
  exact bind_congr fun q => φ.carry_pure _

theorem carry_save {p : Problem} {f : Cnf} {comments : List (List Char)} :
    φ.carry (directory.save p f comments) = directory.save p f comments := by
  rw [CnfDirectory.save, φ.carry_bind, φ.carry_makeDirectories, CnfDirectory.save]
  refine bind_congr fun made => ?_
  cases made with
  | error cause => exact φ.carry_pure _
  | ok _ =>
    dsimp only
    rw [φ.carry_bind, φ.carry_write]
    refine bind_congr fun written => ?_
    cases written <;> exact φ.carry_pure _

theorem carry_ofQuestion : φ.carry (ofQuestion directory datasets path question)
    = ofQuestion directory datasets path question := by
  cases question with
  | error e => exact φ.carry_pure _
  | ok q =>
    cases hproblem : problemOf datasets q with
    | error e =>
      rw [ofQuestion_eq_error hproblem, ofQuestion_eq_error hproblem]
      exact φ.carry_pure _
    | ok px =>
      obtain ⟨p, x⟩ := px
      rw [ofQuestion_eq_save hproblem, φ.carry_bind, carry_save, ofQuestion_eq_save hproblem]
      exact bind_congr fun r => φ.carry_pure _

end Translations

theorem readAll_eq {paths : List Path} :
    (readAll paths : StateM FileStore _)
      = (paths.map fun path => (readOne path : FileTask _)).mapM FileTask.run := by
  induction paths with
  | nil => rfl
  | cons path rest ih =>
    have hfirst : (readOne path : FileTask _).run = (readOne path : StateM FileStore _) :=
      carry_readOne FileTask.running
    rw [List.map_cons, List.mapM_cons, ← ih, hfirst, readOne, bind_assoc]
    rfl

theorem saveAll_eq {directory : CnfDirectory} {datasets : Datasets}
    {l : List (Path × Except DataError Question)} :
    (saveAll directory datasets l : StateM FileStore _)
      = (l.map fun q => (ofQuestion directory datasets q.1 q.2 : FileTask _)).mapM
        FileTask.run := by
  induction l with
  | nil => rfl
  | cons q rest ih =>
    have hfirst : (ofQuestion directory datasets q.1 q.2 : FileTask _).run
        = (ofQuestion directory datasets q.1 q.2 : StateM FileStore _) :=
      carry_ofQuestion FileTask.running
    rw [List.map_cons, List.mapM_cons, ← ih, hfirst]
    rfl

/-- The extraction that does one thing after another is one of the runs. -/
def Run.sequential (load : String → StateM FileStore (Except DataError Dataset))
    (directory : CnfDirectory) (paths : List Path) (s : FileStore) :
    Run load directory paths s :=
  let read := (readAll paths : StateM FileStore _) s
  let loaded := loadAll load SortedMap.empty (keysOf read.1) read.2
  let saved := (saveAll directory loaded.1 read.1 : StateM FileStore _) loaded.2
  { questions := read.1
    afterReading := read.2
    datasets := loaded.1
    afterLoading := loaded.2
    extractions := saved.1
    final := saved.2
    reads := by
      simp only [read, readAll_eq]
      exact FileTask.runs_mapM
    loads := rfl
    saves := by
      simp only [saved, saveAll_eq]
      exact FileTask.runs_mapM }

/-- `extract` itself is such a run, so what holds of all of them holds of it. -/
theorem extract_eq {load : String → StateM FileStore (Except DataError Dataset)}
    {directory : CnfDirectory} {paths : List Path} {s : FileStore} :
    extract load directory paths s
      = ((Run.sequential load directory paths s).extractions,
        (Run.sequential load directory paths s).final) := rfl

/-! ## §5 What Is in the Files -/

section Batch

variable {σ : Type} [HasFiles σ] {load : String → StateM σ (Except DataError Dataset)}
  {directory : CnfDirectory} {paths : List Path} {start : σ}

/-- Every file that a question was saved in holds, at the end, the text of a question of the batch
with the same stations; if the digest tells the station sets of the batch apart, that is. -/
theorem Run.read_saved (r : Run load directory paths start) (hseparates : Sha1.Separates r.keys) :
    List.Forall₂ (fun path e => e.question = path ∧ ∀ file, e.outcome = .ok file →
      ∃ p x, r.Poses path p x ∧ file = directory.file p ∧
        (∃ text ∈ r.textsFor p, r.final.read file = .ok text) ∧
        (r.textsFor p ⊆ {formulaText p x} → r.final.read file = .ok (formulaText p x)))
      paths r.extractions := by
  refine r.holdsOne_saved.imp ?_
  rintro path e ⟨hpath, hquestion, hsaved⟩
  refine ⟨hquestion, fun file hfile => ?_⟩
  obtain ⟨p, x, hposes, rfl, ⟨p', x'⟩, ⟨path', hpath', hposes'⟩, hsame, hread⟩ := hsaved file hfile
  -- one file stands for one station set
  have hset : p'.stationSet = p.stationSet := by
    have hpair : Sha1.Separates {stationBytes p'.stations, stationBytes p.stations} := by
      apply hseparates.mono
      rintro text (rfl | rfl)
      · exact ⟨path', hpath', p', x', hposes', rfl⟩
      · exact ⟨path, hpath, p, x, hposes, rfl⟩
    exact (Problem.fileName_eq_iff hpair).1
      (CnfDirectory.location_file_inj (congrArg FileStore.location hsame))
  have htext : formulaText p' x' ∈ r.textsFor p := ⟨path', hpath', p', x', hposes', hset, rfl⟩
  refine ⟨p, x, hposes, rfl, ⟨_, htext, hread⟩, fun hall => ?_⟩
  have hown : formulaText p' x' = formulaText p x := hall htext
  rw [← hown]
  exact hread

end Batch

/-- Two questions on one station and different bands. -/
def twoBands : FileStore := ⟨SortedMap.ofList
  [(["low"], .file (.text "STATION_CONFIG,d\nBAND,LVHF\n1\n")),
    (["high"], .file (.text "STATION_CONFIG,d\nBAND,UHF\n1\n"))]⟩

/-- A loader of one dataset, in which the station may take a channel of either band. -/
def loadSingle (_ : String) : StateM FileStore (Except DataError Dataset) :=
  pure (.ok ⟨SortedMap.ofList [(1, SortedSet.ofList [2, 14])], Interference.none⟩)

/-- The run that saves the formula for the lower band first. -/
def twoBandsRun : Run loadSingle .cnfs [⟨"low"⟩, ⟨"high"⟩] twoBands :=
  .sequential loadSingle .cnfs [⟨"low"⟩, ⟨"high"⟩] twoBands

theorem separates_twoBands : Sha1.Separates twoBandsRun.keys := by
  have hstations : ∀ path ∈ [Path.mk "low", ⟨"high"⟩],
      (twoBandsRun.problem? path).map (·.1.stations) = some [1] := by decide +kernel
  have hkeys : twoBandsRun.keys ⊆ {stationBytes [1]} := by
    rintro _ ⟨path, hpath, p, x, hposes, rfl⟩
    have hpath' := hstations path hpath
    rw [Run.problem?_of_poses hposes, Option.map_some, Option.some_inj] at hpath'
    exact congrArg stationBytes hpath'
  exact Sha1.Separates.mono (Set.injOn_singleton _ _) hkeys

theorem outcome_twoBands :
    twoBandsRun.extractions.map Extraction.outcome
      = [.ok (CnfDirectory.cnfs.file (.lone 1 2)), .ok (CnfDirectory.cnfs.file (.lone 1 2))] := by
  decide +kernel

/-- Both questions are saved in one file, which holds the text of one of them. -/
theorem read_saved_twoBands :
    Sha1.Separates twoBandsRun.keys ∧
      List.Forall₂ (fun path e => e.question = path ∧ ∀ file, e.outcome = .ok file →
        ∃ p x, twoBandsRun.Poses path p x ∧ file = CnfDirectory.cnfs.file p ∧
          (∃ text ∈ twoBandsRun.textsFor p, twoBandsRun.final.read file = .ok text) ∧
          (twoBandsRun.textsFor p ⊆ {formulaText p x} →
            twoBandsRun.final.read file = .ok (formulaText p x)))
        [⟨"low"⟩, ⟨"high"⟩] twoBandsRun.extractions ∧
      twoBandsRun.extractions.map Extraction.outcome
        = [.ok (CnfDirectory.cnfs.file (.lone 1 2)), .ok (CnfDirectory.cnfs.file (.lone 1 2))] :=
  ⟨separates_twoBands, twoBandsRun.read_saved separates_twoBands, outcome_twoBands⟩

/-- The text of the question that was saved first is lost: its file does not hold its text. -/
theorem not_read_own_twoBands :
    Sha1.Separates twoBandsRun.keys ∧
      ¬ List.Forall₂ (fun path e => ∀ file, e.outcome = .ok file →
        ∃ p x, twoBandsRun.Poses path p x ∧ twoBandsRun.final.read file = .ok (formulaText p x))
        [⟨"low"⟩, ⟨"high"⟩] twoBandsRun.extractions := by
  refine ⟨separates_twoBands, ?_⟩
  have htext : (twoBandsRun.problem? ⟨"low"⟩).map (fun px => formulaText px.1 px.2)
      ≠ (twoBandsRun.final.read (CnfDirectory.cnfs.file (.lone 1 2))).toOption := by
    decide +kernel
  intro hall
  have houtcome := outcome_twoBands
  generalize twoBandsRun.extractions = extractions at hall houtcome
  cases hall with
  | cons hlow _ =>
    obtain ⟨p, x, hposes, hread⟩ := hlow _ (List.cons.inj houtcome).1
    rw [Run.problem?_of_poses hposes, hread] at htext
    exact htext rfl

end Extraction

end SpectrumPacking
