import SpectrumPacking.Encoding.CnfDirectory
import SpectrumPacking.Report.Outcome

/-!
# Extracting Formulas

Saves the formulas of many questions in one directory.  All questions are read first; then every
dataset that they name is loaded once, and then question after question is encoded and saved.  What
became of each question is reported on a line of its own, with the sizes of the encodings on demand.
-/

namespace SpectrumPacking

/-! ## §1 The Types -/

/-- Why a question yields no formula. -/
inductive ExtractionError where
  /-- The question cannot be read, or does not fit its dataset. -/
  | data (e : DataError)
  /-- The dataset with a key cannot be loaded. -/
  | dataset (key message : String)
  /-- The formula cannot be saved. -/
  | lookup (e : LookupError)
  deriving DecidableEq

/-- The wording of a fault. -/
def ExtractionError.message : ExtractionError → String
  | data e => e.message
  | dataset key message => "dataset " ++ key ++ " could not be loaded: " ++ message
  | lookup e => e.message

/-- What became of the question in a file. -/
structure Extraction where
  /-- The file of the question. -/
  question : Path
  /-- The file of the formula. -/
  outcome : Except ExtractionError Path
  /-- The size of the encoding, if the formula was saved. -/
  size : Option EncodingSize

namespace Extraction

/-- Whether a question yielded no formula. -/
def isFailed (e : Extraction) : Bool :=
  match e.outcome with
  | .ok _ => false
  | .error _ => true

/-- Datasets by key, with the message of the fault where there is none. -/
abbrev Datasets := SortedMap String (Except String Dataset)

variable {m : Type → Type} [Monad m]

/-! ## §2 One Question -/

/-- The problem of a question and the interference in its dataset. -/
def problemOf (datasets : Datasets) (q : Question) :
    Except ExtractionError (Problem × Interference) :=
  match datasets.get? q.dataset with
  | none => .error (.dataset q.dataset "not loaded")
  | some (.error message) => .error (.dataset q.dataset message)
  | some (.ok dataset) =>
    match q.problem dataset.domains with
    | .error e => .error (.data e)
    | .ok p => .ok (p, dataset.interference)

/-- Encodes a question and saves its formula. -/
def ofQuestion [FileAccess m] (directory : CnfDirectory) (datasets : Datasets) (path : Path) :
    Except DataError Question → m Extraction
  | .error e => return ⟨path, .error (.data e), none⟩
  | .ok q => do
    match problemOf datasets q with
    | .error e => return ⟨path, .error e, none⟩
    | .ok (p, x) =>
      let f := p.encode x
      match ← directory.save p f p.comments with
      | .error e => return ⟨path, .error (.lookup e), none⟩
      | .ok file => return ⟨path, .ok file, some (.ofFormula p f)⟩

/-! ## §3 Many Questions -/

/-- Loads the datasets with some keys, each once. -/
def loadAll (load : String → m (Except DataError Dataset)) (datasets : Datasets) :
    List String → m Datasets
  | [] => return datasets
  | key :: rest => do
    if datasets.contains key then loadAll load datasets rest
    else
      let dataset ← load key
      loadAll load (datasets.insert key (dataset.mapError DataError.message)) rest

/-- Reads the questions in some files. -/
def readAll [FileAccess m] : List Path → m (List (Path × Except DataError Question))
  | [] => return []
  | p :: rest => do
    let q ← Question.load p
    return (p, q) :: (← readAll rest)

/-- Encodes questions and saves their formulas. -/
def saveAll [FileAccess m] (directory : CnfDirectory) (datasets : Datasets) :
    List (Path × Except DataError Question) → m (List Extraction)
  | [] => return []
  | (path, q) :: rest => do
    let e ← ofQuestion directory datasets path q
    return e :: (← saveAll directory datasets rest)

/-- The keys of the datasets that questions name, in the order of the questions. -/
def keysOf (l : List (Path × Except DataError Question)) : List String :=
  l.filterMap fun e => e.2.toOption.map Question.dataset

/-- Saves the formulas of the questions in some files. -/
def extract [FileAccess m] (load : String → m (Except DataError Dataset))
    (directory : CnfDirectory) (paths : List Path) : m (List Extraction) := do
  let questions ← readAll paths
  let datasets ← loadAll load SortedMap.empty (keysOf questions)
  saveAll directory datasets questions

end Extraction

/-! ## §4 Reports -/

namespace Extraction

/-- What became of a question. -/
def report (t : Terminal) (verbose : Bool) (e : Extraction) : String :=
  let name := e.question.fileName?.getD ""
  match e.outcome with
  | .error fault => t.paint .red (name ++ ": " ++ fault.message ++ "\n")
  | .ok file =>
    name ++ " -> " ++ file.text ++ "\n" ++
      match e.size with
      | some size => if verbose then size.report else ""
      | none => ""

/-- What became of many questions. -/
def reportAll (t : Terminal) (verbose : Bool) (l : List Extraction) : String :=
  String.join (l.map (report t verbose))

end Extraction

end SpectrumPacking
