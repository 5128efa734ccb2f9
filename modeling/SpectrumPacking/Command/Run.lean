import SpectrumPacking.Command.Arguments
import SpectrumPacking.Service.Extraction
import SpectrumPacking.Settings.File

/-!
# Running Commands

A command writes text to its output and remarks beside it, and ends well or with a failure.
-/

namespace SpectrumPacking.Command

/-! ## §1 Failures and Transcripts -/

/-- Why a command failed: what could not be done, and what caused that. -/
structure Failure where
  /-- What could not be done. -/
  message : String
  /-- The causes, each one of the one before. -/
  causes : List String := []
  deriving DecidableEq, Repr

namespace Failure

/-- Puts a mark in front of the first line of a text and blanks in front of the others. -/
def indented (mark blanks text : String) : String :=
  mark ++ ("\n" ++ blanks).intercalate ((Text.splitAtChar '\n' text.toList).map String.ofList)

/-- The mark of a numbered cause, five places wide. -/
def numberMark (n : Nat) : String :=
  let number := toString n
  String.ofList (List.replicate (5 - number.length) ' ') ++ number ++ ": "

/-- The causes as text, each on a line of its own; several are numbered. -/
def causesText : List String → String
  | [] => ""
  | [cause] => "\n\nCaused by:\n" ++ indented "    " "    " cause
  | causes =>
    "\n\nCaused by:" ++ String.join (causes.mapIdx fun n cause =>
      "\n" ++ indented (numberMark n) "       " cause)

/-- The report of a failure. -/
def report (f : Failure) : String := "Error: " ++ f.message ++ causesText f.causes ++ "\n"

end Failure

/-- What a command writes. -/
structure Transcript where
  output : String := ""
  /-- The remarks, one a line. -/
  remarks : List String := []

/-- A command at work. -/
abbrev Script (m : Type → Type) := ExceptT Failure (StateT Transcript m)

namespace Script

variable {m : Type → Type} [Monad m]

/-- Does something outside the transcript. -/
def perform {α : Type} (x : m α) : Script m α := liftM x

/-- Writes to the output. -/
def print (t : String) : Script m Unit :=
  modify fun s => { s with output := s.output ++ t }

/-- Makes a remark. -/
def remark (t : String) : Script m Unit :=
  modify fun s => { s with remarks := s.remarks ++ [t] }

/-- Fails with a message in front of a chain of causes. -/
def fail {α : Type} (message : String) (causes : List String) : Script m α :=
  throw ⟨message, causes⟩

/-- The value of an attempt; a fault becomes a failure with a message. -/
def expect {ε α : Type} (message : String) (chain : ε → List String) :
    Except ε α → Script m α
  | .ok a => pure a
  | .error e => fail message (chain e)

end Script

open Script

section Commands

variable {m : Type → Type} [Monad m] [FileAccess m]

/-! ## §2 Settings and Questions -/

/-- The settings in a file, or the standard ones if there is no such file, with overrides. -/
def loadSettings (t : Terminal) (config : Path) (o : Settings.Overrides) : Script m Settings := do
  let settings ←
    if (← perform (FileAccess.kind? config)).isSome then
      expect ("Failed to load config from " ++ config.text) Settings.FileError.chain
        (← perform (Settings.load config))
    else do
      remark (t.paint .yellow ("Config file " ++ config.text ++ " not found, using defaults"))
      pure {}
  let settings := settings.override o
  expect "Configuration validation failed" (fun e => [e.message]) settings.validate
  return settings

/-- The question in a file. -/
def loadQuestion (p : Path) : Script m Question := do
  expect ("Failed to read question " ++ p.text) DataError.chain (← perform (Question.load p))

/-! ## §3 Solving -/

section Solve

variable {σ : Type} [Timed σ] [Host σ] [SolverMonad σ m]

/-- Answers a question under settings. -/
def answerQuestion (settings : Settings) (q : Question) : m (Except RequestError Outcome) := do
  let source := settings.bundleSource (Dataset.load (some settings.dataRoot))
  let request := Request.ofQuestion q settings.cutoff settings.seed
  let (outcome, g) ← request.answer source Manager.empty
  let _ ← g.shutdown source
  return outcome

/-- Answers a question under settings, in a script. -/
def solveQuestion (settings : Settings) (q : Question) : Script m Outcome := do
  expect "Failed to solve question" RequestError.chain (← perform (answerQuestion settings q))

/-- Answers the question in a file under settings. -/
def solveQuestionFile (settings : Settings) (p : Path) : Script m Outcome := do
  let q ← loadQuestion p
  solveQuestion settings q

/-- Reads the wall clock. -/
def now : Script m Duration := perform (SolverMonad.within Timed.now)

/-- Answers the question in a file and reports the outcome. -/
def runSolve (t : Terminal) (question config : Path) (o : Settings.Overrides)
    (output : Option Path) : Script m Unit := do
  let settings ← loadSettings t config o
  let q ← loadQuestion question
  let start ← now
  let outcome ← solveQuestion settings q
  remark (outcome.headline t)
  if o.verbose then
    let time := ((← now) - start).toBinary64
    remark ("Total time including setup: " ++ String.ofList (Decimal.threePlaces time) ++ "s")
  print (outcome.report settings.format ++ "\n")
  match output with
  | none => return
  | some directory =>
    let name := question.stem?.getD "result"
    expect "Failed to save result" (fun e => [e.message])
      (← perform (outcome.save directory name settings.format))

end Solve

/-! ## §4 Encoding -/

/-- Saves the formulas of the questions at a path. -/
def runEncode (t : Terminal) (questions config : Path) (o : Settings.Overrides) :
    Script m Unit := do
  let settings ← loadSettings t config o
  let files ← expect ("Failed to list questions in " ++ questions.text) (fun e => [e.message])
    (← perform (questionFiles questions))
  if files.isEmpty then
    remark (t.paint .yellow "No question files found")
    return
  let extractions ← perform
    (Extraction.extract (Dataset.load (some settings.dataRoot)) ⟨settings.cnfDirectory⟩ files)
  print (Extraction.reportAll t o.verbose extractions)
  let failed := (extractions.filter Extraction.isFailed).length
  if 0 < failed then
    fail s!"{failed} of {extractions.length} questions could not be encoded" []

/-! ## §5 Decoding -/

/-- Reads the text of a file. -/
def loadText (p : Path) : Script m String := do
  expect ("Failed to read " ++ p.text) (fun e => [e.message]) (← perform (FileAccess.read p))

/-- Fails with the chain of a fault in the data. -/
def expectData {α : Type} : Except DataError α → Script m α
  | .ok a => pure a
  | .error e => fail e.message e.chain.tail

/-- Checks the output of a solver against the question in a file. -/
def runDecode (t : Terminal) (question solution config : Path) (o : Settings.Overrides) :
    Script m Unit := do
  let settings ← loadSettings t config o
  let q ← loadQuestion question
  let dataset ← expect ("Failed to load dataset " ++ q.dataset) DataError.chain
    (← perform (Dataset.load (some settings.dataRoot) q.dataset))
  let p ← expectData (q.problem dataset.domains)
  let text ← loadText solution
  let literals ← expect "Malformed solver output" (fun e => [e.message])
    (modelOfReport text.toList)
  let a ← expect "Model does not decode" (fun e => [e.message]) (p.decode literals)
  print (String.join (a.placement.toList.map fun e => toString e.1 ++ "," ++ toString e.2 ++ "\n"))
  if dataset.interference.isSatisfiedBy a then
    remark (t.paint .green "Assignment is interference free")
  else fail "Assignment violates interference constraints" []

/-! ## §6 Setting Up -/

/-- The example files below a directory, with their texts. -/
def exampleFiles (directory : Path) : List (Path × String) :=
  let dataset := (directory.join ⟨"data"⟩).join ⟨"example"⟩
  [((directory.join ⟨"config"⟩).join ⟨"default.yaml"⟩,
      String.ofList (Settings.toYaml {}).toText),
    (dataset.join Dataset.domainFile,
      "DOMAIN,1,14,15,16\nDOMAIN,2,14,15,16\nDOMAIN,3,15,16\nDOMAIN,4,16\n"),
    (dataset.join Dataset.interferenceFile, "CO,1,2,3\nCO,2,3\nADJ+1,3,4\n"),
    ((directory.join ⟨"questions"⟩).join ⟨"example.txt"⟩,
      "STATION_CONFIG,example\nBAND,UHF\nHIGHEST,16\n1,14\n2,15\n3,16\n4\n")]

/-- The directories of the example files. -/
def exampleDirectories (directory : Path) : List Path :=
  [directory.join ⟨"config"⟩, (directory.join ⟨"data"⟩).join ⟨"example"⟩,
    directory.join ⟨"questions"⟩]

/-- Makes a directory. -/
def provide (p : Path) : Script m Unit := do
  expect ("Failed to create directory " ++ p.text) (fun e => [e.message])
    (← perform (FileAccess.makeDirectories p))

/-- Creates a file, unless there is something at its path that is to be kept. -/
def createFile (force : Bool) (p : Path) (text : String) : Script m Unit := do
  if (← perform (FileAccess.kind? p)).isSome && !force then
    print ("Skipped: " ++ p.text ++ " (already exists)\n")
  else
    expect ("Failed to write " ++ p.text) (fun e => [e.message])
      (← perform (FileAccess.write p text))
    print ("Created: " ++ p.text ++ "\n")

/-- Creates example files below a directory. -/
def runSetup (t : Terminal) (directory : Path) (force : Bool) : Script m Unit := do
  print (t.paint .blue "Setting up project structure..." ++ "\n")
  (exampleDirectories directory).forM provide
  (exampleFiles directory).forM fun e => createFile force e.1 e.2
  print ("\n" ++ t.paint .green "Setup complete!" ++ "\n")
  print ("\nNext steps:\n1. Edit " ++
    ((directory.join ⟨"config"⟩).join ⟨"default.yaml"⟩).text ++
    "\n2. Run: station_packing solve questions/example.txt\n")

end Commands

/-! ## §7 Commands -/

variable {m : Type → Type} [Monad m] [FileAccess m]
  {σ : Type} [Timed σ] [Host σ] [SolverMonad σ m]

/-- The script of a command. -/
def script (t : Terminal) : Command → Script m Unit
  | solve question config o output => runSolve t question config o output
  | encode questions config o => runEncode t questions config o
  | decode question solution config o => runDecode t question solution config o
  | setup directory force => runSetup t directory force

/-- What a run leaves behind: the exit code, the output, the remarks and the failure. -/
structure Ending where
  /-- Zero if all went well, one after a failure, and two if the arguments were not understood. -/
  code : Nat
  /-- What was written, apart from the report of a failure. -/
  transcript : Transcript := {}
  /-- The failure, if there was one. -/
  failure : Option Failure := none

/-- Runs a command. -/
def run (t : Terminal) (c : Command) : m Ending := do
  match ← ((script t c).run.run {}) with
  | (.ok (), transcript) => return ⟨0, transcript, none⟩
  | (.error f, transcript) => return ⟨1, transcript, some f⟩

/-- How to use the program. -/
def usage : String :=
  "Usage: station_packing <COMMAND>\n\nCommands:\n" ++
  "  solve   Solve a station packing question\n" ++
  "  encode  Write the CNF of question files, named by the SHA-1 of their station set\n" ++
  "  decode  Check an external solver's output against a question\n" ++
  "  setup   Create example configuration, dataset and question files\n"

/-- What is left behind when the arguments ask for no command. -/
def Refusal.ending : Refusal → Ending
  | help => ⟨0, ⟨usage, []⟩, none⟩
  | version => ⟨0, ⟨"station_packing 0.1.0\n", []⟩, none⟩
  | misuse => ⟨2, ⟨"", [usage]⟩, none⟩

/-- Runs the command that arguments ask for. -/
def runArguments (t : Terminal) (arguments : List String) : m Ending :=
  match ofArguments arguments with
  | .ok c => c.run t
  | .error e => pure e.ending

end SpectrumPacking.Command
