import SpectrumPacking.Command.Run

/-!
# The Program

The commands at work on the files of the machine.  Engines and caches live as long as the program
runs; their clock is set forward to the clock of the machine before each use.
-/

namespace SpectrumPacking

/-! ## §1 Files of the Machine -/

/-- What a fault of the machine means for files. -/
def FileFault.ofError : IO.Error → FileFault
  | .noFileOrDirectory .. => .missing
  | .alreadyExists .. => .occupied
  | .inappropriateType _ code details =>
    if code = 20 then .notDirectory else if code = 21 then .isDirectory else .described details
  | .invalidArgument _ code details => if code = 36 then .nameTooLong else .described details
  | e => .described (toString e)

/-- A program at work: the world of its solvers, and the machine. -/
abbrev ProgramM := StateT (World CompleteEngine) IO

namespace ProgramM

/-- The result of an action, or its fault. -/
def attempt {α : Type} (action : IO α) : ProgramM (Except FileFault α) := do
  match ← (action.toBaseIO : BaseIO _) with
  | .ok a => return .ok a
  | .error e => return .error (.ofError e)

/-- The kind of what the machine has at a path. -/
def kind? (p : Path) : ProgramM (Option FileKind) := do
  match ← attempt (System.mkFilePath [p.text]).metadata with
  | .error _ => return none
  | .ok found => return some (if found.type == .dir then .directory else .file)

/-- Reads a file of the machine as text. -/
def read (p : Path) : ProgramM (Except FileFault String) := do
  if (← kind? p) == some .directory then return .error .isDirectory
  match ← attempt (IO.FS.readBinFile p.text) with
  | .error e => return .error e
  | .ok bytes =>
    match FileContent.ofBytes bytes with
    | .text t => return .ok t
    | .binary _ => return .error .notText

/-- The names in a directory of the machine. -/
def names (p : Path) : ProgramM (Except FileFault (List String)) := do
  let entries ← attempt (System.mkFilePath [p.text]).readDir
  return entries.map fun l => l.toList.map (·.fileName)

instance : FileAccess ProgramM where
  kind? := kind?
  read := read
  write p t := attempt (IO.FS.writeFile p.text t)
  makeDirectories p := attempt (IO.FS.createDirAll p.text)
  names := names

instance : SolverMonad (World CompleteEngine) ProgramM where
  within f := do
    let time ← IO.monoNanosNow
    modifyGet fun w => f (w.later (⟨time⟩ - w.clock.wall))

end ProgramM

/-! ## §2 The Terminal -/

/-- What the environment says about the terminal. -/
def Terminal.ofEnvironment : IO Terminal := do
  return ⟨← IO.getEnv "NO_COLOR", ← IO.getEnv "TERM"⟩

/-- Shows what a run leaves behind. -/
def Command.Ending.show (e : Command.Ending) : IO Unit := do
  e.transcript.remarks.forM (IO.eprintln ·)
  IO.print e.transcript.output
  match e.failure with
  | some f => IO.eprint f.report
  | none => return

/-- Runs the command that arguments ask for, and returns the exit code. -/
def Command.perform (arguments : List String) : IO UInt32 := do
  let terminal ← Terminal.ofEnvironment
  let (ending, _) ← (runArguments terminal arguments : ProgramM Ending).run {}
  ending.show
  return ending.code.toUInt32

end SpectrumPacking

/-- The program. -/
def main (arguments : List String) : IO UInt32 := SpectrumPacking.Command.perform arguments
