import SpectrumPacking.Settings.Basic

/-!
# Command Line Arguments

The arguments name a command, its operands and its options.  An option with a value has it in the
next argument, behind an equals sign, or, for a short option, directly behind its letter.  Short
options without values can stand together.  Two dashes end the options.
-/

namespace SpectrumPacking

/-- What a user can ask for. -/
inductive Command where
  /-- Answer the question in a file, and keep the report in a directory. -/
  | solve (question config : Path) (overrides : Settings.Overrides) (output : Option Path)
  /-- Save the formulas of questions. -/
  | encode (questions config : Path) (overrides : Settings.Overrides)
  /-- Check the output of a solver against a question. -/
  | decode (question solution config : Path) (overrides : Settings.Overrides)
  /-- Create example files. -/
  | setup (directory : Path) (force : Bool)

namespace Command

/-- What arguments come to when they do not ask for a command to be run. -/
inductive Refusal where
  /-- They ask for help. -/
  | help
  /-- They ask for the version. -/
  | version
  /-- They are not understood. -/
  | misuse
  deriving DecidableEq, Repr

/-! ## §1 Options -/

/-- What an option takes. -/
inductive OptionKind where
  /-- Nothing. -/
  | flag
  /-- A value that passes a test. -/
  | valued (accepts : String → Bool)

/-- An option of a command. -/
structure OptionSpec where
  /-- The word behind two dashes. -/
  word : String
  /-- The letter behind one dash, if there is one. -/
  letter : Option Char
  /-- What the option takes. -/
  kind : OptionKind

/-- The form of a command. -/
structure Grammar where
  /-- The number of operands. -/
  operands : Nat
  options : List OptionSpec

/-- Whether a text can be a path. -/
def isPath (t : String) : Bool := t != ""

/-- Reads a seed. -/
def seedOf? (t : String) : Option Nat := Text.Numeral.natWithin? 64 t.toList

/-- Reads a number of seconds. -/
def secondsOf? (t : String) : Option Binary64 := Binary64.ofText? t.toList

/-- An option with a path, whose letter is the first one of its word. -/
def pathOption (word : String) : OptionSpec := ⟨word, word.toList.head?, .valued isPath⟩

/-- An option without a value, whose letter is the first one of its word. -/
def flagOption (word : String) : OptionSpec := ⟨word, word.toList.head?, .flag⟩

/-! ## §2 Reading -/

/-- Operands and options, as far as they have been read. -/
structure Given where
  /-- The operands, in order. -/
  operands : List String := []
  /-- The options by their words, with their values. -/
  options : List (String × String) := []

namespace Given

/-- Takes an operand, if the command has room for it. -/
def addOperand (g : Given) (grammar : Grammar) (t : String) : Except Refusal Given :=
  if isPath t ∧ g.operands.length < grammar.operands then
    .ok { g with operands := g.operands ++ [t] }
  else .error .misuse

/-- Takes an option, which may be given once. -/
def addOption (g : Given) (word value : String) : Except Refusal Given :=
  if (g.options.lookup word).isSome then .error .misuse
  else .ok { g with options := g.options ++ [(word, value)] }

/-- Takes an option with a value. -/
def addValue (g : Given) (word : String) (accepts : String → Bool) (value : String) :
    Except Refusal Given :=
  if accepts value then g.addOption word value else .error .misuse

/-- Whether an option was given. -/
def has (g : Given) (word : String) : Bool := (g.options.lookup word).isSome

/-- The path that was given for an option. -/
def path? (g : Given) (word : String) : Option Path := (g.options.lookup word).map Path.mk

end Given

/-- An option that waits for its value. -/
abbrev Pending := Option (String × (String → Bool))

/-- Reads what follows one dash. -/
def readLetters (grammar : Grammar) (g : Given) : List Char → Except Refusal (Given × Pending)
  | [] => .ok (g, none)
  | c :: rest =>
    match grammar.options.find? fun spec => spec.letter == some c with
    | none => .error (if c = 'h' then .help else .misuse)
    | some ⟨word, _, .flag⟩ => (g.addOption word "").bind fun g => readLetters grammar g rest
    | some ⟨word, _, .valued accepts⟩ =>
      match rest with
      | [] => .ok (g, some (word, accepts))
      | '=' :: value => (g.addValue word accepts (String.ofList value)).map fun g => (g, none)
      | value => (g.addValue word accepts (String.ofList value)).map fun g => (g, none)

/-- Reads what follows two dashes. -/
def readWord (grammar : Grammar) (g : Given) (t : List Char) : Except Refusal (Given × Pending) :=
  let word := String.ofList (t.takeWhile (· != '='))
  match grammar.options.find? (fun spec => spec.word == word), t.dropWhile (· != '=') with
  | none, [] => .error (if word = "help" then .help else .misuse)
  | none, _ :: _ => .error .misuse
  | some ⟨_, _, .flag⟩, [] => (g.addOption word "").map fun g => (g, none)
  | some ⟨_, _, .flag⟩, _ :: _ => .error .misuse
  | some ⟨_, _, .valued accepts⟩, [] => .ok (g, some (word, accepts))
  | some ⟨_, _, .valued accepts⟩, _ :: value =>
    (g.addValue word accepts (String.ofList value)).map fun g => (g, none)

/-- Reads the arguments of a command. -/
def readAll (grammar : Grammar) : Given → Pending → List String → Except Refusal Given
  | g, none, [] => .ok g
  | _, some _, [] => .error .misuse
  | g, some (word, accepts), t :: rest =>
    match t.toList with
    | '-' :: _ :: _ => .error .misuse
    | _ => (g.addValue word accepts t).bind fun g => readAll grammar g none rest
  | g, none, t :: rest =>
    match t.toList with
    | ['-', '-'] => rest.foldlM (fun g t => g.addOperand grammar t) g
    | '-' :: '-' :: word =>
      (readWord grammar g word).bind fun (g, pending) => readAll grammar g pending rest
    | '-' :: c :: letters =>
      (readLetters grammar g (c :: letters)).bind fun (g, pending) =>
        readAll grammar g pending rest
    | _ => (g.addOperand grammar t).bind fun g => readAll grammar g none rest

/-! ## §3 Commands -/

/-- The form of `solve`. -/
def solveGrammar : Grammar where
  operands := 1
  options := [pathOption "config",
    ⟨"cutoff", none, .valued fun t => (secondsOf? t).isSome⟩,
    ⟨"seed", some 's', .valued fun t => (seedOf? t).isSome⟩,
    pathOption "data",
    ⟨"format", some 'f', .valued fun t => (ReportFormat.ofName? t).isSome⟩,
    pathOption "output", ⟨"no-presolve", none, .flag⟩, flagOption "verbose"]

/-- The form of `encode`. -/
def encodeGrammar : Grammar where
  operands := 1
  options := [pathOption "config", pathOption "data", pathOption "output", flagOption "verbose"]

/-- The form of `decode`. -/
def decodeGrammar : Grammar := ⟨2, [pathOption "config", pathOption "data"]⟩

/-- The form of `setup`. -/
def setupGrammar : Grammar := ⟨0, [pathOption "directory", flagOption "force"]⟩

/-- The file of settings that is used unless another one is given. -/
def defaultConfig : Path := ⟨"config/default.yaml"⟩

/-- The file of settings. -/
def configOf (g : Given) : Path := (g.path? "config").getD defaultConfig

/-- What `solve` puts in the place of settings. -/
def solveOverrides (g : Given) : Settings.Overrides where
  cutoffSeconds := (g.options.lookup "cutoff").bind secondsOf?
  seed := (g.options.lookup "seed").bind seedOf?
  dataRoot := g.path? "data"
  format := (g.options.lookup "format").bind ReportFormat.ofName?
  noPresolve := g.has "no-presolve"
  verbose := g.has "verbose"

/-- What `encode` puts in the place of settings. -/
def encodeOverrides (g : Given) : Settings.Overrides where
  dataRoot := g.path? "data"
  cnfDirectory := g.path? "output"
  verbose := g.has "verbose"

/-- The commands with their forms, and how operands and options make one. -/
def builders : List (String × Grammar × (Given → Option Command)) := [
  ("solve", solveGrammar, fun g =>
    match g.operands with
    | [question] => some (.solve ⟨question⟩ (configOf g) (solveOverrides g) (g.path? "output"))
    | _ => none),
  ("encode", encodeGrammar, fun g =>
    match g.operands with
    | [questions] => some (.encode ⟨questions⟩ (configOf g) (encodeOverrides g))
    | _ => none),
  ("decode", decodeGrammar, fun g =>
    match g.operands with
    | [question, solution] =>
      some (.decode ⟨question⟩ ⟨solution⟩ (configOf g) { dataRoot := g.path? "data" })
    | _ => none),
  ("setup", setupGrammar, fun g =>
    some (.setup ((g.path? "directory").getD ⟨"."⟩) (g.has "force")))]

/-- What arguments come to that do not start with the name of a command. -/
def refusalOf (t : String) (rest : List String) : Refusal :=
  match t.toList with
  | ['-', '-', 'h', 'e', 'l', 'p'] => .help
  | ['-', '-', 'v', 'e', 'r', 's', 'i', 'o', 'n'] => .version
  | '-' :: 'h' :: _ => .help
  | '-' :: 'V' :: _ => .version
  | _ =>
    if t = "help" ∧ rest.length ≤ 1 ∧
        rest.all (fun name => name = "help" ∨ (builders.lookup name).isSome) then .help
    else .misuse

/-- Reads a command from the arguments. -/
def ofArguments : List String → Except Refusal Command
  | [] => .error .misuse
  | t :: rest =>
    match builders.lookup t with
    | none => .error (refusalOf t rest)
    | some (grammar, build) =>
      (readAll grammar {} none rest).bind fun g =>
        match build g with
        | some c => .ok c
        | none => .error .misuse

end Command

end SpectrumPacking
