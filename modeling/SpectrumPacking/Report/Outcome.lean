import SpectrumPacking.Json.Reader
import SpectrumPacking.Service.Request

/-!
# Reports of Outcomes

A result is written as an object with the runtime in seconds and the packing by channel.  The answer
to a request is a text with a table of stations, an object as well, or one line for a terminal, in
color unless the environment says that colors are not wanted or not understood.
-/

namespace SpectrumPacking

open Text

/-! ## §1 Colored Text -/

/-- What the environment says about the terminal. -/
structure Terminal where
  /-- The wish for no color, in whatever words. -/
  noColor : Option String
  /-- The kind of the terminal. -/
  kind : Option String
  deriving DecidableEq, Repr

/-- Whether to color text. -/
def Terminal.isColored (t : Terminal) : Bool := t.noColor.isNone && t.kind != some "dumb"

/-- The colors in use. -/
inductive Color where
  /-- For failures. -/
  | red
  /-- For success. -/
  | green
  /-- For warnings. -/
  | yellow
  /-- For remarks. -/
  | blue
  deriving DecidableEq, Repr

/-- The number of a color among the foreground colors of terminals. -/
def Color.code : Color → Nat
  | red => 31
  | green => 32
  | yellow => 33
  | blue => 34

/-- A text in a color, if the terminal is to show any. -/
def Terminal.paint (t : Terminal) (color : Color) (text : String) : String :=
  if t.isColored then "\x1b[" ++ toString color.code ++ "m" ++ text ++ "\x1b[0m" else text

/-! ## §2 Results as JSON -/

/-- The JSON value of a verdict. -/
def Verdict.toJson (v : Verdict) : Json := .ofText v.name.toList

/-- Reads a verdict, given by its name or as an object with its name as only key. -/
def Verdict.ofJson? : Json → Option Verdict
  | .string s => (Json.decodeString? s).bind fun t => Verdict.ofName? (String.ofList t)
  | .object [(k, .null)] => (Json.decodeString? k).bind fun t => Verdict.ofName? (String.ofList t)
  | _ => none

/-- Reads the number of a station. -/
def StationId.ofJson? (j : Json) : Option StationId :=
  (j.intWhere? fun i => 0 ≤ i && i < 2 ^ 32).map Int.toNat

/-- Reads a channel. -/
def Channel.ofJson? (j : Json) : Option Channel := j.intWhere? (Numeral.fitsSigned 32)

/-- Reads the number of a station from a key. -/
def StationId.ofKey? (k : List Char) : Option StationId :=
  (Json.keyWhere? (fun i => 0 ≤ i && i < 2 ^ 32) k).map Int.toNat

/-- Reads a channel from a key. -/
def Channel.ofKey? (k : List Char) : Option Channel := Json.keyWhere? (Numeral.fitsSigned 32) k

namespace Assignment

/-- The JSON value of an assignment. -/
def toJson (a : Assignment) : Json :=
  .object (a.toList.map fun e =>
    (Numeral.ofInt e.1, .array (e.2.toList.map fun (s : Nat) => Json.ofInt s)))

/-- Reads an assignment; of several entries for one channel the last counts. -/
def ofJson? (j : Json) : Option Assignment :=
  (j.allMembers? Channel.ofKey? fun v =>
    (v.allItems? StationId.ofJson?).map SortedSet.ofList).map SortedMap.ofList

end Assignment

namespace Duration

/-- The JSON value of a duration, in seconds. -/
def toJson (d : Duration) : Json := .ofBinary64 d.toBinary64

/-- Reads a duration in seconds. -/
def ofJson? (j : Json) : Option Duration := j.float?.bind Duration.ofBinary64?

end Duration

namespace SolveResult

/-- The JSON value of a result; a missing justification is left out. -/
def toJson (r : SolveResult) : Json :=
  .object
    ([("result".toList, r.verdict.toJson), ("runtime_seconds".toList, r.runtime.toJson),
      ("assignment".toList, r.assignment.toJson)] ++
      match r.justification with
      | some why => [("justification".toList, .ofText why.toList)]
      | none => [])

/-- Reads the justification of a result, which may be missing or `null`. -/
def justificationOfJson? : Option Json → Option (Option String)
  | none => some none
  | some .null => some none
  | some j => j.text?.map fun t => some (String.ofList t)

/-- Reads a result. -/
def ofJson? (j : Json) : Option SolveResult :=
  match j.fields? ["result", "runtime_seconds", "assignment", "justification"] with
  | some [some verdict, some runtime, some assignment, justification] =>
    match Verdict.ofJson? verdict, Duration.ofJson? runtime, Assignment.ofJson? assignment,
      justificationOfJson? justification with
    | some v, some d, some a, some why =>
      some { SolveResult.bare v d with assignment := a, justification := why }
    | _, _, _, _ => none
  | _ => none

end SolveResult

/-- The forms that a report can take. -/
inductive ReportFormat where
  /-- A text with a table. -/
  | text
  | json
  deriving DecidableEq, Repr

namespace ReportFormat

/-- The name of a form. -/
def name : ReportFormat → String
  | text => "text"
  | json => "json"

/-- The form with a name. -/
def ofName? (t : String) : Option ReportFormat := [text, json].find? fun f => f.name == t

/-- What the names of files with a report end with. -/
def fileEnding : ReportFormat → String
  | text => ".txt"
  | json => ".json"

end ReportFormat

namespace Placement

/-- The JSON value of a placement. -/
def toJson (p : Placement) : Json :=
  .object (p.toList.map fun e => (Text.Numeral.ofNat e.1, Json.ofInt e.2))

/-- Reads a placement; of several entries for one station the last counts. -/
def ofJson? (j : Json) : Option Placement :=
  (j.allMembers? StationId.ofKey? Channel.ofJson?).map SortedMap.ofList

end Placement

namespace Outcome

/-! ## §3 Outcomes as Texts -/

/-- One line of the table of stations. -/
def tableLine (s : StationId) (c : Channel) : String :=
  let number := toString s
  number ++ String.ofList (List.replicate (8 - number.length) ' ') ++ " | " ++ toString c ++ "\n"

/-- The table of the stations that were packed; without any there is none. -/
def table (o : Outcome) : String :=
  if o.witness.isEmpty then ""
  else
    "Stations packed: " ++ toString o.witness.size ++ "\nStation  | Channel\n" ++
      "---------|--------\n" ++
      String.join (o.witness.toList.map fun e => tableLine e.1 e.2)

/-- The time that an outcome took. -/
def timeText (o : Outcome) : String := String.ofList (Decimal.threePlaces o.seconds) ++ "s"

/-- An outcome as text. -/
def text (o : Outcome) : String :=
  "Result: " ++ o.verdict.name ++ "\nRuntime: " ++ o.timeText ++ "\n" ++ o.table

/-- The color of a verdict. -/
def color (o : Outcome) : Color :=
  match o.verdict with
  | .sat => .green
  | .unsat => .yellow
  | .timeout => .red
  | .crashed => .red

/-- An outcome as one line for a terminal. -/
def headline (t : Terminal) (o : Outcome) : String :=
  t.paint o.color (o.verdict.name ++ " in " ++ o.timeText)

/-! ## §4 Outcomes as JSON -/

/-- The JSON value of an outcome. -/
def toJson (o : Outcome) : Json :=
  .object [("result".toList, o.verdict.toJson), ("runtime_seconds".toList, .ofBinary64 o.seconds),
    ("witness".toList, o.witness.toJson)]

/-- Reads an outcome. -/
def ofJson? (j : Json) : Option Outcome :=
  match j.fields? ["result", "runtime_seconds", "witness"] with
  | some [some verdict, some seconds, some witness] =>
    match Verdict.ofJson? verdict, seconds.float?, Placement.ofJson? witness with
    | some v, some x, some w => some ⟨v, x, w⟩
    | _, _, _ => none
  | _ => none

/-! ## §5 Reports -/

/-- The report of an outcome. -/
def report (o : Outcome) : ReportFormat → String
  | .text => o.text
  | .json => String.ofList (o.toJson.pretty 0)

/-- Writes the report of an outcome into a directory, under a name. -/
def save {m : Type → Type} [Monad m] [FileAccess m] (o : Outcome) (directory : Path)
    (name : String) (format : ReportFormat) : m (Except FileFault Unit) := do
  match ← FileAccess.makeDirectories directory with
  | .error e => return .error e
  | .ok () => FileAccess.write (directory.join ⟨name ++ format.fileEnding⟩) (o.report format)

end Outcome

end SpectrumPacking
