import SpectrumPacking.Encoding.Encode

/-!
# Decoding Models

A model is given as a list of literals.  It is read as an assignment when it names every variable of
the encoding once and puts every station on one channel of its domain.

The report of a search tool holds its model behind the word `v`: literals, which may be spread over
several lines that start with `v` again, and a closing `0`.
-/

namespace SpectrumPacking

open Text

/-! ## §1 Faults -/

/-- Why literals do not amount to an assignment. -/
inductive DecodeError where
  /-- The number of literals is not that of the variables. -/
  | literalCount (found expected : Nat)
  /-- A variable occurs twice. -/
  | duplicateVariable (x : Literal)
  /-- A literal names no variable of the encoding. -/
  | invalidLiteral (x : Literal)
  /-- A station stands on no channel. -/
  | unassigned (s : StationId)
  /-- A station stands on two channels. -/
  | multipleChannels (s : StationId) (first second : Channel)
  /-- A station stands on a channel that is not open to it. -/
  | outOfDomain (s : StationId) (c : Channel)
  deriving DecidableEq, Repr

/-- The wording of a fault. -/
def DecodeError.message : DecodeError → String
  | literalCount found expected =>
    s!"assignment holds {found} literals but encoding the instance requires {expected}"
  | duplicateVariable x => s!"variable {x} assigned multiple truth values"
  | invalidLiteral x => s!"literal {x} is not a variable of the encoding"
  | unassigned s => s!"station {s} not assigned to a channel"
  | multipleChannels s first second =>
    s!"station {s} assigned to multiple channels ({first} and {second})"
  | outOfDomain s c => s!"station {s} assigned channel {c}, which is not in its domain"

/-! ## §2 Reading Literals -/

/-- Collects the sign of each variable, until a literal names no variable up to `bound` or one
that has a sign already. -/
def signs (bound : Nat) (seen : SortedMap Nat Bool) :
    List Literal → Except DecodeError (SortedMap Nat Bool)
  | [] => .ok seen
  | x :: rest =>
    if x = 0 ∨ bound < x.natAbs then .error (.invalidLiteral x)
    else if seen.contains x.natAbs then .error (.duplicateVariable x.natAbs)
    else signs bound (seen.insert x.natAbs (decide (0 < x))) rest

namespace Problem

/-- The channels whose variable is true for a station. -/
def trueChannels (n : Numbering) (values : SortedMap Nat Bool) (s : StationId) : List Channel :=
  n.channels.toList.filter fun c =>
    match n.literal? s c with
    | some x => decide (0 < x) && values.get? x.toNat == some true
    | none => false

/-- The one channel of a station, which has to lie in its domain. -/
def channelOf (s : StationId) (domain : SortedSet Channel) :
    List Channel → Except DecodeError Channel
  | [] => .error (.unassigned s)
  | [c] => if domain.contains c then .ok c else .error (.outOfDomain s c)
  | c :: d :: _ => .error (.multipleChannels s c d)

/-- Puts the stations of an entry list on their channels one after another. -/
def place (n : Numbering) (values : SortedMap Nat Bool) (a : Assignment) :
    List (StationId × SortedSet Channel) → Except DecodeError Assignment
  | [] => .ok a
  | (s, domain) :: rest =>
    match channelOf s domain (trueChannels n values s) with
    | .error e => .error e
    | .ok c => place n values (a.put s c) rest

/-- The assignment that a list of literals describes. -/
def decode (p : Problem) (literals : List Literal) : Except DecodeError Assignment :=
  let n := Numbering.ofProblem p
  if literals.length = n.size then
    match signs n.size SortedMap.empty literals with
    | .error e => .error e
    | .ok values => place n values SortedMap.empty p.domains.toList
  else .error (.literalCount literals.length n.size)

end Problem

/-! ## §3 Model Texts -/

/-- Why a report holds no model. -/
inductive ModelTextError where
  /-- No word `v` occurs. -/
  | missingAssignment
  /-- The literals are not closed by a zero. -/
  | missingTerminator
  /-- A word among the literals is none. -/
  | badToken (word : List Char)
  deriving DecidableEq, Repr

/-- The wording of a fault. -/
def ModelTextError.message : ModelTextError → String
  | missingAssignment => "no 'v' assignment section in solver output"
  | missingTerminator => "no terminating 0 in solver output"
  | badToken word => "unexpected token '" ++ String.ofList word ++ "' in assignment section"

/-- Whether a text holds another as a part. -/
def occursIn (part : List Char) : List Char → Bool
  | [] => part.isEmpty
  | c :: rest => part.isPrefixOf (c :: rest) || occursIn part rest

/-- Reads literals up to the closing zero; a word about processor time ends the report early. -/
def modelWords : List (List Char) → Except ModelTextError (List Literal)
  | [] => .error .missingTerminator
  | word :: rest =>
    if word = ['v'] then modelWords rest
    else
      match Numeral.intWithin? 32 word with
      | some x => if x = 0 then .ok [] else (modelWords rest).map (x :: ·)
      | none =>
        if occursIn "CPU".toList word then .error .missingTerminator else .error (.badToken word)

/-- Reads the literals of the model in a report. -/
def modelOfReport (text : List Char) : Except ModelTextError (List Literal) :=
  match (words text).dropWhile (· != ['v']) with
  | [] => .error .missingAssignment
  | _ :: rest => modelWords rest

end SpectrumPacking
