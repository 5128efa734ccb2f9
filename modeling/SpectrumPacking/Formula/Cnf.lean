import SpectrumPacking.Text.Numeral
import SpectrumPacking.Text.Pieces

/-!
# Formulas in Conjunctive Normal Form

A literal is an integer: `n` stands for variable `n` and `-n` for its negation.  A formula is a list
of clauses together with a declared number of variables, which may exceed the variables that occur.

The DIMACS text of a formula has comment lines that start with `c`, a header `p cnf` with the
numbers of variables and clauses, and the literals of each clause followed by `0`.  When read, a
clause may spread over lines, lines that start with `%` are comments too, and the last `0` may be
missing.
-/

namespace SpectrumPacking

open Text

/-! ## §1 Valuations and Literals -/

/-- A truth value for every variable. -/
abbrev Valuation := Nat → Bool

/-- A signed variable. -/
abbrev Literal := Int

/-- A disjunction of literals. -/
abbrev Clause := List Literal

/-- The valuation with the listed values from variable 0 on, and false beyond the list. -/
def Valuation.ofList (l : List Bool) : Valuation := fun n => l.getD n false

/-- The valuation that makes the literals of a list true; of opposite literals the later one
counts, and variables that do not occur are false. -/
def Valuation.ofLiterals (l : List Literal) : Valuation :=
  l.foldl (fun v x n => if n = x.natAbs then decide (0 < x) else v n) fun _ => false

namespace Literal

/-- Whether a literal is true; the literal 0 counts as a negated one. -/
def holds (v : Valuation) (x : Literal) : Bool := if 0 < x then v x.natAbs else !v x.natAbs

end Literal

/-- Whether some literal of a clause is true. -/
def Clause.holds (v : Valuation) (c : Clause) : Bool := c.any (Literal.holds v)

theorem Clause.holds_iff {v : Valuation} {c : Clause} :
    c.holds v = true ↔ ∃ x ∈ c, Literal.holds v x = true := List.any_eq_true

/-! ## §2 Formulas -/

/-- A formula with its declared number of variables. -/
structure Cnf where
  /-- The declared number of variables. -/
  numVariables : Nat
  /-- The clauses, all of which have to hold. -/
  clauses : List Clause
  deriving DecidableEq, Repr, Inhabited

namespace Cnf

/-- The number of clauses. -/
def numClauses (f : Cnf) : Nat := f.clauses.length

/-- Whether every clause is true. -/
def holds (v : Valuation) (f : Cnf) : Bool := f.clauses.all (Clause.holds v)

/-- Some valuation makes every clause true. -/
def Satisfiable (f : Cnf) : Prop := ∃ v, f.holds v = true

/-- The fixed formula that stands for a problem with an empty domain. -/
def contradiction : Cnf := ⟨1, [[1], [-1]]⟩

/-- Whether the formula is the fixed contradiction. -/
def isContradiction (f : Cnf) : Bool := f == contradiction

/-- Every literal names a declared variable. -/
def IsWellFormed (f : Cnf) : Prop :=
  ∀ c ∈ f.clauses, ∀ x ∈ c, x ≠ 0 ∧ x.natAbs ≤ f.numVariables

theorem holds_iff {v : Valuation} {f : Cnf} :
    f.holds v = true ↔ ∀ c ∈ f.clauses, Clause.holds v c = true := List.all_eq_true

/-- The fixed contradiction has no model. -/
theorem not_satisfiable_contradiction : ¬ contradiction.Satisfiable := by
  intro h
  obtain ⟨v, hv⟩ := h
  simp only [holds, contradiction, Clause.holds, Literal.holds, List.all_cons, List.all_nil,
    List.any_cons, List.any_nil] at hv
  cases h1 : v 1 <;> simp [h1] at hv

end Cnf

/-! ## §3 Faults of DIMACS Texts -/

/-- Why a text is no formula. -/
inductive DimacsError where
  /-- A clause, or the end, comes before any header. -/
  | missingHeader
  /-- A line starts with `p` and is no header. -/
  | badHeader (line : List Char)
  /-- A word that should be a literal is none. -/
  | badLiteral (word : List Char)
  /-- A literal names no declared variable. -/
  | variableOutOfRange (literal : Literal) (numVariables : Nat)
  /-- The number of clauses differs from the declared one. -/
  | clauseCount (declared found : Nat)
  deriving DecidableEq, Repr

/-- The wording of a fault. -/
def DimacsError.message : DimacsError → String
  | missingHeader => "missing 'p cnf' header"
  | badHeader line => "malformed header '" ++ String.ofList line ++ "'"
  | badLiteral word => "invalid literal '" ++ String.ofList word ++ "'"
  | variableOutOfRange literal n =>
    "literal " ++ toString literal ++ " exceeds the declared " ++ toString n ++ " variables"
  | clauseCount declared found =>
    "header declares " ++ toString declared ++ " clauses but " ++ toString found ++ " were read"

namespace Cnf

/-! ## §4 Writing -/

/-- A clause line: the literals, each with a blank behind it, and the closing zero. -/
def clauseLine (c : Clause) : List Char :=
  [' '].intercalate (c.map Numeral.ofInt) ++ " 0\n".toList

/-- The header line. -/
def headerLine (f : Cnf) : List Char :=
  "p cnf ".toList ++ Numeral.ofNat f.numVariables ++ ' ' :: Numeral.ofNat f.numClauses ++ ['\n']

/-- A comment line. -/
def commentLine (text : List Char) : List Char := "c ".toList ++ text ++ ['\n']

/-- The text of a formula with comments in front. -/
def toDimacs (f : Cnf) (comments : List (List Char)) : List Char :=
  comments.flatMap commentLine ++ f.headerLine ++ f.clauses.flatMap clauseLine

/-! ## §5 Reading -/

/-- What has been read of a formula: the last header, the clauses that are complete and the
literals of the next clause, both with the latest first. -/
structure Draft where
  /-- The numbers of variables and clauses in the last header. -/
  header : Option (Nat × Nat) := none
  /-- The complete clauses, the latest first. -/
  done : List Clause := []
  /-- The literals of the clause under way, the latest first. -/
  current : Clause := []

/-- Reads a header line. -/
def header? (line : List Char) : Option (Nat × Nat) :=
  match words line with
  | [p, cnf, numVariables, numClauses] =>
    if p == ['p'] && cnf == "cnf".toList then
      match Numeral.natWithin? 64 numVariables, Numeral.natWithin? 64 numClauses with
      | some v, some c => some (v, c)
      | _, _ => none
    else none
  | _ => none

/-- Reads the words of a clause line, given the declared number of variables. -/
def Draft.readWords (numVariables : Nat) (d : Draft) :
    List (List Char) → Except DimacsError Draft
  | [] => .ok d
  | word :: rest =>
    match Numeral.intWithin? 32 word with
    | none => .error (.badLiteral word)
    | some x =>
      if x = 0 then
        readWords numVariables { d with done := d.current.reverse :: d.done, current := [] } rest
      else if numVariables < x.natAbs then .error (.variableOutOfRange x numVariables)
      else readWords numVariables { d with current := x :: d.current } rest

/-- Reads one line. -/
def Draft.readLine (d : Draft) (line : List Char) : Except DimacsError Draft :=
  match trim line with
  | [] => .ok d
  | c :: rest =>
    if c = 'c' ∨ c = '%' then .ok d
    else if c = 'p' then
      match header? (c :: rest) with
      | none => .error (.badHeader (c :: rest))
      | some h => .ok { d with header := some h }
    else
      match d.header with
      | none => .error .missingHeader
      | some (numVariables, _) => d.readWords numVariables (words (c :: rest))

/-- The complete clauses in order; literals under way at the end make one more clause. -/
def Draft.clauses (d : Draft) : List Clause :=
  if d.current.isEmpty then d.done.reverse else (d.current.reverse :: d.done).reverse

/-- The formula that a draft amounts to. -/
def Draft.finish (d : Draft) : Except DimacsError Cnf :=
  match d.header with
  | none => .error .missingHeader
  | some (numVariables, declared) =>
    if d.clauses.length = declared then .ok ⟨numVariables, d.clauses⟩
    else .error (.clauseCount declared d.clauses.length)

/-- Reads the text of a formula. -/
def ofDimacs (text : List Char) : Except DimacsError Cnf :=
  (foldLines (fun _ d line => d.readLine line) 1 ({} : Draft) (lines text)).bind Draft.finish

end Cnf

end SpectrumPacking
