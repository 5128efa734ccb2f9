import SpectrumPacking.Digest.Sha1
import SpectrumPacking.Encoding.Encode
import SpectrumPacking.Files.Store

/-!
# Directories of Formulas

Formulas are kept in files that are named after the station sets they belong to, so that a problem
finds the formula that was saved for its stations.  A file has the digest of a station set for its
name, so the order in which stations are given does not matter.
-/

namespace SpectrumPacking

/-! ## §1 Names -/

/-- The sorted numbers of some stations, joined by hyphens. -/
def stationKey (l : List StationId) : List Char :=
  ['-'].intercalate (l.mergeSort.map Text.Numeral.ofNat)

theorem pairwise_mergeSort_nat (l : List Nat) : l.mergeSort.Pairwise (· ≤ ·) := by
  have h : l.mergeSort.Pairwise fun a b => decide (a ≤ b) = true := by
    apply List.pairwise_mergeSort
    · intro a b c hab hbc
      exact decide_eq_true (Nat.le_trans (of_decide_eq_true hab) (of_decide_eq_true hbc))
    · intro a b
      simpa using Nat.le_total a b
  exact h.imp of_decide_eq_true

/-- The key does not depend on the order of the stations. -/
theorem stationKey_eq_of_perm {l m : List StationId} (h : l.Perm m) :
    stationKey l = stationKey m := by
  have hperm : l.mergeSort.Perm m.mergeSort :=
    (List.mergeSort_perm l _).trans (h.trans (List.mergeSort_perm m _).symm)
  have hsorted : l.mergeSort = m.mergeSort :=
    hperm.eq_of_pairwise (fun a b _ _ hab hba => Nat.le_antisymm hab hba)
      (pairwise_mergeSort_nat l) (pairwise_mergeSort_nat m)
  rw [stationKey, stationKey, hsorted]

/-- The digest of the key of some stations. -/
def stationDigest (l : List StationId) : List Char :=
  Sha1.hexDigest ((stationKey l).map fun c => UInt8.ofNat c.toNat)

/-- The name of the file that holds the formula of a problem. -/
def Problem.fileName (p : Problem) : String :=
  String.ofList (stationDigest p.stations ++ ".cnf".toList)

/-! ## §2 Directories -/

/-- Why a formula cannot be found or kept. -/
inductive LookupError where
  /-- There is no formula for a station set. -/
  | missing (path : Path)
  /-- A file or directory cannot be used. -/
  | inaccessible (path : Path) (cause : FileFault)
  /-- A file holds no formula. -/
  | malformed (path : Path) (cause : DimacsError)
  deriving DecidableEq

namespace LookupError

/-- The wording of a fault. -/
def message : LookupError → String
  | missing path => "no CNF for this station set at " ++ path.text
  | inaccessible path _ => "failed to access " ++ path.text
  | malformed path _ => "invalid CNF in " ++ path.text

end LookupError

/-- A directory of formulas. -/
structure CnfDirectory where
  /-- The path of the directory. -/
  path : Path
  deriving DecidableEq, Repr

namespace CnfDirectory

variable {m : Type → Type} [Monad m] [FileAccess m]

/-- The file for the stations of a problem. -/
def file (d : CnfDirectory) (p : Problem) : Path := d.path.join ⟨p.fileName⟩

/-- Whether there is a formula for the stations of a problem. -/
def has (d : CnfDirectory) (p : Problem) : m Bool := FileAccess.isFile (d.file p)

/-- The formula that was saved for the stations of a problem. -/
def load (d : CnfDirectory) (p : Problem) : m (Except LookupError Cnf) := do
  if !(← d.has p) then return .error (.missing (d.file p))
  match ← FileAccess.read (d.file p) with
  | .error cause => return .error (.inaccessible (d.file p) cause)
  | .ok text =>
    match Cnf.ofDimacs text.toList with
    | .error cause => return .error (.malformed (d.file p) cause)
    | .ok f => return .ok f

/-- Saves a formula for the stations of a problem and says where. -/
def save (d : CnfDirectory) (p : Problem) (f : Cnf) (comments : List (List Char)) :
    m (Except LookupError Path) := do
  match ← FileAccess.makeDirectories d.path with
  | .error cause => return .error (.inaccessible d.path cause)
  | .ok () =>
    match ← FileAccess.write (d.file p) (String.ofList (f.toDimacs comments)) with
    | .error cause => return .error (.inaccessible (d.file p) cause)
    | .ok () => return .ok (d.file p)

end CnfDirectory

end SpectrumPacking
