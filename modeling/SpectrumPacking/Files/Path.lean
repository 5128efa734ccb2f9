import SpectrumPacking.Text.Pieces

/-!
# Paths

A path keeps the text it was given, and is read as a sequence of components: repeated slashes, a
slash at the end and a dot after the first component do not count.  Why a path cannot be used has
the wording that a file system gives it.
-/

namespace SpectrumPacking

/-! ## §1 Faults -/

/-- Why a file or directory cannot be used. -/
inductive FileFault where
  /-- There is nothing at a path. -/
  | missing
  /-- Something stands in the way where a directory is to be made. -/
  | occupied
  /-- A path leads through a file. -/
  | notDirectory
  /-- A file is asked for where there is a directory. -/
  | isDirectory
  /-- A file does not hold text. -/
  | notText
  /-- A name, or a whole path, is longer than file systems allow. -/
  | nameTooLong
  /-- A path contains the character that ends names. -/
  | nulCharacter
  /-- Another fault, in the words of the file system. -/
  | described (text : String)
  deriving DecidableEq, Repr

/-- The wording of a fault. -/
def FileFault.message : FileFault → String
  | missing => "No such file or directory (os error 2)"
  | occupied => "File exists (os error 17)"
  | notDirectory => "Not a directory (os error 20)"
  | isDirectory => "Is a directory (os error 21)"
  | notText => "stream did not contain valid UTF-8"
  | nameTooLong => "File name too long (os error 36)"
  | nulCharacter => "file name contained an unexpected NUL byte"
  | described text => text

/-! ## §2 Components -/

/-- The name of a place in a file system. -/
structure Path where
  /-- The text as it is shown. -/
  text : String
  deriving DecidableEq, Repr, Inhabited

namespace Path

/-- One step of a path. -/
inductive Component where
  /-- The slash in front of an absolute path. -/
  | root
  /-- A dot at the start of a relative path. -/
  | current
  /-- The directory above. -/
  | parent
  /-- An entry of a directory. -/
  | entry (name : String)
  deriving DecidableEq, Repr

/-- The component that one piece between slashes stands for, if any. -/
def Component.ofPiece (isFirst : Bool) (piece : List Char) : Option Component :=
  match piece with
  | [] => none
  | ['.'] => if isFirst then some .current else none
  | ['.', '.'] => some .parent
  | name => some (.entry (String.ofList name))

/-- The components of a path. -/
def components (p : Path) : List Component :=
  match Text.splitAtChar '/' p.text.toList with
  | [] => []
  | [[]] => []
  | [] :: rest => .root :: rest.filterMap (Component.ofPiece false)
  | first :: rest =>
    (Component.ofPiece true first).toList ++ rest.filterMap (Component.ofPiece false)

/-- Whether the path starts at the root of the file system. -/
def isAbsolute (p : Path) : Bool := p.text.toList.head? == some '/'

/-- The path `q` taken from the directory `p`; an absolute `q` stands for itself. -/
def join (p q : Path) : Path :=
  if q.isAbsolute || p.text.toList.isEmpty then q
  else if p.text.toList.getLast? == some '/' then ⟨p.text ++ q.text⟩
  else ⟨p.text ++ "/" ++ q.text⟩

/-- The name of the entry that a path ends with, if it ends with an entry. -/
def fileName? (p : Path) : Option String :=
  match p.components.getLast? with
  | some (.entry name) => some name
  | _ => none

/-- Whether a piece between slashes, not the first one, stands for no component. -/
def isIdle (piece : List Char) : Bool := piece.isEmpty || piece == ['.']

/-- The path without its last component, if there is one to drop. -/
def parent? (p : Path) : Option Path :=
  match Text.splitAtChar '/' p.text.toList with
  | [] => none
  | first :: rest =>
    match rest.reverse.dropWhile isIdle with
    | [] => if first.isEmpty then none else some ⟨""⟩
    | _ :: before =>
      match (before.dropWhile isIdle).reverse with
      | [] => some ⟨if first.isEmpty then "/" else String.ofList first⟩
      | kept => some ⟨String.ofList (['/'].intercalate (first :: kept))⟩

/-- The name of the entry that a path ends with, without the last dot and what follows it; a dot in
front is part of the name. -/
def stem? (p : Path) : Option String :=
  p.fileName?.map fun name =>
    match name.toList.reverse.dropWhile (· != '.') with
    | [] => name
    | [_] => name
    | _ :: before => String.ofList before.reverse

example : (Path.mk "a//b/./c/").components = [.entry "a", .entry "b", .entry "c"] := by decide
example : ((Path.mk "data").join ⟨"../k"⟩).text = "data/../k" ∧
    ((Path.mk "data/").join ⟨"/k"⟩).text = "/k" ∧ ((Path.mk "").join ⟨"k"⟩).text = "k" := by
  decide
example : (Path.mk "a//b/./c/").parent? = some ⟨"a//b"⟩ ∧ (Path.mk "a").parent? = some ⟨""⟩ ∧
    (Path.mk "/a").parent? = some ⟨"/"⟩ ∧ (Path.mk "/").parent? = none := by decide
example : (Path.mk "q/a.b.txt").stem? = some "a.b" ∧ (Path.mk ".rc").stem? = some ".rc" ∧
    (Path.mk "q/..").stem? = none := by decide
example : (Path.mk "a/..").fileName? = none ∧ (Path.mk "a/b/.").fileName? = some "b" := by decide

end Path

end SpectrumPacking
