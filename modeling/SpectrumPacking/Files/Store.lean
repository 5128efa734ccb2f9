import SpectrumPacking.Collection.SortedMap
import SpectrumPacking.Files.Path
import SpectrumPacking.Text.Numeral

/-!
# File Stores

A file store is a tree of directories and files, kept as a map from locations to entries.  A
location is the list of names that leads from the top to an entry; the top itself is a directory
that is always there.  A path is walked piece by piece, and every piece but the last one has to lead
to a directory; names and paths have greatest lengths.

What programs can do with files is said for any monad that offers it (`FileAccess`).  States that
contain a file store do.
-/

namespace SpectrumPacking

/-! ## §1 Entries -/

/-- What a file holds. -/
inductive FileContent where
  | text (t : String)
  /-- Bytes that are no text. -/
  | binary (bytes : ByteArray)

/-- Reads bytes as text, if they are. -/
def FileContent.ofBytes (bytes : ByteArray) : FileContent :=
  match String.fromUTF8? bytes with
  | some t => text t
  | none => binary bytes

/-- What there is at a location. -/
inductive FileEntry where
  | directory
  | file (content : FileContent)

/-- The kinds of entries. -/
inductive FileKind where
  | directory
  | file
  deriving DecidableEq, Repr

/-- The kind of an entry. -/
def FileEntry.kind : FileEntry → FileKind
  | directory => .directory
  | file _ => .file

/-- The names that lead from the top to an entry. -/
abbrev Location := List String

-- Locations are compared by their first names, and then by those that follow.
instance Location.isLinearOrder : Std.IsLinearOrder Location := inferInstance

instance Location.lawfulOrderLT : Std.LawfulOrderLT Location := inferInstance

/-- A tree of directories and files. -/
structure FileStore where
  /-- The entries below the top. -/
  entries : SortedMap Location FileEntry := SortedMap.empty

namespace FileStore

/-! ## §2 Walking -/

/-- What there is at a location. -/
def entry? (s : FileStore) (l : Location) : Option FileEntry :=
  if l.isEmpty then some .directory else s.entries.get? l

/-- The location that one piece of a path leads to. -/
def stepTo (l : Location) (piece : String) : Location :=
  if piece = "" ∨ piece = "." then l else if piece = ".." then l.dropLast else l ++ [piece]

/-- The greatest number of bytes of a name. -/
def maxNameBytes : Nat := 255

/-- The greatest number of bytes of a path. -/
def maxPathBytes : Nat := 4095

/-- The location that pieces lead to from a location. -/
def walk (s : FileStore) : Location → List String → Except FileFault Location
  | l, [] => .ok l
  | l, piece :: rest =>
    match s.entry? l with
    | none => .error .missing
    | some (.file _) => .error .notDirectory
    | some .directory =>
      if maxNameBytes < piece.utf8ByteSize then .error .nameTooLong
      else s.walk (stepTo l piece) rest

/-- The pieces of a path between slashes, if the path can be walked at all. -/
def pieces (p : Path) : Except FileFault (List String) :=
  if p.text.toList.contains '\x00' then .error .nulCharacter
  else if p.text = "" then .error .missing
  else if maxPathBytes < p.text.utf8ByteSize then .error .nameTooLong
  else .ok ((Text.splitAtChar '/' p.text.toList).map String.ofList)

/-- The location that a path leads to.  There may be nothing yet at the location itself. -/
def locate (s : FileStore) (p : Path) : Except FileFault Location :=
  match pieces p with
  | .error e => .error e
  | .ok l => s.walk [] l

/-- What there is at a path. -/
def at? (s : FileStore) (p : Path) : Option FileEntry :=
  match s.locate p with
  | .ok l => s.entry? l
  | .error _ => none

/-- The kind of what there is at a path. -/
def kind? (s : FileStore) (p : Path) : Option FileKind := (s.at? p).map FileEntry.kind

/-! ## §3 Reading and Writing -/

/-- The text of a file. -/
def read (s : FileStore) (p : Path) : Except FileFault String :=
  match s.locate p with
  | .error e => .error e
  | .ok l =>
    match s.entry? l with
    | none => .error .missing
    | some .directory => .error .isDirectory
    | some (.file (.binary _)) => .error .notText
    | some (.file (.text t)) => .ok t

/-- Pieces without the empty ones at their end, which stand for slashes at the end of a path. -/
def withoutSlashes (pieces : List String) : List String :=
  (pieces.reverse.dropWhile (· == "")).reverse

/-- The store with a file at a path, in place of a file that is there.  A path that ends with a
slash can only name a directory. -/
def write (s : FileStore) (p : Path) (content : FileContent) : Except FileFault FileStore :=
  match pieces p with
  | .error e => .error e
  | .ok pieces =>
    match s.walk [] (withoutSlashes pieces) with
    | .error e => .error e
    | .ok l =>
      if pieces.getLast? = some "" then .error .isDirectory
      else
        match s.entry? l with
        | some .directory => .error .isDirectory
        | _ => .ok ⟨s.entries.insert l (.file content)⟩

/-- The store with a new directory at the end of some pieces. -/
def makeDirectory (s : FileStore) (pieces : List String) : Except FileFault FileStore :=
  match s.walk [] pieces with
  | .error e => .error e
  | .ok l =>
    match s.entry? l with
    | some _ => .error .occupied
    | none => .ok ⟨s.entries.insert l .directory⟩

/-- Whether some pieces lead to a directory. -/
def leadsToDirectory (s : FileStore) (pieces : List String) : Bool :=
  match s.walk [] pieces with
  | .ok l => (s.entry? l).map FileEntry.kind == some .directory
  | .error _ => false

/-- Makes a directory at the end of some pieces, unless it is there already. -/
def provideDirectory (s : FileStore) (pieces : List String) : Except FileFault FileStore :=
  match s.makeDirectory pieces with
  | .ok s => .ok s
  | .error e => if s.leadsToDirectory pieces then .ok s else .error e

/-- What is left of an attempt to change a store, which stays as it is after a fault. -/
def attempted (s : FileStore) : Except FileFault FileStore → Except FileFault Unit × FileStore
  | .ok t => (.ok (), t)
  | .error e => (.error e, s)

/-- Makes a directory, after the directories above it if they are missing.  Directories above it
stay when it cannot be made. -/
def provideBelow (s : FileStore) (above : FileStore → Except FileFault Unit × FileStore)
    (pieces : List String) : Except FileFault Unit × FileStore :=
  match s.provideDirectory pieces with
  | .error .missing =>
    match above s with
    | (.ok (), t) => t.attempted (t.provideDirectory pieces)
    | (.error e, t) => (.error e, t)
  | r => s.attempted r

/-- Makes a directory at the end of some pieces, given in reverse, and all directories above it
that are missing. -/
def makeAll : List String → FileStore → Except FileFault Unit × FileStore
  | [], s => (.ok (), s)
  | piece :: up, s => s.provideBelow (makeAll up) (piece :: up).reverse

/-- The piece of a path that stands for a component. -/
def pieceOf : Path.Component → String
  | .root => ""
  | .current => "."
  | .parent => ".."
  | .entry name => name

/-- Makes the directory of a path and all directories above it that are missing.  The path itself
is taken piece by piece, so that a dot at its end asks for a directory that is there; those above
are its components.  After a fault, the directories that were made before it stay. -/
def provideAll (s : FileStore) (p : Path) : Except FileFault Unit × FileStore :=
  if p.text = "" then (.ok (), s)
  else
    match pieces p with
    | .error e => (.error e, s)
    | .ok l =>
      s.provideBelow (makeAll ((p.components.map pieceOf).reverse.drop 1)) (withoutSlashes l)

/-- The store with the directory of a path, if it can be made. -/
def makeDirectories (s : FileStore) (p : Path) : Except FileFault FileStore :=
  match s.provideAll p with
  | (.ok (), t) => .ok t
  | (.error e, _) => .error e

/-- The names of the entries of a directory. -/
def names (s : FileStore) (p : Path) : Except FileFault (List String) :=
  match s.locate p with
  | .error e => .error e
  | .ok l =>
    match s.entry? l with
    | none => .error .missing
    | some (.file _) => .error .notDirectory
    | some .directory =>
      .ok (s.entries.keys.filterMap fun k => if k.dropLast = l then k.getLast? else none)

/-- The files with their locations. -/
def files (s : FileStore) : List (Location × FileContent) :=
  s.entries.toList.filterMap fun e =>
    match e.2 with
    | .file content => some (e.1, content)
    | .directory => none

end FileStore

/-! ## §4 Access -/

/-- A monad with access to files. -/
class FileAccess (m : Type → Type) where
  kind? : Path → m (Option FileKind)
  /-- Reads a file as text. -/
  read : Path → m (Except FileFault String)
  /-- Writes a text into a file, which takes the place of a file that is there. -/
  write : Path → String → m (Except FileFault Unit)
  /-- Makes a directory and all directories above it that are missing. -/
  makeDirectories : Path → m (Except FileFault Unit)
  /-- The names of the entries of a directory. -/
  names : Path → m (Except FileFault (List String))

/-- Whether there is a file at a path. -/
def FileAccess.isFile {m : Type → Type} [Monad m] [FileAccess m] (p : Path) : m Bool := do
  return (← kind? p) == some .file

/-- Whether there is a directory at a path. -/
def FileAccess.isDirectory {m : Type → Type} [Monad m] [FileAccess m] (p : Path) : m Bool := do
  return (← kind? p) == some .directory

/-- A state that contains a file store. -/
class HasFiles (σ : Type) where
  files : σ → FileStore
  /-- The state with another file store in it. -/
  withFiles : σ → FileStore → σ

instance : HasFiles FileStore := ⟨id, fun _ s => s⟩

namespace HasFiles

variable {σ : Type} [HasFiles σ]

/-- Changes the file store of a state, unless that is a fault. -/
def change (f : FileStore → Except FileFault FileStore) : StateM σ (Except FileFault Unit) :=
  fun s =>
    match f (files s) with
    | .ok store => (.ok (), withFiles s store)
    | .error e => (.error e, s)

instance : FileAccess (StateM σ) where
  kind? p s := ((files s).kind? p, s)
  read p s := ((files s).read p, s)
  write p t := change fun store => store.write p (.text t)
  makeDirectories p s :=
    let (made, store) := (files s).provideAll p
    (made, withFiles s store)
  names p s := ((files s).names p, s)

end HasFiles

end SpectrumPacking
