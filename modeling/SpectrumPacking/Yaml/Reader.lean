import SpectrumPacking.Yaml.Lexer
import SpectrumPacking.Yaml.Value

/-!
# Reading YAML Documents

A document is read from its tokens.  A node may have a name, by which what follows refers to it,
and a tag, whose handle is replaced by what it stands for.  A text has to hold one document.

The place of a node with a name is the number of names known before it.  A name that is given again
takes the new place and leaves its old one; the next new name then comes to the same place, and
references to either mean its node.
-/

namespace SpectrumPacking.Yaml

/-! ## §1 States -/

/-- What the reading of a node depends on. -/
structure ReaderState where
  /-- The tokens that are left. -/
  tokens : List Token
  /-- What the handles of tags stand for. -/
  handles : List (List Char × List Char) := []
  /-- The names, each with its place. -/
  places : List (List Char × Nat) := []
  /-- The nodes with names, each with its place, in order of appearance. -/
  named : List (Nat × Yaml) := []

/-- Reading that may fail. -/
abbrev ReaderM := StateT ReaderState Option

/-- The next token, which stays. -/
def peek : ReaderM (Option Token) := return (← get).tokens.head?

/-- Takes the next token. -/
def advance : ReaderM Unit := modify fun s => { s with tokens := s.tokens.drop 1 }

/-- Takes the next token if it is the given one, and says whether it is. -/
def accept (t : Token) : ReaderM Bool := do
  if (← peek) == some t then
    advance
    return true
  return false

/-- Whether the next token is one of some, or there is none. -/
def isBefore (l : List Token) : ReaderM Bool := return (← peek).all l.contains

/-- The scalar without text. -/
def nothing : Yaml := .scalar none .plain []

/-! ## §2 Names and Tags -/

/-- The whole tag of a handle and what follows it. -/
def wholeTag (handle suffix : List Char) : ReaderM (List Char) := do
  if handle.isEmpty then return suffix
  let standard := [(['!'], ['!']), (['!', '!'], tagBase)]
  match ((← get).handles ++ standard).lookup handle with
  | some text => return text ++ suffix
  | none => failure

/-- Takes a tag, if there is one. -/
def optionalTag : ReaderM (Option (List Char)) := do
  match ← peek with
  | some (.tag handle suffix) =>
    advance
    some <$> wholeTag handle suffix
  | _ => return none

/-- Takes a name, if there is one. -/
def optionalName : ReaderM (Option (List Char)) := do
  match ← peek with
  | some (.anchor name) =>
    advance
    return some name
  | _ => return none

/-- Takes a name and a tag in any order, as far as there are any. -/
def properties : ReaderM (Option (List Char) × Option (List Char)) := do
  match ← optionalName with
  | some name => return (some name, ← optionalTag)
  | none =>
    match ← optionalTag with
    | some tag => return (← optionalName, some tag)
    | none => return (none, none)

/-- Reads a node that may have a name, which is known inside of the node already. -/
def withName (name : Option (List Char)) (read : ReaderM Yaml) : ReaderM Yaml := do
  match name with
  | none => read
  | some name =>
    let place := (← get).places.length
    let count := (← get).named.length
    modify fun s => { s with
      places := (name, place) :: s.places.filter fun e => e.1 != name
      named := s.named ++ [(place, .reference place)] }
    let y ← read
    modify fun s => { s with named := s.named.set count (place, y) }
    return y

/-! ## §3 Nodes -/

mutual

/-- Reads a node.  Some positions have no collections in the indentation, and some allow the items
of a sequence without indentation. -/
def node (inBlock allowsItems : Bool) : Nat → ReaderM Yaml
  | 0 => failure
  | fuel + 1 => do
    match ← peek with
    | some (.alias name) =>
      advance
      match (← get).places.lookup name with
      | some place => return .reference place
      | none => failure
    | _ =>
      -- a name and a tag may stand in front of anything but a reference
      let (name, tag) ← properties
      withName name do
        match ← peek with
        | some .blockEntry =>
          if allowsItems then return .sequence (← looseItems fuel) else empty name tag
        | some (.scalar style text) =>
          advance
          return .scalar tag style text
        | some .flowSequenceStart =>
          advance
          return .sequence (← flowItems true fuel)
        | some .flowMappingStart =>
          advance
          return .mapping (← flowMembers true fuel)
        | some .blockSequenceStart =>
          if !inBlock then empty name tag
          else
            advance
            return .sequence (← blockItems fuel)
        | some .blockMappingStart =>
          if !inBlock then empty name tag
          else
            advance
            return .mapping (← blockMembers fuel)
        | _ => empty name tag
where
  empty (name tag : Option (List Char)) : ReaderM Yaml :=
    if name.isSome || tag.isSome then return .scalar tag .plain [] else failure

/-- Reads the items of a sequence that shows in the indentation. -/
def blockItems : Nat → ReaderM (List Yaml)
  | 0 => failure
  | fuel + 1 => do
    if ← accept .blockEntry then
      let item ← if ← isBefore [.blockEntry, .blockEnd] then pure nothing else node true false fuel
      return item :: (← blockItems fuel)
    else if ← accept .blockEnd then return []
    else failure

/-- Reads the items of a sequence that is not indented against the key in front of it. -/
def looseItems : Nat → ReaderM (List Yaml)
  | 0 => failure
  | fuel + 1 => do
    if ← accept .blockEntry then
      let item ← if ← isBefore [.blockEntry, .key, .value, .blockEnd] then pure nothing
        else node true false fuel
      return item :: (← looseItems fuel)
    else return []

/-- Reads the members of a mapping that shows in the indentation. -/
def blockMembers : Nat → ReaderM (List (Yaml × Yaml))
  | 0 => failure
  | fuel + 1 => do
    if ← accept .key then
      let part : ReaderM Yaml := do
        if ← isBefore [.key, .value, .blockEnd] then return nothing else node true true fuel
      let key ← part
      let value ← if ← accept .value then part else pure nothing
      return (key, value) :: (← blockMembers fuel)
    else if ← accept .blockEnd then return []
    else failure

/-- Reads the items of a sequence in brackets; a pair in it is a mapping of its own. -/
def flowItems (isFirst : Bool) : Nat → ReaderM (List Yaml)
  | 0 => failure
  | fuel + 1 => do
    if ← accept .flowSequenceEnd then return []
    if !isFirst then
      if !(← accept .flowEntry) then failure
    if ← accept .flowSequenceEnd then return []
    let item ← if ← accept .key then .mapping <$> flowPair fuel else node false false fuel
    return item :: (← flowItems false fuel)

/-- Reads a pair in a sequence in brackets. -/
def flowPair : Nat → ReaderM (List (Yaml × Yaml))
  | 0 => failure
  | fuel + 1 => do
    let key ←
      if ← isBefore [.value, .flowEntry, .flowSequenceEnd] then
        advance
        pure nothing
      else node false false fuel
    let value ←
      if ← accept .value then
        if ← isBefore [.flowEntry, .flowSequenceEnd] then pure nothing else node false false fuel
      else pure nothing
    return [(key, value)]

/-- Reads the members of a mapping in braces. -/
def flowMembers (isFirst : Bool) : Nat → ReaderM (List (Yaml × Yaml))
  | 0 => failure
  | fuel + 1 => do
    if ← accept .flowMappingEnd then return []
    if !isFirst then
      if !(← accept .flowEntry) then failure
    if ← accept .flowMappingEnd then return []
    if ← accept .key then
      let part : ReaderM Yaml := do
        if ← isBefore [.flowEntry, .flowMappingEnd] then return nothing
        else node false false fuel
      let key ← if (← peek) == some .value then pure nothing else part
      let value ← if ← accept .value then part else pure nothing
      return (key, value) :: (← flowMembers false fuel)
    else
      let key ← node false false fuel
      return (key, nothing) :: (← flowMembers false fuel)

end

/-! ## §4 Documents -/

/-- Takes the directives in front of a document: whether there was a version, and what the handles
of tags stand for. -/
def directives : Bool → List (List Char × List Char) → List Token →
    Option (List (List Char × List Char) × List Token)
  | hasVersion, handles, .version major minor :: rest =>
    if hasVersion ∨ major ≠ 1 ∨ minor ≠ 1 ∧ minor ≠ 2 then none
    else directives true handles rest
  | hasVersion, handles, .tagHandle handle text :: rest =>
    if (handles.lookup handle).isSome then none
    else directives hasVersion ((handle, text) :: handles) rest
  | _, handles, rest => some (handles, rest)

/-- Whether a token cannot start a node of a document. -/
def isBetweenDocuments : Token → Bool
  | .version .. => true
  | .tagHandle .. => true
  | .documentStart => true
  | .documentEnd => true
  | _ => false

/-- The tokens of the one document of a text, without the marks around it, and what the handles of
tags stand for. -/
def documentStart? (l : List Token) : Option (Bool × ReaderState) :=
  match l with
  | [] => none
  | .documentEnd :: _ => none
  | t :: _ =>
    if !isBetweenDocuments t then some (false, { tokens := l })
    else
      match directives false [] l with
      | some (handles, .documentStart :: rest) =>
        some (rest.head?.all isBetweenDocuments, { tokens := rest, handles := handles })
      | _ => none

/-- Reads a document. -/
def ofText? (t : List Char) : Option Document := do
  let (isEmpty, s) ← (tokens? t).bind documentStart?
  let read : ReaderM Yaml :=
    if isEmpty then pure nothing else node true false (2 * s.tokens.length + 2)
  let (y, s) ← read.run s
  if s.tokens.all (· == .documentEnd) then some ⟨y, s.named⟩ else none

end SpectrumPacking.Yaml
