import BipartiteBatch.Error
import BipartiteBatch.Text.Blank

/-!
# Locations and paths

A location is a file or directory by where it lies: below the root, below the working directory, or below
a directory above that one. A path is a text that leads to a location part by part; `.` and `..` among
its parts stay in a directory and leave it. A path that is too long, is empty or holds the character NUL
leads nowhere, whatever files there are.

* `Location`, `Location.parent`, `Location.child` : places, and the steps between them;
* `Path`, `Path.ofText` : the parts of a path;
* `Path.location`, `Path.directories` : where it leads, and what it passes through, if that is there.
-/

namespace BipartiteBatch.Scan

/-- A directory that locations are counted from: the root, or one so many levels above the working
directory. -/
inductive Anchor where
  | root
  | above (levels : Nat)
deriving DecidableEq, Repr

/-- A file or directory: the names that lead to it from an anchor. -/
structure Location where
  anchor : Anchor
  names : List String
deriving DecidableEq, Repr

namespace Location

def root : Location := ⟨.root, []⟩

def working : Location := ⟨.above 0, []⟩

/-- The directory that a location lies in. The root lies in itself. -/
def parent (l : Location) : Location :=
  match l.anchor, l.names with
  | .root, [] => root
  | .above levels, [] => ⟨.above (levels + 1), []⟩
  | anchor, names => ⟨anchor, names.dropLast⟩

def child (l : Location) (name : String) : Location := ⟨l.anchor, l.names ++ [name]⟩

/-- The location that a part of a path leads to from a directory. -/
def enter (l : Location) (part : String) : Location :=
  if part = "." then l else if part = ".." then l.parent else l.child part

/-- The locations that the parts of a path lead to, one after the other. -/
def trail (l : Location) : List String → List Location
  | [] => []
  | part :: parts => l.enter part :: (l.enter part).trail parts

end Location

/-- A path: the directory that it starts from, its parts, and whether it ends with a slash. -/
structure Path where
  start : Location
  parts : List String
  slashed : Bool
deriving DecidableEq, Repr

namespace Path

/-- A path has fewer bytes than this. -/
def limit : Nat := 4096

/-- A name has at most this many bytes. -/
def nameLimit : Nat := 255

def ofText (text : String) : Except ReadFault Path :=
  if text.toList.contains (Char.ofNat 0) then .error .nulCharacter
  else if text.isEmpty then .error .notFound
  else if limit ≤ text.utf8ByteSize then .error .nameTooLong
  else
    .ok {
      start := if ['/'].isPrefixOf text.toList then .root else .working
      parts := (Text.splitAt (· == '/') text).filter (· ≠ "")
      slashed := ['/'].isSuffixOf text.toList }

/-- Where a path leads if everything that it passes through is there. -/
def location (p : Path) : Location := p.parts.foldl Location.enter p.start

def directories (p : Path) : List Location := p.start.trail p.parts.dropLast

end Path

end BipartiteBatch.Scan
