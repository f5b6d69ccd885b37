import BipartiteBatch.Input.Line
import BipartiteBatch.Scan.Location

/-!
# Files

The files and directories that a scan can see, by location. The root, the working directory and those
above it are always there. The null file holds nothing, whatever is written to it.

* `Files.find` : what stands under a path;
* `Files.lines`, `Files.text` : a file line by line, and as one text;
* `Files.create` : the files with one more.
-/

namespace BipartiteBatch.Scan

def Location.null : Location := ⟨.root, ["dev", "null"]⟩

/-- Files and directories with their locations; of files at one location the first counts. -/
structure Files where
  files : List (Location × ByteArray) := [(.null, .empty)]
  directories : List Location := [Location.null.parent]

inductive Place where
  | file (bytes : ByteArray)
  | directory

/-- The lines of a place. A directory can be opened, but not be read. -/
def Place.lines : Place → List Line
  | file bytes => Line.ofBytes bytes
  | directory => [.error .isDirectory]

namespace Files

def put (f : Files) (l : Location) (bytes : ByteArray) : Files :=
  if l = .null then f else { f with files := (l, bytes) :: f.files }

/-- Put bytes where a path leads, with the directories that it passes through. -/
def putAt (f : Files) (path : String) (bytes : ByteArray) : Files :=
  match Path.ofText path with
  | .ok p => { f with directories := p.directories ++ f.directories }.put p.location bytes
  | .error _ => f

def putDirectory (f : Files) (path : String) : Files :=
  match Path.ofText path with
  | .ok p => { f with directories := p.location :: p.directories ++ f.directories }
  | .error _ => f

def ofList (entries : List (String × ByteArray)) : Files :=
  entries.foldl (fun f e => f.putAt e.1 e.2) {}

def place? (f : Files) (l : Location) : Option Place :=
  match f.files.lookup l with
  | some bytes => some (.file bytes)
  | none =>
    if l.names.isEmpty || f.directories.contains l then some .directory else none

/-- The step from a directory that a part of a path makes, and what stands there. -/
def step (f : Files) (directory : Location) (part : String) : Except ReadFault (Location × Place) :=
  if part = "." then .ok (directory, .directory)
  else if part = ".." then .ok (directory.parent, .directory)
  else if Path.nameLimit < part.utf8ByteSize then .error .nameTooLong
  else
    match f.place? (directory.child part) with
    | some place => .ok (directory.child part, place)
    | none => .error .notFound

def walk (f : Files) (directory : Location) : List String → Except ReadFault Location
  | [] => .ok directory
  | part :: parts =>
    match f.step directory part with
    | .ok (l, .directory) => f.walk l parts
    | .ok (_, .file _) => .error .notDirectory
    | .error fault => .error fault

/-- What stands under a path, and where, or why nothing does. -/
def find (f : Files) (path : String) : Except ReadFault (Location × Place) := do
  let p ← Path.ofText path
  match p.parts.getLast? with
  | none => return (p.start, .directory)
  | some last =>
    let directory ← f.walk p.start p.parts.dropLast
    match ← f.step directory last with
    | (l, .file bytes) => if p.slashed then throw .notDirectory else return (l, .file bytes)
    | (l, .directory) => return (l, .directory)

def lines (f : Files) (path : String) : Except ReadFault (List Line) :=
  (f.find path).map fun (_, place) => place.lines

def text (f : Files) (path : String) : Except ReadFault String :=
  match f.find path with
  | .error fault => .error fault
  | .ok (_, .directory) => .error .isDirectory
  | .ok (_, .file bytes) =>
    match String.fromUTF8? bytes with
    | some text => .ok text
    | none => .error .notText

/-- Where a path leads that a file is to be written to. Its directory must be there, and the path must
name a file in it. -/
def target (f : Files) (path : String) : Except ReadFault Location := do
  let p ← Path.ofText path
  match p.parts.getLast? with
  | none => throw .isDirectory
  | some last =>
    let directory ← f.walk p.start p.parts.dropLast
    if last = "." ∨ last = ".." ∨ p.slashed then throw .isDirectory
    else
      match f.step directory last with
      | .ok (l, .file _) => return l
      | .ok (_, .directory) => throw .isDirectory
      | .error .notFound => return directory.child last
      | .error fault => throw fault

/-- Write a text to a file, whatever it held: the files after it, and where it stands. -/
def create (f : Files) (path text : String) : Except ReadFault (Files × Location) :=
  (f.target path).map fun l => (f.put l text.toUTF8, l)

end Files

end BipartiteBatch.Scan
