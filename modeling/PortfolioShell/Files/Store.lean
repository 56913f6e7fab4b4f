import PortfolioShell.Files.Error
import PortfolioShell.Files.Path

/-! # File store

Files and directories below a working directory, as values. A path is walked name by name: every name but
the last must be that of a directory. What lies outside the working directory is taken to be directories
with nothing else in them. -/

namespace PortfolioShell

/-- A place for a file or directory: the names below the working directory. In front of them `..` stands
for each directory that lies above it, and `/` for the root of all files. -/
abbrev Place := List String

def Place.above (place : Place) : Place :=
  if place = ["/"] then place
  else if place.all (· = "..") then place ++ [".."]
  else place.dropLast

structure FileStore where
  files : List (Place × ByteArray)
  directories : List Place

namespace FileStore

def empty : FileStore := ⟨[], []⟩

def isDirectory (s : FileStore) (place : Place) : Bool :=
  place.all (· = "..") || place = ["/"] || s.directories.contains place

def contents? (s : FileStore) (place : Place) : Option ByteArray := s.files.lookup place

def put (s : FileStore) (place : Place) (contents : ByteArray) : FileStore :=
  { s with files := (place, contents) :: s.files.filter (·.1 ≠ place) }

def longestName : Nat := 255

def pathLimit : Nat := 4096

def parsePath (path : String) : Except FileError Path :=
  if path.toList.contains '\x00' then .error .nulInPath
  else if path = "" then .error .notFound
  else if pathLimit ≤ path.utf8ByteSize then .error .nameTooLong
  else .ok (Path.ofText path)

inductive Step where
  | directory (place : Place)
  | file (place : Place) (contents : ByteArray)
  | nothing (place : Place)

def step (s : FileStore) (place : Place) (name : String) : Except FileError Step :=
  if name = "." then .ok (.directory place)
  else if name = ".." then .ok (.directory (Place.above place))
  else if longestName < name.utf8ByteSize then .error .nameTooLong
  else
    let child := place ++ [name]
    if s.isDirectory child then .ok (.directory child)
    else match s.contents? child with
      | some contents => .ok (.file child contents)
      | none => .ok (.nothing child)

def enter (s : FileStore) (place : Place) (name : String) : Except FileError Place := do
  match ← s.step place name with
  | .directory place => .ok place
  | .file .. => .error .notADirectory
  | .nothing _ => .error .notFound

def start (p : Path) : Place := if p.isAbsolute then ["/"] else []

def lastDirectory (s : FileStore) (p : Path) : Except FileError Place :=
  p.names.dropLast.foldlM s.enter (start p)

def walk (s : FileStore) (p : Path) : Except FileError Step :=
  match p.names.getLast? with
  | none => .ok (.directory (start p))
  | some last => do s.step (← s.lastDirectory p) last

/-! ### Reading and writing -/

def read (s : FileStore) (path : String) : Except FileError ByteArray := do
  let p ← parsePath path
  match ← s.walk p with
  | .directory _ => .error .isADirectory
  | .nothing _ => .error .notFound
  | .file _ contents => if p.endsOpen then .error .notADirectory else .ok contents

/-- The place of a file that is there or may be made there, and its bytes. A path that ends with a slash
names no file. -/
def openForWriting (s : FileStore) (path : String) : Except FileError (Place × ByteArray) := do
  let p ← parsePath path
  if p.endsOpen then
    let _ ← s.lastDirectory p
    .error .isADirectory
  else match ← s.walk p with
    | .directory _ => .error .isADirectory
    | .nothing place => .ok (place, .empty)
    | .file place contents => .ok (place, contents)

def write (s : FileStore) (path : String) (contents : ByteArray) : Except FileError FileStore := do
  let (place, _) ← s.openForWriting path
  .ok (s.put place contents)

def append (s : FileStore) (path : String) (contents : ByteArray) : Except FileError FileStore := do
  let (place, before) ← s.openForWriting path
  .ok (s.put place (before ++ contents))

def isFile (s : FileStore) (path : String) : Bool := (s.read path).toBool

/-! ### Directories -/

def makeDirectory (s : FileStore) (p : Path) : Except FileError FileStore := do
  match ← s.walk p with
  | .nothing place => .ok { s with directories := place :: s.directories }
  | _ => .error .alreadyExists

def hasDirectory (s : FileStore) (p : Path) : Bool :=
  match s.walk p with
  | .ok (.directory _) => true
  | _ => false

/-- Makes a directory and those that it lies in, where they are not there. The names come in reverse. The
store is that after all directories that could be made. -/
def makeDirectoriesAt (isAbsolute : Bool) : (reversed : List String) → FileStore →
    Except FileError Unit × FileStore
  | [], s => (.ok (), s)
  | name :: above, s =>
    let p : Path := ⟨isAbsolute, (name :: above).reverse, false⟩
    let make (s : FileStore) : Except FileError Unit × FileStore :=
      match s.makeDirectory p with
      | .ok s => (.ok (), s)
      | .error err => if s.hasDirectory p then (.ok (), s) else (.error err, s)
    match s.makeDirectory p with
    | .error .notFound =>
      match makeDirectoriesAt isAbsolute above s with
      | (.ok (), s) => make s
      | failed => failed
    | _ => make s

def makeDirectories (s : FileStore) (path : String) : Except FileError Unit × FileStore :=
  if path = "" then (.ok (), s)
  else match parsePath path with
    | .error err => (.error err, s)
    | .ok p => makeDirectoriesAt p.isAbsolute p.names.reverse s

end FileStore

end PortfolioShell
