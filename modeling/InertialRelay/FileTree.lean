import InertialRelay.Fault
import InertialRelay.FilePath

/-!
# Files of a run

The files and directories that a run of the relay sees. A path is followed name by name: all names
but the last have to be directories, and what the last one may be depends on what is done with it.
-/

namespace InertialRelay

/-- Directories, and files with their texts. -/
structure FileTree where
  directories : List FilePath := []
  files : List (FilePath × String) := []
  deriving Repr, DecidableEq

namespace FileTree

/-- What every system has: some directories at the root, and a file that is always empty. -/
def standard : FileTree where
  directories := ["bin", "dev", "etc", "home", "tmp", "usr", "var"].map fun name => ["/", name]
  files := [(["/", "dev", "null"], "")]

/-- The tree of the given files below the directory of the start. -/
def ofFiles (files : List (String × String)) : FileTree where
  directories := standard.directories ++ (files.flatMap fun (name, _) =>
    (FilePath.places name).dropLast).eraseDups
  files := standard.files ++ files.map fun (name, text) => (FilePath.ofText name, text)

def isDirectory (t : FileTree) (p : FilePath) : Bool :=
  p == ["/"] || p.all (· == "..") || t.directories.contains p

def isFile (t : FileTree) (p : FilePath) : Bool := t.files.any (·.1 == p)

/-! ### Following a path -/

/-- The most bytes of a name. -/
def nameLimit : Nat := 255

/-- The most bytes of a path. -/
def pathLimit : Nat := 4095

/-- What a path leads to. -/
inductive Spot where
  | directory (p : FilePath)
  | file (p : FilePath)
  /-- A name that is free. -/
  | vacant (p : FilePath)
  deriving Repr, DecidableEq

/-- The directory that names lead to; the path is shown in a complaint. -/
def descend (t : FileTree) (path : String) : FilePath → List String → Except Fault FilePath
  | p, [] => .ok p
  | p, name :: rest =>
    if name == "." || name == ".." then descend t path (p.enter name) rest
    else if nameLimit < name.utf8ByteSize then .error (.nameTooLong path)
    else if t.isDirectory (p ++ [name]) then descend t path (p ++ [name]) rest
    else if t.isFile (p ++ [name]) then .error (.notDirectory path)
    else .error (.notFound path)

/-- What a path leads to, if all its names but the last are directories. -/
def spot (t : FileTree) (path : String) : Except Fault Spot := do
  if path.contains (Char.ofNat 0) then throw .nullInPath
  if pathLimit < path.utf8ByteSize then throw (.nameTooLong path)
  if path.isEmpty then throw (.notFound path)
  let names := FilePath.names path
  let p ← t.descend path (FilePath.start path) names.dropLast
  match names.getLast? with
  | none => return .directory p
  | some name =>
    if name == "." || name == ".." then return .directory (p.enter name)
    else if t.isDirectory (p ++ [name]) then return .directory (p ++ [name])
    else if t.isFile (p ++ [name]) then return .file (p ++ [name])
    else return .vacant (p ++ [name])

/-- Whether a path ends in a slash. -/
def asksDirectory (path : String) : Bool := path.endsWith "/"

/-- Whether the last name on the way to a place is too long. -/
def tooLong (p : FilePath) : Bool := nameLimit < (p.getLast?.getD "").utf8ByteSize

/-- Whether a path leads to something. -/
def reaches (t : FileTree) (path : String) : Bool :=
  match t.spot path with
  | .ok (.directory _) => true
  | .ok (.file _) => !asksDirectory path
  | _ => false

/-! ### What is done with paths -/

/-- The text of the file at a path. -/
def read (t : FileTree) (path : String) : Except Fault String := do
  match ← t.spot path with
  | .directory _ => throw (.isDirectory path)
  | .file p =>
    if asksDirectory path then throw (.notDirectory path)
    else return (t.files.lookup p).getD ""
  | .vacant p => throw (if tooLong p then .nameTooLong path else .notFound path)

/-- Opens the file at a path for appending, and makes it if need be. -/
def openAppend (t : FileTree) (path : String) : Except Fault (FilePath × FileTree) := do
  match ← t.spot path with
  | .directory _ => throw (.isDirectory path)
  | .file p => if asksDirectory path then throw (.isDirectory path) else return (p, t)
  | .vacant p =>
    if asksDirectory path then throw (.isDirectory path)
    else if tooLong p then throw (.nameTooLong path)
    else return (p, { t with files := t.files ++ [(p, "")] })

/-- Appends to a file that is open. -/
def append (t : FileTree) (p : FilePath) (text : String) : FileTree :=
  { t with files := t.files.map fun (q, old) => (q, if q = p then old ++ text else old) }

/-- Makes a directory where none is yet. -/
def makeDirectory (t : FileTree) (path : String) : Except Fault FileTree := do
  match ← t.spot path with
  | .directory _ => return t
  | .file _ => throw (.alreadyExists path)
  | .vacant p =>
    if tooLong p then throw (.nameTooLong path)
    else return { t with directories := t.directories ++ [p] }

/-- Makes a directory, and keeps the tree where that fails. -/
def tryMake (t : FileTree) (path : String) : FileTree × Option Fault :=
  match t.makeDirectory path with
  | .ok t => (t, none)
  | .error f => (t, some f)

/-- Whether the last name of a path is a dot, so that the path names what is before it. -/
def endsInDot (path : String) : Bool := (FilePath.names path).getLast? == some "."

/-- Makes the first of some paths a directory. If the path behind it leads nowhere, that is made
first, in the same way; a file that was in its place is not complained about there. -/
def makeInTurn (t : FileTree) : List String → FileTree × Option Fault
  | [] => (t, none)
  | [path] => t.tryMake path
  | path :: head :: more =>
    if t.reaches head then t.tryMake path
    else
      match makeInTurn t (head :: more) with
      | (t, none) | (t, some (.alreadyExists _)) =>
        if endsInDot path then (t, none) else t.tryMake path
      | stopped => stopped

/-- Makes a directory and those on the way to it. -/
def makeDirectories (t : FileTree) (path : String) : FileTree × Option Fault :=
  t.makeInTurn (FilePath.heads path)

/-- The directories of a tree that were not there before, in the order in which they were made. -/
def createdDirectories (before after : FileTree) : List FilePath :=
  after.directories.filter fun p => !before.isDirectory p

/-- The files of a tree that were not there before, below the directory of the start. -/
def created (before after : FileTree) : List (FilePath × String) :=
  after.files.filter fun (p, _) => !before.isFile p && p.isLocal

end FileTree

end InertialRelay
