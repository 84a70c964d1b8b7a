/-!
# Paths

A path as text goes from name to name, and what stands on the way decides where it leads. A place is
where it led: the names from the directory of the start down, after a slash those from the root
down, and two dots for every step above the start.
-/

namespace InertialRelay

/-- A place in the file system. -/
abbrev FilePath := List String

namespace FilePath

/-- The directory around a place. -/
def up (p : FilePath) : FilePath :=
  if p == ["/"] then p
  else if p.all (· == "..") then p ++ [".."]
  else p.dropLast

/-- The place that a name leads to from a directory. -/
def enter (p : FilePath) (name : String) : FilePath :=
  if name == "" || name == "." then p
  else if name == ".." then p.up
  else p ++ [name]

/-- Where a path begins. -/
def start (s : String) : FilePath := if s.startsWith "/" then ["/"] else []

/-- The places on the way of a path whose names are all directories, and its end. -/
def places (s : String) : List FilePath :=
  ((s.splitOn "/").foldl (fun (p, seen) name => (p.enter name, seen ++ [p.enter name]))
    (start s, [])).2.eraseDups

/-- The place of a path whose names are all directories. -/
def ofText (s : String) : FilePath := (s.splitOn "/").foldl enter (start s)

/-- A path that leads to a place. -/
def toText (p : FilePath) : String :=
  match p with
  | [] => "."
  | "/" :: names => "/" ++ "/".intercalate names
  | names => "/".intercalate names

/-- Whether a place is in the directory of the start or below. -/
def isLocal (p : FilePath) : Bool := !p.isEmpty && p.head? != some "/" && p.head? != some ".."

/-- The path of a name in a directory, unless the name begins at the root. -/
def join (dir name : String) : String :=
  if name.startsWith "/" then name
  else if dir.endsWith "/" then dir ++ name
  else dir ++ "/" ++ name

/-- The names of a path. -/
def names (s : String) : List String := (s.splitOn "/").filter (· ≠ "")

/-- The paths on the way of a path, each down to one of its names, the longest first; the first is
the whole path, with the slashes at its end. -/
def heads (s : String) : List String :=
  let step (acc : Option String × List String) (name : String) : Option String × List String :=
    let path := match acc.1 with
      | some path => path ++ "/" ++ name
      | none => name
    (some path, if name = "" then acc.2 else path :: acc.2)
  s :: (((s.splitOn "/").foldl step (none, [])).2).drop 1

end FilePath

end InertialRelay
