import LogWatch.Text.Split

/-!
Paths as texts. `steps` is what a disk walks, `parts` what tells two paths apart: repeated
slashes, a trailing slash and a dot between slashes name nothing, but a leading dot and every
pair of dots do.
-/

namespace LogWatch.Path

/-- The pieces between slashes, empty ones included. -/
def pieces (s : List Char) : List (List Char) := Text.split '/' s

def isRooted (path : String) : Bool := path.toList.head? == some '/'

/-- Names from the start to the end of a path; a trailing slash asks for a folder, like a dot. -/
def steps (path : String) : List String :=
  let ps := (pieces path.toList).map String.ofList
  let names := ps.filter (· ≠ "")
  if ps.getLast? == some "" && !names.isEmpty then names ++ ["."] else names

/-- The names in a path; a trailing slash is none. -/
def names (path : String) : List String := ((pieces path.toList).map String.ofList).filter (· ≠ "")

def lastName (path : String) : Option String := (names path).getLast?

/-- What a path is compared by. -/
structure Parts where
  rooted : Bool
  dotted : Bool
  names : List String
deriving DecidableEq, Repr

def parts (path : String) : Parts :=
  let ps := (pieces path.toList).map String.ofList
  let rooted := isRooted path
  ⟨rooted, !rooted && ps.head? == some ".", ps.filter fun p => p ≠ "" && p ≠ "."⟩

/-- The path of `name` inside the folder `path`. -/
def join (path name : String) : String :=
  if path = "" then name
  else if path.toList.getLast? == some '/' then path ++ name
  else path ++ "/" ++ name

end LogWatch.Path
