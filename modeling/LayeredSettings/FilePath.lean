/-!
Paths of files.
-/

namespace LayeredSettings.FilePath

/-- What stands between the slashes. -/
def parts (path : String) : List String := (path.toList.splitOn '/').map String.ofList

/-- A part that does not lead anywhere else. -/
def isFiller (part : String) : Bool := part = "" || part = "."

def isAbsolute (path : String) : Bool := path.startsWith "/"

/-- The names of a path from left to right. -/
def names (path : String) : List String := (parts path).filter (!isFiller ·)

/-- The last name, if it is the name of a file. -/
def fileName? (path : String) : Option String := (names path).getLast?.filter (· ≠ "..")

/-- What follows the last dot of the file name, unless that dot comes first. -/
def extension? (path : String) : Option String := do
  let name ← fileName? path
  let after := name.toList.reverse.takeWhile (· ≠ '.')
  guard (after.length + 1 < name.length)
  return String.ofList after.reverse

/-- The path without its last name and the fillers around it, a single dot if nothing is left. The
first part of a path is no filler. -/
def directory (path : String) : String :=
  match parts path with
  | [] => "."
  | first :: rest =>
    match rest.reverse.dropWhile isFiller with
    | [] => "."
    | _ :: above =>
      match above.dropWhile isFiller with
      | [] => if first = "" then "/" else first
      | kept => "/".intercalate (first :: kept.reverse)

end LayeredSettings.FilePath
