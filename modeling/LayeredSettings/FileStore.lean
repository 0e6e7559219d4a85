import LayeredSettings.FilePath
import LayeredSettings.Fault

/-!
Files below a working directory.

A path is followed name by name. Whatever is followed further has to be a directory, also when only
a slash or a dot comes after it. Names are seen from the working directory; those of a place that is
given from the root begin with a slash. Little is known outside the working directory.
-/

namespace LayeredSettings

inductive FileEntry
  | directory
  /-- A file, with its content unless that is no text. -/
  | file (content : Option String)

/-- What every system has. -/
def FileEntry.standard : List (List String × FileEntry) :=
  [(["/", "dev"], .directory), (["/", "dev", "null"], .file (some "")), (["/", "etc"], .directory),
    (["/", "tmp"], .directory), (["/", "usr"], .directory)]

structure FileStore where
  /-- Each entry under its names. -/
  entries : List (List String × FileEntry) := FileEntry.standard

namespace FileStore

/-- The working directory, a directory above it, or the root. -/
def isAbove (names : List String) : Bool := names = ["/"] || names.all (· = "..")

def entry? (s : FileStore) (names : List String) : Option FileEntry :=
  if isAbove names then some .directory else s.entries.lookup names

/-- The directory above. The root is its own. -/
def parent (names : List String) : List String :=
  if names = ["/"] then names else if isAbove names then ".." :: names else names.dropLast

/-- Where a path starts. -/
def origin (path : String) : List String := if FilePath.isAbsolute path then ["/"] else []

/-- Goes on from an entry along the parts of a path. -/
def follow (s : FileStore) (here : List String) : List String → Except ReadFault (List String)
  | [] => .ok here
  | part :: rest =>
    match s.entry? here with
    | some .directory =>
      if FilePath.isFiller part then follow s here rest
      else if part = ".." then follow s (parent here) rest
      else if (s.entry? (here ++ [part])).isSome then follow s (here ++ [part]) rest
      else .error .notFound
    | some (.file _) => .error .notADirectory
    | none => .error .notFound

/-- The names that a path leads to. -/
def locate (s : FileStore) (path : String) : Except ReadFault (List String) :=
  if path.isEmpty then .error .notFound else s.follow (origin path) (FilePath.parts path)

/-- Whether there is anything at a path. -/
def leadsSomewhere (s : FileStore) (path : String) : Bool := (s.locate path).toOption.isSome

/-- The names under which a file can be put at a path, if its directory exists. -/
def place? (s : FileStore) (path : String) : Option (List String) := do
  let name ← (FilePath.parts path).getLast?
  guard (!FilePath.isFiller name ∧ name ≠ "..")
  let above ← (s.follow (origin path) (FilePath.parts path).dropLast).toOption
  match s.entry? above with
  | some .directory => return above ++ [name]
  | _ => none

def readText (s : FileStore) (path : String) : Except ReadFault String := do
  match s.entry? (← s.locate path) with
  | some .directory => .error .isADirectory
  | some (.file (some text)) => .ok text
  | some (.file none) => .error .notText
  | none => .error .notFound

def put (s : FileStore) (names : List String) (e : FileEntry) : FileStore :=
  ⟨(names, e) :: s.entries.filter (·.1 ≠ names)⟩

def erase (s : FileStore) (names : List String) : FileStore := ⟨s.entries.filter (·.1 ≠ names)⟩

/-- Puts a file where no directory stands. -/
def putFile (s : FileStore) (names : List String) (content : Option String) : FileStore :=
  match s.entry? names with
  | some .directory => s
  | _ => s.put names (.file content)

def write (s : FileStore) (path : String) (content : Option String) : FileStore :=
  match s.place? path with
  | some names => s.putFile names content
  | none => s

/-- Moves a file to another path, where it takes the place of a file. -/
def moveFile (s : FileStore) (source target : String) : FileStore :=
  match s.place? source, s.place? target with
  | some old, some new =>
    match s.entry? old, s.entry? new with
    | _, some .directory => s
    | some (.file content), _ => (s.erase old).put new (.file content)
    | _, _ => s
  | _, _ => s

/-- Makes the directories along the parts of a path that do not exist. A file in the way is left
alone. -/
def makeDirectories (s : FileStore) (here : List String) : List String → FileStore
  | [] => s
  | part :: rest =>
    if FilePath.isFiller part then makeDirectories s here rest
    else if part = ".." then makeDirectories s (parent here) rest
    else match s.entry? (here ++ [part]) with
      | some .directory => makeDirectories s (here ++ [part]) rest
      | some (.file _) => s
      | none => makeDirectories (s.put (here ++ [part]) .directory) (here ++ [part]) rest

def makeDirectory (s : FileStore) (path : String) : FileStore :=
  s.makeDirectories (origin path) (FilePath.parts path)

/-- The names of a file that can be removed. -/
def file? (s : FileStore) (path : String) : Option (List String) := do
  let names ← (s.locate path).toOption
  match s.entry? names with
  | some (.file _) => return names
  | _ => none

/-- The names of a directory that can be removed. -/
def directory? (s : FileStore) (path : String) : Option (List String) := do
  let names ← (s.locate path).toOption
  guard (!isAbove names)
  match s.entry? names with
  | some .directory => return names
  | _ => none

def removeFile (s : FileStore) (path : String) : FileStore := (s.file? path).elim s s.erase

/-- Removes a directory with all it holds. -/
def removeDirectory (s : FileStore) (path : String) : FileStore :=
  match s.directory? path with
  | some names => ⟨s.entries.filter fun e => !names.isPrefixOf e.1⟩
  | none => s

end FileStore
end LayeredSettings
