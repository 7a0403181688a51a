import Switchboard.Text.Split

namespace Switchboard

-- since 1970; a time before has negative seconds
structure Time where
  secs : Int
  nanos : Nat
deriving DecidableEq, Repr

inductive FileEntry where
  | file (content : ByteArray) (changed : Time)
  | folder

inductive Obstacle where
  | missing
  | notFolder
  | isFolder
  | nameTooLong
  | nulInName
  | notText
  | denied
deriving DecidableEq, Repr

def Obstacle.message : Obstacle → String
  | .missing => "No such file or directory (os error 2)"
  | .notFolder => "Not a directory (os error 20)"
  | .isFolder => "Is a directory (os error 21)"
  | .nameTooLong => "File name too long (os error 36)"
  | .nulInName => "file name contained an unexpected NUL byte"
  | .notText => "stream did not contain valid UTF-8"
  | .denied => "Permission denied (os error 13)"

-- the names on the way down from the root
abbrev Location := List String

-- one part of a path, between its slashes
inductive Step where
  | stay
  | up
  | into (name : String)
deriving DecidableEq, Repr

def Step.ofPart (part : String) : Step :=
  if part = "" ∨ part = "." then .stay
  else if part = ".." then .up
  else .into part

namespace FilePath

-- A path that begins with a slash stands for itself, any other is put behind the base.
def push (base piece : String) : String :=
  if piece.startsWith "/" then piece
  else if base = "" ∨ base.endsWith "/" then base ++ piece
  else base ++ "/" ++ piece

def steps (path : String) : List Step :=
  (Text.fields '/' path).map Step.ofPart

def parent (path : String) : String :=
  let parts := (Text.fields '/' path).reverse
  "/".intercalate ((parts.dropWhile fun part => Step.ofPart part = .stay).drop 1).reverse

end FilePath

structure Files where
  entries : List (Location × FileEntry) := []

namespace Files

def maxName : Nat := 255
def maxPath : Nat := 4095

def find (files : Files) (location : Location) : Option FileEntry :=
  (files.entries.find? fun entry => entry.1 == location).map Prod.snd

def put (files : Files) (location : Location) (entry : FileEntry) : Files :=
  ⟨(location, entry) :: files.entries.filter fun old => old.1 != location⟩

def drop (files : Files) (location : Location) : Files :=
  ⟨files.entries.filter fun old => old.1 != location⟩

-- No path leads anywhere if it is too long as a whole or cannot be a name.
def refusal (path : String) : Option Obstacle :=
  if path.toList.contains (Char.ofNat 0) then some .nulInName
  else if maxPath < path.utf8ByteSize then some .nameTooLong
  else none

-- from a folder to what is there, or to a name that is free
def walk (files : Files) (above : Location) :
    List Step → Except Obstacle (Location × Option FileEntry)
  | [] => .ok (above, some .folder)
  | .stay :: rest => walk files above rest
  | .up :: rest => walk files above.dropLast rest
  | .into name :: rest =>
    if maxName < name.utf8ByteSize then .error .nameTooLong
    else match files.find (above ++ [name]), rest with
      | none, [] => .ok (above ++ [name], none)
      | none, _ :: _ => .error .missing
      | some entry, [] => .ok (above ++ [name], some entry)
      | some (.file ..), _ :: _ => .error .notFolder
      | some .folder, rest => walk files (above ++ [name]) rest

def follow (files : Files) (path : String) : Except Obstacle (Location × Option FileEntry) :=
  match refusal path with
  | some obstacle => .error obstacle
  | none => files.walk [] (FilePath.steps path)

def look (files : Files) (path : String) : Except Obstacle FileEntry :=
  match files.follow path with
  | .ok (_, some entry) => .ok entry
  | .ok (_, none) => .error .missing
  | .error e => .error e

def read (files : Files) (path : String) : Except Obstacle ByteArray :=
  match files.look path with
  | .ok (.file content _) => .ok content
  | .ok .folder => .error .isFolder
  | .error e => .error e

def write (files : Files) (path : String) (content : ByteArray) (changed : Time) :
    Except Obstacle Files :=
  match files.follow path with
  | .ok (_, some .folder) => .error .isFolder
  | .ok (location, _) => .ok (files.put location (.file content changed))
  | .error e => .error e

def makeFolders (files : Files) (above : Location) : List Step → Files × Option Obstacle
  | [] => (files, none)
  | .stay :: rest => makeFolders files above rest
  | .up :: rest => makeFolders files above.dropLast rest
  | .into name :: rest =>
    if maxName < name.utf8ByteSize then (files, some .nameTooLong)
    else match files.find (above ++ [name]) with
      | some (.file ..) => (files, some .notFolder)
      | some .folder => makeFolders files (above ++ [name]) rest
      | none => makeFolders (files.put (above ++ [name]) .folder) (above ++ [name]) rest

-- A folder, and every folder above it that is missing; those made in front of an obstacle stay.
def makeFolder (files : Files) (path : String) : Files × Option Obstacle :=
  match refusal path with
  | some obstacle => (files, some obstacle)
  | none => files.makeFolders [] (FilePath.steps path)

def place (files : Files) (path : String) (content : ByteArray) (changed : Time) :
    Files × Option Obstacle :=
  match files.makeFolder (FilePath.parent path) with
  | (files, some e) => (files, some e)
  | (files, none) =>
    match files.write path content changed with
    | .ok files => (files, none)
    | .error e => (files, some e)

def remove (files : Files) (path : String) : Except Obstacle Files :=
  match files.follow path with
  | .ok (location, some (.file ..)) => .ok (files.drop location)
  | .ok (_, some .folder) => .error .isFolder
  | .ok (_, none) => .error .missing
  | .error e => .error e

def touch (files : Files) (path : String) (changed : Time) : Except Obstacle Files :=
  match files.follow path with
  | .ok (location, some (.file content _)) => .ok (files.put location (.file content changed))
  | .ok (_, some .folder) => .error .isFolder
  | .ok (_, none) => .error .missing
  | .error e => .error e

def removeAll (files : Files) (path : String) : Files :=
  match files.follow path with
  | .ok (location, _) => ⟨files.entries.filter fun old => !location.isPrefixOf old.1⟩
  | .error _ => files

def children (files : Files) (location : Location) : List (String × FileEntry) :=
  files.entries.filterMap fun (place, entry) =>
    match place.getLast? with
    | some name => if place.dropLast = location then some (name, entry) else none
    | none => none

end Files
end Switchboard
