import Switchboard.Cache.Artifact
import Switchboard.Path
import Switchboard.Source.Comment
import Switchboard.Source.Parser

namespace Switchboard

inductive CacheError where
  | notFound (path : FunctionPath)
  | parse (path : FunctionPath) (error : Source.SourceError)
  | access (place : String) (obstacle : Obstacle)

def CacheError.message : CacheError → String
  | .notFound path => "Function not found: " ++ path.text
  | .parse path e => "Failed to parse \"" ++ path.text ++ "\": " ++ e.message
  | .access place obstacle => "Failed to access " ++ place ++ ": " ++ obstacle.message

structure ProgramCache where
  files : Files := {}
  sourceRoot : String := "resources/wind"
  cacheRoot : String := "resources/windc"
  -- whether artifacts can be stored and removed
  writable : Bool := true
  parseCount : Nat := 0
  asked : List FunctionPath := []

namespace ProgramCache

def suffix : String := ".fn"

-- `a.b.c` is the file c.fn in the folder b of the folder a
def sourcePath (c : ProgramCache) (path : FunctionPath) : String :=
  let segments := path.segments
  let folder := segments.dropLast.foldl FilePath.push c.sourceRoot
  FilePath.push folder (segments.getLastD "" ++ suffix)

-- `a.b.c` is kept flat
def artifactPath (c : ProgramCache) (path : FunctionPath) : String :=
  FilePath.push c.cacheRoot (path.text ++ suffix)

def fingerprint (c : ProgramCache) (path : FunctionPath) : Except CacheError Fingerprint :=
  let source := c.sourcePath path
  match c.files.look source with
  | .ok (.file _ changed) => .ok (.ofTime changed)
  | .ok .folder => .error (.notFound path)
  | .error .missing => .error (.notFound path)
  | .error e => .error (.access source e)

-- An artifact serves if it was made for this fingerprint by its own time and by what it says.
def load (c : ProgramCache) (path : FunctionPath) (f : Fingerprint) : Option Source.Program :=
  match c.files.look (c.artifactPath path) with
  | .ok (.file content changed) =>
    if Fingerprint.ofTime changed = f then
      match Artifact.ofBytes content with
      | some a =>
        if a.version = Artifact.currentVersion ∧ a.fingerprint = f then some a.program else none
      | none => none
    else none
  | _ => none

def compileText (path : FunctionPath) (code : String) : Except CacheError Source.Program :=
  match Source.parse (String.ofList (Source.stripComments code.toList)) with
  | .error e => .error (.parse path e)
  | .ok program => .ok (program.filter Source.Node.isTemplate)

def compile (c : ProgramCache) (path : FunctionPath) : Except CacheError Source.Program :=
  let source := c.sourcePath path
  match c.files.read source with
  | .error e => .error (.access source e)
  | .ok content =>
    match String.fromUTF8? content with
    | none => .error (.access source .notText)
    | some code => compileText path code

-- The folder is made even if the artifact itself cannot be written.
def store (c : ProgramCache) (path : FunctionPath) (f : Fingerprint) (program : Source.Program) :
    ProgramCache :=
  if c.writable then
    match c.files.makeFolder c.cacheRoot with
    | (files, some _) => { c with files }
    | (files, none) =>
      let artifact : Artifact := ⟨Artifact.currentVersion, f, program⟩
      match files.write (c.artifactPath path) artifact.toBytes f.toTime with
      | .error _ => { c with files }
      | .ok files => { c with files }
  else c

def fetch (c : ProgramCache) (path : FunctionPath) :
    Except CacheError Source.Program × ProgramCache :=
  match c.fingerprint path with
  | .error e => (.error e, c)
  | .ok f =>
    match c.load path f with
    | some program => (.ok program, c)
    | none =>
      match c.compile path with
      | .error e => (.error e, c)
      | .ok program => (.ok program, { c with parseCount := c.parseCount + 1 }.store path f program)

def resolve (c : ProgramCache) (path : FunctionPath) :
    Except CacheError Source.Program × ProgramCache :=
  fetch { c with asked := path :: c.asked } path

-- A name that is nothing but the suffix has none.
def isArtifactName (name : String) : Bool :=
  name.endsWith suffix && name != suffix

-- Removes the artifacts and says how many there were, or which one could not be removed; folders and other
-- files stay.
def clear (c : ProgramCache) : Except CacheError Nat × ProgramCache :=
  match c.files.follow c.cacheRoot with
  | .ok (_, none) => (.ok 0, c)
  | .error .missing => (.ok 0, c)
  | .error e => (.error (.access c.cacheRoot e), c)
  | .ok (_, some (.file ..)) => (.error (.access c.cacheRoot .notFolder), c)
  | .ok (root, some .folder) =>
    let names := (c.files.children root).filterMap fun (name, entry) =>
      match entry with
      | .file .. => if isArtifactName name then some name else none
      | .folder => none
    match c.writable, names with
    | false, name :: _ => (.error (.access (FilePath.push c.cacheRoot name) .denied), c)
    | _, _ =>
      let files := names.foldl (fun files name => files.drop (root ++ [name])) c.files
      (.ok names.length, { c with files })

def artifactNames (c : ProgramCache) : List String :=
  match c.files.follow c.cacheRoot with
  | .ok (root, some .folder) =>
    ((c.files.children root).map Prod.fst).mergeSort fun a b => decide (a ≤ b)
  | _ => []

end ProgramCache
end Switchboard
