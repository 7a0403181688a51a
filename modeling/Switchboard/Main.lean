import Switchboard.CommandLine.Invocation

namespace Switchboard.CommandLine

def usage : String := "Usage: wind [OPTIONS] [FUNCTION]"
def version : String := "wind 0.3.0"

-- A file that cannot be read is not there.
def readSource (files : Files) (path : String) : IO Files := do
  try
    let content ← IO.FS.readBinFile path
    return (files.place path content ⟨0, 0⟩).1
  catch _ => return files

-- `read` holds the paths whose sources were looked for.
partial def Arguments.runReading (a : Arguments) (files : Files) (read : List FunctionPath) :
    IO (Except Report String) := do
  let (result, cache) := a.run files
  let unread := cache.asked.eraseDups.filter fun path => !read.contains path
  if unread.isEmpty then return result
  let files ← unread.foldlM (fun files path => readSource files (cache.sourcePath path)) files
  a.runReading files (unread ++ read)

def UsageError.tell : UsageError → IO Unit
  | .displayHelp => IO.println usage
  | .displayVersion => IO.println version
  | e => IO.eprintln ("error: " ++ e.name)

def command (arguments : List String) : IO UInt32 := do
  match Arguments.parse arguments with
  | .error e =>
    e.tell
    return e.exitCode.toUInt32
  | .ok a =>
    match ← a.runReading {} [] with
    | .ok text =>
      IO.print text
      return 0
    | .error e =>
      IO.eprintln ("Error: " ++ e.message)
      return 1

end Switchboard.CommandLine

def main (arguments : List String) : IO UInt32 :=
  Switchboard.CommandLine.command arguments
