import Switchboard.Dispatch.Request
import Switchboard.Http.Origins
import Switchboard.Http.Problem
import Switchboard.Http.Request
import Switchboard.Settings

namespace Switchboard.Http

structure Service where
  cache : ProgramCache
  maxDepth : Nat := 128
  origins : Origins := .any

namespace Service

def ofSettings (s : Settings) (files : Files) : Service :=
  { cache := { files, sourceRoot := s.sourceRoot, cacheRoot := s.cacheRoot }, maxDepth := s.maxDepth,
    origins := .ofList s.origins }

def maxBody : Nat := 2097152

def tooLarge : Answer :=
  { status := 413, headers := [("content-type", Output.textType)],
    body := "Failed to buffer the request body: length limit exceeded" }

def unhandled (e : Unhandled) : Answer :=
  Problem.answer
    { status := 500, title := "Unhandled fault", detail := some e.failure.message,
      subject := some e.path }

def dispatch (s : Service) (r : Request) : Answer × Service :=
  let d : Dispatcher := { cache := s.cache, maxDepth := s.maxDepth }
  match d.respond r.params with
  | (.ok response, d) => (.ofResponse response, { s with cache := d.cache })
  | (.error e, d) => (unhandled e, { s with cache := d.cache })

def hasProgram (r : Request) : Bool :=
  r.uri.path.startsWith "/"

def isDispatched (r : Request) : Bool :=
  ["GET", "HEAD", "POST"].contains r.method

def reply (s : Service) (r : Request) : Answer × Service :=
  if !hasProgram r then ({ status := 404 }, s)
  else if !isDispatched r then ({ status := 405 }, s)
  else if maxBody < r.body.utf8ByteSize then (tooLarge, s)
  else s.dispatch r

-- the methods of the path, told to who asks for another
def allowing (r : Request) (h : Headers) : Headers :=
  if hasProgram r && !isDispatched r && !Headers.has "allow" h then
    Headers.append "allow" "GET,HEAD,POST" h
  else h

def measured (body : String) (h : Headers) : Headers :=
  if Headers.has "content-length" h then h
  else Headers.append "content-length" (toString body.utf8ByteSize) h

-- The length is that of the whole body, also where the body is left out.
def finish (r : Request) (a : Answer) : Answer :=
  { a with headers := measured a.body (allowing r a.headers),
           body := if r.method = "HEAD" then "" else a.body }

def answer (s : Service) (r : Request) : Answer × Service :=
  let origin := Headers.first? "origin" r.headers
  if r.method = "OPTIONS" then (finish r { headers := s.origins.preflight origin }, s)
  else
    let (a, s) := s.reply r
    (finish r { a with headers := s.origins.mark origin a.headers }, s)

end Service
end Switchboard.Http
