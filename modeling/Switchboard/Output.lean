import Switchboard.Eval.Fault
import Switchboard.Reply

namespace Switchboard

structure Response where
  status : Nat := 200
  headers : List (String × String) := []
  contentType : Option String := none
  body : String := ""

inductive Phase where
  | opened
  | typeDecided
  | flushed
  | terminated
deriving DecidableEq, Repr

structure Output where
  phase : Phase := .opened
  contentType : Option String := none
  pending : Option Reply := none
  response : Response := {}

namespace Output

def jsonType : String := "application/json; charset=utf-8"
def textType : String := "text/plain; charset=utf-8"

def isTerminated (o : Output) : Bool :=
  o.phase == .terminated

def isUnwritten (o : Output) : Bool :=
  o.phase == .opened || o.phase == .typeDecided

-- The content type that was asked for goes before the default.
def writeHeader (o : Output) (default : String) : Output :=
  { o with response := { o.response with contentType := some (o.contentType.getD default) } }

def writeBody (o : Output) (body : String) : Output :=
  { o with response := { o.response with body } }

def terminate (o : Output) : Output :=
  { o with phase := .terminated }

def write (o : Output) : Reply → Output
  | .empty => o
  | .text content => (o.writeHeader textType).writeBody content
  | .structured fields => (o.writeHeader jsonType).writeBody (Json.object fields).render

-- After anything was written a reply only ends the output. Also tells which of the two happened.
def emit (o : Output) (reply : Reply) : Output × Bool :=
  if o.isUnwritten then ((o.write reply).terminate, true) else (o.terminate, false)

-- A reply inside a call waits for the caller, at the top of a batch entry for the batch.
def reply (o : Output) (value : Json) (nested batch : Bool) : Output × Eval.Signal :=
  let reply := Reply.normalize value
  if nested then ({ o with pending := some reply }, .earlyReturn)
  else if batch then ({ o with pending := some reply }, .suppressed)
  else ((o.emit reply).1, .terminated)

def takePending (o : Output) : Option Reply × Output :=
  (o.pending, { o with pending := none })

def setPending (o : Output) (reply : Option Reply) : Output :=
  { o with pending := reply }

def setContentType (o : Output) (contentType : String) : Output :=
  if o.isUnwritten then { o with contentType := some contentType, phase := .typeDecided } else o

def addHeader (o : Output) (name value : String) : Output :=
  if o.isUnwritten then
    { o with response := { o.response with headers := o.response.headers ++ [(name, value)] } }
  else o

def echo (o : Output) (content : String) : Output :=
  match o.phase with
  | .terminated => o
  | .flushed => o.writeBody (o.response.body ++ content)
  | .opened | .typeDecided =>
    { (o.writeHeader textType).writeBody (o.response.body ++ content) with phase := .flushed }

def finish (o : Output) : Response :=
  o.response

end Output
end Switchboard
