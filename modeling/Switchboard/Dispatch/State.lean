import Switchboard.CallStack
import Switchboard.Cache.Programs
import Switchboard.Eval.Program
import Switchboard.Output
import Switchboard.Request.Params

namespace Switchboard

inductive Failure where
  | functionNotFound (path : FunctionPath)
  | application (message : String)
  | structural (message : String)
deriving DecidableEq, Repr

namespace Failure

def message : Failure → String
  | .functionNotFound path => "Function not found: " ++ path.text
  | .application message => message
  | .structural message => message

def status : Failure → Status
  | .functionNotFound _ => .functionNotFound
  | .application _ | .structural _ => .customError

-- Only structural failures can be kept from a client that does not take JSON.
def isAlwaysReported : Failure → Bool
  | .structural _ => false
  | _ => true

def reply (f : Failure) : Reply :=
  .error f.status f.message

end Failure

inductive Outcome where
  | completed (value : Json)
  | earlyReturn (reply : Reply)
  | suppressed (reply : Reply)
  | terminated
  | failed (failure : Failure)

structure Dispatcher where
  cache : ProgramCache
  maxDepth : Nat := 128
  params : Params := {}
  stack : CallStack := []
  context : Context := {}
  output : Output := {}
  batch : Bool := false

namespace Dispatcher
open Eval

-- hands a value to the output and unwinds as it says
def reply (d : Dispatcher) (value : Json) : Except Fault Json × Dispatcher :=
  let (output, signal) := d.output.reply value d.context.isNested d.batch
  (.error (.unwinding signal), { d with output })

-- a reply as if at the top, wherever the run is
def emit (d : Dispatcher) (value : Json) : Dispatcher :=
  { d with output := (d.output.reply value false false).1 }

def replyNotFound (d : Dispatcher) (path : FunctionPath) : Except Fault Json × Dispatcher :=
  d.reply (Failure.functionNotFound path).reply.value

end Dispatcher
end Switchboard
