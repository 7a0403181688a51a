import Switchboard.Dispatch.Primitive

namespace Switchboard.Dispatcher
open Eval

-- runs a program in a frame of its own; a value that is not empty is a reply
def executeProgram (host : Host Dispatcher) (path : FunctionPath) (program : Source.Program) :
    Run Dispatcher Json := fun d =>
  let outer := d.stack
  match evalProgram host program { d with stack := CallFrame.of path :: outer } with
  | (.error e, d) => (.error e, { d with stack := d.stack.tail })
  | (.ok value, d) =>
    let d := { d with stack := d.stack.tail }
    if value.isEmpty then (.ok value, d) else d.reply value

def execute (host : Host Dispatcher) (path : FunctionPath) : Run Dispatcher Json := fun d =>
  match CallStack.resolve d.stack path with
  | .error e => (.error (.failed e.message), d)
  | .ok path =>
    if path.isValid then
      let (found, cache) := d.cache.resolve path
      let d := { d with cache }
      match found with
      | .ok program => executeProgram host path program d
      | .error (.notFound path) => d.replyNotFound path
      | .error e => (.error (.failed e.message), d)
    else d.replyNotFound path

def takeReply (d : Dispatcher) : Reply × Dispatcher :=
  let (pending, output) := d.output.takePending
  (pending.getD .empty, { d with output })

-- what the end of an execution means to whoever started it
def settle : Except Fault Json × Dispatcher → Outcome × Dispatcher
  | (.ok value, d) => (.completed value, d)
  | (.error (.unwinding .earlyReturn), d) => let (reply, d) := d.takeReply; (.earlyReturn reply, d)
  | (.error (.unwinding .suppressed), d) => let (reply, d) := d.takeReply; (.suppressed reply, d)
  | (.error (.unwinding .terminated), d) => (.terminated, d)
  | (.error (.thrown message), d) => (.failed (.application message), d)
  | (.error e, d) => (.failed (.structural e.message), d)

def processWithin : Nat → Callee
  | 0, path, d => settle (execute (host none) path d)
  | levels + 1, path, d => settle (execute (host (some (processWithin levels))) path d)

def levels (d : Dispatcher) : Nat :=
  d.maxDepth - d.context.depth

def run : Callee := fun path d =>
  processWithin d.levels path d

def process (d : Dispatcher) (path : FunctionPath) (reset : Bool) : Outcome × Dispatcher :=
  run path (if reset then { d with context := {} } else d)

def call (d : Dispatcher) (mode : CallMode) (path : FunctionPath) (args : Fields) :
    Outcome × Dispatcher :=
  callBy mode run path args d

end Switchboard.Dispatcher
