import Switchboard.Dispatch.Batch

namespace Switchboard

-- a failure that the transport has to report
structure Unhandled where
  path : String
  failure : Failure
deriving DecidableEq, Repr

def Unhandled.message (e : Unhandled) : String :=
  "Unhandled fault while dispatching \"" ++ e.path ++ "\": " ++ e.failure.message

namespace Dispatcher

-- what is run, and the name under which its failure is reported
def start (d : Dispatcher) (params : Params) : String × Outcome × Dispatcher :=
  let d := { d with params, context := {} }
  match params.envelope with
  | some envelope => ("<batch>", d.runBatch envelope)
  | none =>
    match params.functionPath with
    | some path => (path.text, d.process path true)
    | none => ("<none>", .failed (unnamed params), d)

def respond (d : Dispatcher) (params : Params) : Except Unhandled Response × Dispatcher :=
  match d.start params with
  | (label, .failed failure, d) =>
    if failure.isAlwaysReported || d.params.acceptsJson then
      let d := d.emit failure.reply.value
      (.ok d.output.finish, d)
    else (.error ⟨label, failure⟩, d)
  | (_, _, d) => (.ok d.output.finish, d)

end Dispatcher
end Switchboard
