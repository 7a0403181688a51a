import Switchboard.Dispatch.Process
import Switchboard.Request.Envelope

namespace Switchboard.Dispatcher

def unnamed (p : Params) : Failure :=
  .functionNotFound ⟨(p.get "f").getD ""⟩

def entryValue : Outcome → Json
  | .completed _ | .terminated => .null
  | .earlyReturn reply | .suppressed reply => reply.value
  | .failed failure => (Reply.error .customError failure.message).value

def runNamed (d : Dispatcher) : Json × Dispatcher :=
  match d.params.functionPath with
  | none => ((unnamed d.params).reply.value, d)
  | some path =>
    let (outcome, d) := d.process path true
    (entryValue outcome, d)

def entryParams (requested : Params) (entry : BatchEntry) : Option Params :=
  (Params.ofEncoded entry.encoded).map fun own => (requested.overlay own).withRoute none

def runEntry (d : Dispatcher) (requested : Params) (entry : BatchEntry) : Json × Dispatcher :=
  match entryParams requested entry with
  | none => ((Reply.error .invalidData "Invalid batch entry encoding").value, d)
  | some params => runNamed { d with params }

def runEntries (requested : Params) (done : Fields) : List BatchEntry → Dispatcher → Fields × Dispatcher
  | [], d => (done, d)
  | entry :: rest, d =>
    let (value, d) := d.runEntry requested entry
    runEntries requested (Entries.put entry.label value done) rest d

def runBatch (d : Dispatcher) (envelope : String) : Outcome × Dispatcher :=
  let requested := d.params
  let (results, d) := runEntries requested [] (Envelope.entries envelope) { d with batch := true }
  (.terminated, { d with batch := false, params := requested }.emit (.object results))

end Switchboard.Dispatcher
