import Switchboard.Dispatch.State

namespace Switchboard.Dispatcher
open Eval

abbrev Callee := FunctionPath → Dispatcher → Outcome × Dispatcher

-- A sharing call works on the caller's variables, an isolating one on none of them.
inductive CallMode where
  | shared
  | isolated
deriving DecidableEq, Repr

def CallMode.operator : CallMode → String
  | .shared => "call"
  | .isolated => "icall"

-- Only the arguments are the callee's own, and they are put back.
def callShared (run : Callee) (path : FunctionPath) (args : Fields) (d : Dispatcher) :
    Outcome × Dispatcher :=
  let saved := d.context.args
  let (outcome, d) := run path { d with context := { d.context.enter with args } }
  (outcome, { d with context := { d.context with args := saved }.leave })

-- Nothing of the caller's context is visible but the depth; the whole of it is put back.
def callIsolated (run : Callee) (path : FunctionPath) (args : Fields) (d : Dispatcher) :
    Outcome × Dispatcher :=
  let caller := d.context.enter
  let (outcome, d) := run path { d with context := .isolated caller.depth args }
  (outcome, { d with context := caller.leave })

def callBy (mode : CallMode) (run : Callee) (path : FunctionPath) (args : Fields) (d : Dispatcher) :
    Outcome × Dispatcher :=
  match mode with
  | .shared => callShared run path args d
  | .isolated => callIsolated run path args d

-- what the outcome of a call means to the program that made it
def afterCall : Outcome → Run Dispatcher Json
  | .completed value => pure value
  | .earlyReturn reply => fun d => if reply.isFailure then d.reply reply.value else (.ok reply.value, d)
  | .suppressed reply => fun d =>
    (.error (.unwinding .suppressed), { d with output := d.output.setPending (some reply) })
  | .terminated => Run.fail (.unwinding .terminated)
  | .failed (.application message) => Run.fail (.thrown message)
  | .failed failure => Run.fail (.failed failure.message)

def namedArgs (mode : CallMode) : List Json → Except Fault Fields
  | [] => .ok []
  | .null :: _ => .ok []
  | .object fields :: _ => .ok fields
  | other :: _ => .error (.argumentTypes mode.operator ["string", other.kind])

def depthExceeded (d : Dispatcher) (name : String) : Fault :=
  .failed ("Maximum call depth of " ++ toString d.maxDepth ++ " exceeded calling \"" ++ name ++ "\"")

-- A call needs room below the greatest depth.
def callOperator (callee : Option Callee) (mode : CallMode) : List Json → Run Dispatcher Json
  | [] => Run.fail (.argumentCount mode.operator 1 0)
  | name :: rest =>
    match namedArgs mode rest with
    | .error e => Run.fail e
    | .ok args => fun d =>
      match callee with
      | none => (.error (d.depthExceeded name.text), d)
      | some run =>
        if d.maxDepth ≤ d.context.depth then (.error (d.depthExceeded name.text), d)
        else
          let (outcome, d) := callBy mode run ⟨name.text⟩ args d
          afterCall outcome d

-- ends the request, or in a batch the entry
def stop : Run Dispatcher Json := fun d =>
  if d.batch then (.error (.unwinding .suppressed), { d with output := d.output.setPending none })
  else (.error (.unwinding .terminated), { d with output := d.output.terminate })

-- Output of batch entries is dropped.
def unlessBatch (change : Output → Output) : Run Dispatcher Json := fun d =>
  (.ok .null, if d.batch then d else { d with output := change d.output })

def isContentType (name : String) : Bool :=
  name.map Char.toLower == "content-type"

def setHeader (name value : String) : Run Dispatcher Json :=
  if name = "" then Run.fail (.failed "Header name must not be empty")
  else unlessBatch fun o => if isContentType name then o.setContentType value else o.addHeader name value

-- a header in one line, or as a name and a value
def header : List Json → Run Dispatcher Json
  | [line] =>
    match Text.cutString ':' line.text with
    | some (name, value) => setHeader (Text.trim name) (Text.trim value)
    | none => Run.fail (.failed ("Invalid header line \"" ++ line.text ++ "\""))
  | [name, value] => setHeader name.text value.text
  | args => Run.fail (.argumentCount "header" 1 args.length)

def contentType : List Json → Run Dispatcher Json
  | [value] => unlessBatch fun o => o.setContentType value.text
  | args => Run.fail (.argumentCount "content-type" 1 args.length)

def spaced (args : List Json) : String :=
  String.intercalate " " (args.map Json.text)

def echoLine (args : List Json) : String :=
  spaced args ++ "\n"

def request : List Json → Run Dispatcher Json
  | [] => fun d => (.ok d.params.toJson, d)
  | [name] => fun d => (.ok ((d.params.get name.text).elim .null .string), d)
  | args => Run.fail (.argumentCount "request" 1 args.length)

inductive Primitive where
  | header | contentType | reply | stop | echo | trace | call | icall | throw | request
deriving DecidableEq, Repr

def Primitive.ofName? (name : String) : Option Primitive :=
  match name with
  | "header" => some .header
  | "content-type" => some .contentType
  | "return" => some .reply
  | "stop" => some .stop
  | "echo" => some .echo
  | "trace" => some .trace
  | "call" => some .call
  | "icall" => some .icall
  | "throw" => some .throw
  | "request" => some .request
  | _ => none

def Primitive.run (callee : Option Callee) (p : Primitive) (args : List Json) : Run Dispatcher Json :=
  match p with
  | .header => Dispatcher.header args
  | .contentType => Dispatcher.contentType args
  | .reply => fun d => d.reply (args.head?.getD .null)
  | .stop => Dispatcher.stop
  | .echo => unlessBatch fun o => o.echo (echoLine args)
  | .trace => pure .null
  | .call => callOperator callee .shared args
  | .icall => callOperator callee .isolated args
  | .throw => Run.fail (.thrown (spaced args))
  | .request => Dispatcher.request args

def host (callee : Option Callee) : Host Dispatcher where
  context d := d.context
  withContext d context := { d with context }
  call operator args d :=
    match Primitive.ofName? operator with
    | some p =>
      let (r, d) := p.run callee args d
      (some r, d)
    | none => (none, d)

end Switchboard.Dispatcher
