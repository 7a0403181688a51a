import Switchboard.CommandLine.Arguments
import Switchboard.Dispatch.Request

namespace Switchboard.CommandLine

inductive Report where
  | noFunction
  | cache (error : CacheError)
  | unhandled (error : Unhandled)

def Report.message : Report → String
  | .noFunction => "No function given; pass FUNCTION, -p f=PATH, --route or --batch"
  | .cache e => e.message
  | .unhandled e => e.message

namespace Arguments

def request (a : Arguments) : Params :=
  let given := Params.ofPairs a.params
  let named := match a.function with
    | some function => given.insert "f" function
    | none => given
  let enclosed := match a.batch with
    | some envelope => named.insert "rpkg" envelope
    | none => named
  (enclosed.withRoute a.route).withAccept a.accept

def asksNothing (a : Arguments) : Bool :=
  a.function.isNone && a.params.isEmpty && a.batch.isNone

def cache (a : Arguments) (files : Files) : ProgramCache :=
  let default : ProgramCache := {}
  { files, sourceRoot := a.sourceRoot.getD default.sourceRoot,
    cacheRoot := a.cacheRoot.getD default.cacheRoot }

def headerLines (r : Response) : String :=
  let contentType := match r.contentType with
    | some contentType => ["Content-Type: " ++ contentType]
    | none => []
  let headers := r.headers.map fun (name, value) => name ++ ": " ++ value
  String.join ((contentType ++ headers).map (· ++ "\n")) ++ "\n"

def bodyText (body : String) : String :=
  if body = "" ∨ body.endsWith "\n" then body else body ++ "\n"

def written (a : Arguments) (r : Response) : String :=
  (if a.includeHeaders then headerLines r else "") ++ bodyText r.body

def dispatch (a : Arguments) (cache : ProgramCache) : Except Report String × ProgramCache :=
  let params := a.request
  if params.values.isEmpty && params.route.isNone then (.error .noFunction, cache)
  else
    let d : Dispatcher := { cache, maxDepth := a.maxDepth.getD 128 }
    match d.respond params with
    | (.ok response, d) => (.ok (a.written response), d.cache)
    | (.error e, d) => (.error (.unhandled e), d.cache)

def run (a : Arguments) (files : Files) : Except Report String × ProgramCache :=
  let cache := a.cache files
  if a.clearCache then
    match cache.clear with
    | (.error e, cache) => (.error (.cache e), cache)
    | (.ok _, cache) => if a.asksNothing then (.ok "", cache) else a.dispatch cache
  else a.dispatch cache

end Arguments
end Switchboard.CommandLine
