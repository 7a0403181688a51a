import Switchboard.Http.Headers
import Switchboard.Http.Uri
import Switchboard.Request.Params

namespace Switchboard.Http

structure Request where
  method : String := "GET"
  uri : Uri
  headers : Headers := []
  body : String := ""

namespace Request

def plainHeader? (r : Request) (name : String) : Option String :=
  (Headers.first? name r.headers).bind plainValue?

-- A body without a readable content type counts as a form.
def hasForm (r : Request) : Bool :=
  match r.plainHeader? "content-type" with
  | none => true
  | some contentType => contentType.startsWith "application/x-www-form-urlencoded"

def form (r : Request) : List (String × String) :=
  if r.hasForm then Text.Form.pairs (Text.encode r.body) else []

def query (r : Request) : Params :=
  match r.uri.query with
  | some query => Params.ofForm (Text.encode query)
  | none => {}

-- The root names no program.
def route (r : Request) : Option String :=
  if r.uri.path = "" ∨ r.uri.path = "/" then none else some r.uri.path

-- Values of the form win.
def params (r : Request) : Params :=
  ((r.query.extend r.form).withRoute r.route).withAccept (r.plainHeader? "accept")

end Request
end Switchboard.Http
