import Switchboard.Http.Headers
import Switchboard.Http.Reason
import Switchboard.Output

namespace Switchboard.Http

structure Answer where
  status : Nat := 200
  headers : Headers := []
  body : String := ""

namespace Answer

def contentTypeHeaders : Option String → Headers
  | none => []
  | some contentType =>
    if isLegalValue contentType then [("content-type", contentType)] else []

-- What cannot be sent is left out: a status that is none is taken for success, a content type or a
-- header field with an illegal name or value is dropped.
def ofResponse (r : Response) : Answer :=
  { status := if isStatus r.status then r.status else 200,
    headers := contentTypeHeaders r.contentType ++ Headers.ofFields r.headers,
    body := r.body }

end Answer
end Switchboard.Http
