import Switchboard.Http.Headers

namespace Switchboard.Http

inductive Origins where
  | any
  | only (origins : List String)
deriving DecidableEq, Repr

namespace Origins

-- A list that cannot be sent, or that holds an asterisk, allows every origin.
def ofList (origins : List String) : Origins :=
  if origins.contains "*" || !origins.all isLegalValue then .any else .only origins

def allowed? : Origins → Option String → Option String
  | .any, _ => some "*"
  | .only origins, origin => origin.filter origins.contains

def varying : String :=
  "origin, access-control-request-method, access-control-request-headers"

-- What the program says on the same matter gives way, but its `vary` stays in front.
def mark (o : Origins) (origin : Option String) (h : Headers) : Headers :=
  let h := Headers.append "vary" varying h
  match o.allowed? origin with
  | some value => Headers.insert "access-control-allow-origin" value h
  | none => h

-- the answer to a browser that asks before its request
def preflight (o : Origins) (origin : Option String) : Headers :=
  o.mark origin
    [("access-control-allow-methods", "GET,POST"), ("access-control-allow-headers", "*")]

end Origins
end Switchboard.Http
