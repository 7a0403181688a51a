import Switchboard.Http.Answer

namespace Switchboard.Http

structure Problem where
  status : Nat
  title : String
  detail : Option String := none
  subject : Option String := none
deriving DecidableEq, Repr

namespace Problem

def ofStatus (status : Nat) : Problem :=
  { status, title := (reason? status).getD "Error" }

def ofStatus? (status : Nat) : Option Problem :=
  if isStatus status then some (ofStatus status) else none

def member (name : String) : Option String → Fields
  | none => []
  | some content => [(name, .string content)]

def toJson (p : Problem) : Json :=
  .object
    ([("type", .string "about:blank"), ("status", .number (.int p.status)),
      ("title", .string p.title)] ++ member "detail" p.detail ++ member "instance" p.subject)

def answer (p : Problem) : Answer :=
  { status := p.status, headers := [("content-type", "application/problem+json")],
    body := p.toJson.render }

end Problem
end Switchboard.Http
