import Switchboard.Context
import Switchboard.Json.Printer
import Switchboard.Status

namespace Switchboard

inductive Reply where
  | empty
  | text (content : String)
  | structured (fields : Fields)

namespace Reply

def statusField : String := "response"

def statusValue (s : Status) : Json :=
  .number (.int s.code)

def normalize : Json → Reply
  | .array items => .structured [(statusField, statusValue .ok), ("data", .array items)]
  | .object fields =>
    if Entries.has statusField fields then .structured fields
    else .structured ((statusField, statusValue .ok) :: fields)
  | .string s => if s = "" then .empty else .text s
  | .bool true => .text "true"
  | .number n => if n.toFloat != 0.0 then .text (Json.number n).render else .empty
  | _ => .empty

def error (status : Status) (message : String) : Reply :=
  .structured [(statusField, statusValue status), ("error", .string message)]

def value : Reply → Json
  | .empty => .null
  | .text content => .string content
  | .structured fields => .object fields

def status? : Reply → Option Nat
  | .structured fields =>
    match Entries.find statusField fields with
    | some (.number (.int n)) => if 0 ≤ n then some n.toNat else none
    | _ => none
  | _ => none

def isFailure : Reply → Bool
  | .structured fields => (structured fields).status? != some Status.ok.code
  | _ => false

def isEmpty : Reply → Bool
  | .empty => true
  | _ => false

end Reply
end Switchboard
