import Switchboard.Json.Value
import Switchboard.Text.Split

namespace Switchboard

abbrev Fields := Entries Json

-- The depth counts the calls around the program that is running, up to a bound never passed.
structure Context where
  vars : Fields := []
  args : Fields := []
  depth : Nat := 0

namespace Context

def argsName : String := "args"

def maxDepth : Nat := twoTo 32 - 1

def isolated (depth : Nat) (args : Fields) : Context :=
  { args, depth }

def isNested (c : Context) : Bool :=
  decide (0 < c.depth)

def enter (c : Context) : Context :=
  { c with depth := min (c.depth + 1) maxDepth }

def leave (c : Context) : Context :=
  { c with depth := c.depth - 1 }

def segments (path : String) : List String :=
  Text.fields '.' path

def member (segment : String) : Json → Option Json
  | .object fields => Entries.find segment fields
  | .array items => (Decimal.readNat segment.toList).bind fun i => items[i]?
  | _ => none

def navigate : List String → Json → Option Json
  | [], value => some value
  | segment :: rest, value => (member segment value).bind (navigate rest)

-- the object that stands under a name, an empty one where something else does
def branch (segment : String) (fields : Fields) : Fields :=
  match Entries.find segment fields with
  | some (.object inner) => inner
  | _ => []

def assign : List String → Json → Fields → Fields
  | [], _, fields => fields
  | [last], value, fields => Entries.put last value fields
  | segment :: rest, value, fields =>
    Entries.put segment (.object (assign rest value (branch segment fields))) fields

def get (c : Context) (path : String) : Option Json :=
  match segments path with
  | [] => none
  | root :: rest =>
    if root = argsName then
      if rest = [] then none else navigate rest (.object c.args)
    else navigate (root :: rest) (.object c.vars)

-- The arguments as a whole can be looked up too; what is not there is null.
def lookup (c : Context) (path : String) : Json :=
  if path = argsName then .object c.args else (c.get path).getD .null

def replaceArgs (c : Context) : Json → Context
  | .object fields => { c with args := fields }
  | _ => c

def set (c : Context) (path : String) (value : Json) : Context :=
  match segments path with
  | [] => c
  | root :: rest =>
    if root = argsName then
      if rest = [] then c.replaceArgs value else { c with args := assign rest value c.args }
    else { c with vars := assign (root :: rest) value c.vars }

end Context
end Switchboard
