import Switchboard.Context
import Switchboard.Path
import Switchboard.Text.Base64
import Switchboard.Text.Blank
import Switchboard.Text.Form

namespace Switchboard

structure Params where
  values : Entries String := []
  route : Option String := none
  accept : Option String := none
deriving DecidableEq, Repr

namespace Params

def insert (p : Params) (name value : String) : Params :=
  { p with values := Entries.put name value p.values }

def extend (p : Params) (pairs : List (String × String)) : Params :=
  { p with values := Entries.putAll p.values pairs }

def ofPairs (pairs : List (String × String)) : Params :=
  extend {} pairs

def get (p : Params) (name : String) : Option String :=
  Entries.find name p.values

def withRoute (p : Params) (route : Option String) : Params :=
  { p with route }

def withAccept (p : Params) (accept : Option String) : Params :=
  { p with accept }

def toJson (p : Params) : Json :=
  .object (p.values.map fun (name, value) => (name, .string value))

-- `f` names the program if it is there at all; the route does otherwise.
def functionPath (p : Params) : Option FunctionPath :=
  match p.get "f" with
  | some raw => FunctionPath.extract raw
  | none => p.route.bind FunctionPath.ofRoute

def envelope (p : Params) : Option String :=
  (p.get "rpkg").or (p.get "mreq")

def overlay (p other : Params) : Params :=
  p.extend other.values

-- A client that does not say takes everything.
def acceptsJson (p : Params) : Bool :=
  match p.accept with
  | none => true
  | some accept => Text.occursIn "json".toList accept.toList || Text.occursIn "*/*".toList accept.toList

def ofForm (bytes : List UInt8) : Params :=
  ofPairs (Text.Form.pairs bytes)

-- base64 of the text of a form
def ofEncoded (encoded : String) : Option Params := do
  let bytes ← Text.Base64.decode (Text.trimWhere Text.isBlank encoded.toList)
  let form ← String.fromUTF8? ⟨bytes.toArray⟩
  some (ofForm (Text.encode form))

end Params
end Switchboard
