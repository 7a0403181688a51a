import Switchboard.Entries
import Switchboard.Decimal.Numeral
import Switchboard.Text.Blank

namespace Switchboard

inductive Number where
  | int (value : Int)
  | float (value : Float)
deriving Inhabited

inductive Json where
  | null
  | bool (value : Bool)
  | number (value : Number)
  | string (value : String)
  | array (items : List Json)
  | object (fields : List (String × Json))
deriving Inhabited

namespace Number

def toFloat : Number → Float
  | .int n => Float.ofInt n
  | .float x => x

def same : Number → Number → Bool
  | .int a, .int b => a == b
  | .float a, .float b => a == b
  | _, _ => false

-- A whole number below 2^53 in size is an integer, any other finite number stays as it is.
def ofFloat? (x : Float) : Option Number :=
  match Decimal.Binary.ofFloat? x with
  | none => none
  | some b =>
    match b.toInt? with
    | some n => if n.natAbs < twoTo 53 then some (.int n) else some (.float x)
    | none => some (.float x)

end Number

namespace Json

-- The order of an object's fields does not matter for equality.
def same : Json → Json → Bool
  | .null, .null => true
  | .bool a, .bool b => a == b
  | .number a, .number b => a.same b
  | .string a, .string b => a == b
  | .array a, .array b => sameItems a b
  | .object a, .object b => a.length == b.length && sameFields a b
  | _, _ => false
where
  sameItems : List Json → List Json → Bool
    | [], [] => true
    | a :: as, b :: bs => same a b && sameItems as bs
    | _, _ => false
  sameFields : List (String × Json) → List (String × Json) → Bool
    | [], _ => true
    | (name, value) :: rest, other =>
      (match Entries.find name other with
        | some found => same value found
        | none => false) && sameFields rest other

def truthy : Json → Bool
  | .null => false
  | .bool b => b
  | .number n => n.toFloat != 0.0
  | .string s => s != ""
  | .array items => !items.isEmpty
  | .object fields => !fields.isEmpty

-- null and the empty string are no value at all
def isEmpty : Json → Bool
  | .null => true
  | .string s => s == ""
  | _ => false

def kind : Json → String
  | .null => "null"
  | .bool _ => "bool"
  | .number _ => "number"
  | .string _ => "string"
  | .array _ => "array"
  | .object _ => "object"

-- the number that a value stands for: a string may hold one, and true counts as 1
def toFloat? : Json → Option Float
  | .number n => some n.toFloat
  | .string s => Decimal.readFloat (Text.trimWhere Text.isBlank s.toList)
  | .bool b => some (if b then 1.0 else 0.0)
  | _ => none

def isBool : Json → Bool
  | .bool _ => true
  | _ => false

end Json
end Switchboard
