import Switchboard.Decimal.Layout
import Switchboard.Json.Value
import Switchboard.Text.Quoted

namespace Switchboard.Json

-- Powers of ten from -5 to 15 are written out; a half goes to the even digit.
def layout : Decimal.Layout := ⟨some (-5, 15), ['.', '0'], .even⟩

def escaped (c : Char) : List Char :=
  if c = '"' then ['\\', '"']
  else if c = '\\' then ['\\', '\\']
  else if c = '\x08' then ['\\', 'b']
  else if c = '\t' then ['\\', 't']
  else if c = '\n' then ['\\', 'n']
  else if c = '\x0c' then ['\\', 'f']
  else if c = '\r' then ['\\', 'r']
  else if c.toNat < 0x20 then
    ['\\', 'u', '0', '0', Text.hexDigit (c.toNat / 16), Text.hexDigit (c.toNat % 16)]
  else [c]

def writeString (s : String) (rest : List Char) : List Char :=
  '"' :: (s.toList.flatMap escaped ++ '"' :: rest)

def writeInt (n : Int) (rest : List Char) : List Char :=
  if n < 0 then '-' :: (Decimal.digits n.natAbs ++ rest) else Decimal.digits n.natAbs ++ rest

-- There is no text for an infinity or NaN.
def writeNumber (n : Number) (rest : List Char) : List Char :=
  match n with
  | .int n => writeInt n rest
  | .float x =>
    match Decimal.Binary.ofFloat? x with
    | some b => layout.render b ++ rest
    | none => "null".toList ++ rest

mutual

def write : Json → List Char → List Char
  | .null, rest => "null".toList ++ rest
  | .bool true, rest => "true".toList ++ rest
  | .bool false, rest => "false".toList ++ rest
  | .number n, rest => writeNumber n rest
  | .string s, rest => writeString s rest
  | .array items, rest => '[' :: writeItems items (']' :: rest)
  | .object fields, rest => '\x7b' :: writeFields fields ('\x7d' :: rest)

def writeItems : List Json → List Char → List Char
  | [], rest => rest
  | item :: items, rest => write item (writeMoreItems items rest)

def writeMoreItems : List Json → List Char → List Char
  | [], rest => rest
  | item :: items, rest => ',' :: write item (writeMoreItems items rest)

def writeFields : List (String × Json) → List Char → List Char
  | [], rest => rest
  | (name, value) :: fields, rest =>
    writeString name (':' :: write value (writeMoreFields fields rest))

def writeMoreFields : List (String × Json) → List Char → List Char
  | [], rest => rest
  | (name, value) :: fields, rest =>
    ',' :: writeString name (':' :: write value (writeMoreFields fields rest))

end

def chars (value : Json) : List Char :=
  write value []

def render (value : Json) : String :=
  String.ofList (chars value)

-- What stands for a value inside a text: a string itself, nothing for null, JSON for the rest.
def text : Json → String
  | .null => ""
  | .string s => s
  | value => render value

end Switchboard.Json
