import Switchboard.Text.Split

namespace Switchboard

structure FunctionPath where
  text : String
deriving DecidableEq, Repr

namespace FunctionPath

def marker : Char := '@'

def isSegmentChar (c : Char) : Bool :=
  c.isAlphanum || ['#', ',', '_', ':', '|', '-'].contains c

def isPathChar (c : Char) : Bool :=
  isSegmentChar c || c == '.'

-- the first run of path characters in a raw value
def extract (raw : String) : Option FunctionPath :=
  match (raw.toList.dropWhile fun c => !isPathChar c).takeWhile isPathChar with
  | [] => none
  | cs => some ⟨String.ofList cs⟩

def routeText (route : String) : String :=
  String.intercalate "." ((Text.fields '/' route).filter (· ≠ ""))

-- `/users/list` names `users.list`
def ofRoute (route : String) : Option FunctionPath :=
  (extract (routeText route)).filter fun path => path.text == routeText route

def isRelative (path : FunctionPath) : Bool :=
  path.text.toList.head? == some marker

-- everything up to the last dot and the dot itself
def scope (path : FunctionPath) : String :=
  String.ofList (path.text.toList.reverse.dropWhile (· ≠ '.')).reverse

def inScope (path : FunctionPath) (scope : String) : FunctionPath :=
  match path.text.toList with
  | c :: rest => if c = marker then ⟨scope ++ String.ofList rest⟩ else path
  | [] => path

def segments (path : FunctionPath) : List String :=
  Text.fields '.' path.text

def isSegment (s : String) : Bool :=
  s != "" && s.toList.all isSegmentChar

def isValid (path : FunctionPath) : Bool :=
  path.segments.all isSegment

end FunctionPath
end Switchboard
