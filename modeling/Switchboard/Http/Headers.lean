namespace Switchboard.Http

def isTokenChar (c : Char) : Bool :=
  c.isAlphanum || "!#$%&'*+-.^_`|~".toList.contains c

def maxNameLength : Nat := 65535

def headerName? (s : String) : Option String :=
  if s ≠ "" ∧ s.utf8ByteSize ≤ maxNameLength ∧ s.toList.all isTokenChar then
    some (String.ofList (s.toList.map Char.toLower))
  else none

-- All but control characters; a tab is allowed.
def isLegalValue (s : String) : Bool :=
  s.toList.all fun c => c == '\t' || decide (32 ≤ c.toNat) && c.toNat != 127

-- A value of ASCII alone can be read as text.
def plainValue? (s : String) : Option String :=
  if s.toList.all fun c => c == '\t' || decide (32 ≤ c.toNat) && decide (c.toNat < 127) then some s
  else none

abbrev Headers := List (String × String)

namespace Headers

def values (name : String) (h : Headers) : List String :=
  (h.filter fun field => field.1 == name).map Prod.snd

def first? (name : String) (h : Headers) : Option String :=
  (values name h).head?

def has (name : String) (h : Headers) : Bool :=
  h.any fun field => field.1 == name

def remove (name : String) (h : Headers) : Headers :=
  h.filter fun field => field.1 != name

def append (name value : String) (h : Headers) : Headers :=
  h ++ [(name, value)]

def insert (name value : String) (h : Headers) : Headers :=
  append name value (remove name h)

def field? (name value : String) : Option (String × String) :=
  (headerName? name).bind fun name => if isLegalValue value then some (name, value) else none

def ofFields (fields : List (String × String)) : Headers :=
  fields.filterMap fun (name, value) => field? name value

-- by name; the values of one name stay in their order
def sorted (h : Headers) : Headers :=
  h.mergeSort fun a b => decide (a.1 ≤ b.1)

theorem values_together (name : String) (h more : Headers) :
    values name (h ++ more) = values name h ++ values name more := by
  simp [values, List.filter_append]

end Headers
end Switchboard.Http
