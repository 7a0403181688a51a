import Switchboard.Text.Split

namespace Switchboard.Http

structure Uri where
  path : String
  query : Option String := none
deriving DecidableEq, Repr

namespace Uri

def maxLength : Nat := 65534
def maxSchemeLength : Nat := 64
def maxColons : Nat := 8

def between (low high : Nat) (c : Char) : Bool :=
  decide (low ≤ c.toNat) && decide (c.toNat ≤ high)

-- Characters beyond ASCII are let through, and of ASCII some that ought to be escaped.
def isPathChar (c : Char) : Bool :=
  between 0x21 0x22 c || between 0x24 0x3B c || c == '=' || between 0x40 0x5F c ||
    between 0x61 0x7E c || decide (0x80 ≤ c.toNat)

def isQueryChar (c : Char) : Bool :=
  c == '!' || between 0x24 0x3B c || c == '=' || between 0x3F 0x7E c || decide (0x80 ≤ c.toNat)

def beforeFragment (s : List Char) : List Char :=
  s.takeWhile (· != '#')

def readQuery (s : List Char) : Option String :=
  if s.all isQueryChar then some (String.ofList s) else none

-- The empty path behind an authority is the root.
def rooted (path : List Char) : String :=
  if path = [] then "/" else String.ofList path

def readLocal (s : List Char) : Option Uri :=
  let s := beforeFragment s
  match Text.cut '?' s with
  | none => if s.all isPathChar then some ⟨rooted s, none⟩ else none
  | some (path, query) =>
    if path.all isPathChar then (readQuery query).map fun query => ⟨rooted path, some query⟩
    else none

def isSchemeChar (c : Char) : Bool :=
  c.isAlphanum || c == '+' || c == '-' || c == '.' || c == '~'

inductive Scheme where
  | absent
  | present (rest : List Char)
  | tooLong

def readScheme (s : List Char) : Scheme :=
  match s.dropWhile isSchemeChar with
  | ':' :: '/' :: '/' :: rest =>
    if (s.takeWhile isSchemeChar).length ≤ maxSchemeLength then .present rest else .tooLong
  | _ => .absent

def isAuthorityChar (c : Char) : Bool :=
  c.isAlphanum || "!$&'()*+,-.;=_~".toList.contains c

structure Authority where
  colons : Nat := 0
  bracketOpen : Bool := false
  bracketClosed : Bool := false
  percent : Bool := false
  last : Option Char := none

namespace Authority

-- User names and addresses in brackets may hold colons and escapes; a host has no escapes and at
-- most the colon in front of a number.
def read (a : Authority) (c : Char) : Option Authority :=
  match c with
  | ':' => if a.colons < maxColons then some { a with colons := a.colons + 1, last := c } else none
  | '[' =>
    if a.percent || a.bracketOpen then none else some { a with bracketOpen := true, last := c }
  | ']' =>
    if a.bracketOpen && !a.bracketClosed then
      some { a with bracketClosed := true, colons := 0, percent := false, last := c }
    else none
  | '@' => some { a with colons := 0, percent := false, last := c }
  | '%' => some { a with percent := true, last := c }
  | c => if isAuthorityChar c then some { a with last := c } else none

def isComplete (a : Authority) : Bool :=
  a.bracketOpen == a.bracketClosed && decide (a.colons ≤ 1) && a.last != some '@' && !a.percent

end Authority

def isAuthorityEnd (c : Char) : Bool :=
  c == '/' || c == '?' || c == '#'

def isAuthority (s : List Char) : Bool :=
  match s.foldlM Authority.read {} with
  | some a => a.isComplete
  | none => false

-- behind a scheme: an authority that is not empty, and what follows it
def readAbsolute (s : List Char) : Option Uri :=
  let authority := s.takeWhile (!isAuthorityEnd ·)
  if authority ≠ [] ∧ isAuthority authority then readLocal (s.dropWhile (!isAuthorityEnd ·))
  else none

-- An authority alone has no path.
def read? (s : String) : Option Uri :=
  if maxLength < s.utf8ByteSize then none
  else match s.toList with
    | [] => none
    | ['*'] => some ⟨"*", none⟩
    | '/' :: rest => readLocal ('/' :: rest)
    | target =>
      match readScheme target with
      | .present rest => readAbsolute rest
      | .tooLong => none
      | .absent => if isAuthority target then some ⟨"", none⟩ else none

end Uri
end Switchboard.Http
