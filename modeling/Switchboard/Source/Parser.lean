import Switchboard.Source.Expr
import Switchboard.Source.Scanner

namespace Switchboard.Source

inductive ParseError where
  | unexpectedToken (token : Token)
  | emptyCall (opened : Position)
  | expectedClosingParen (token : Token)
  | expectedClosingBracket (token : Token)
  | expectedClosingBrace (token : Token)
  | invalidObjectKey (token : Token)

def Token.located (t : Token) : String :=
  "`" ++ t.kind.render ++ "` at " ++ t.position.render

def ParseError.message : ParseError → String
  | .unexpectedToken t => "Unexpected token " ++ t.located
  | .emptyCall opened => "Expected an operator name after `(` at " ++ opened.render
  | .expectedClosingParen t => "Expected a closing parenthesis `)` but got " ++ t.located
  | .expectedClosingBracket t => "Expected a closing bracket `]` but got " ++ t.located
  | .expectedClosingBrace t => "Expected a closing brace `\x7d` but got " ++ t.located
  | .invalidObjectKey t => "Invalid object key " ++ t.located

-- What has been read so far is kept in reverse.
inductive Frame where
  | operator (opened : Position)
  | call (operator : String) (args : List Expr)
  | array (items : List Expr)
  | object (entries : List (String × Expr))
  | field (entries : List (String × Expr)) (key : String) (colon : Bool)

structure Reading where
  program : List Node := []
  stack : List Frame := []

-- A whole number that 64 bits hold is an integer; the largest stands for 2^63 too.
def literalNumber (x : Float) : Json :=
  match Decimal.Binary.ofFloat? x with
  | none => .null
  | some b =>
    match b.toInt? with
    | some n =>
      if -(twoTo 63) ≤ n ∧ n ≤ twoTo 63 then .number (.int (min n (twoTo 63 - 1))) else .number (.float x)
    | none => .number (.float x)

def nameExpr (word : String) : Expr :=
  if word = "true" then .literal (.bool true)
  else if word = "false" then .literal (.bool false)
  else if word = "null" then .literal .null
  else .variable word

namespace Reading

def opening (s : Reading) (frame : Frame) : Reading :=
  { s with stack := frame :: s.stack }

-- An expression is complete; it becomes part of what is open around it.
def complete (s : Reading) (expr : Expr) : Reading :=
  match s.stack with
  | .call operator args :: outer => { s with stack := .call operator (expr :: args) :: outer }
  | .array items :: outer => { s with stack := .array (expr :: items) :: outer }
  | .field entries key _ :: outer => { s with stack := .object ((key, expr) :: entries) :: outer }
  | [] => { s with program := .template expr :: s.program }
  | .operator _ :: _ => s
  | .object _ :: _ => s

def closing (s : Reading) (outer : List Frame) (expr : Expr) : Reading :=
  complete { s with stack := outer } expr

def begin (s : Reading) (t : Token) : Except ParseError Reading :=
  match t.kind with
  | .parenOpen => .ok (s.opening (.operator t.position))
  | .bracketOpen => .ok (s.opening (.array []))
  | .braceOpen => .ok (s.opening (.object []))
  | .string content => .ok (s.complete (.literal (.string content)))
  | .number x => .ok (s.complete (.literal (literalNumber x)))
  | .name word => .ok (s.complete (nameExpr word))
  | _ => .error (.unexpectedToken t)

def stepTop (s : Reading) (t : Token) : Except ParseError Reading :=
  match t.kind with
  | .text content => .ok { s with program := .text content :: s.program }
  | .parenOpen => .ok (s.opening (.operator t.position))
  | _ => .error (.unexpectedToken t)

def stepOperator (s : Reading) (outer : List Frame) (opened : Position) (t : Token) :
    Except ParseError Reading :=
  match t.kind with
  | .name word => .ok { s with stack := .call word [] :: outer }
  | .parenClose => .error (.emptyCall opened)
  | _ => .error (.unexpectedToken t)

def stepCall (s : Reading) (outer : List Frame) (operator : String) (args : List Expr) (t : Token) :
    Except ParseError Reading :=
  match t.kind with
  | .parenClose => .ok (s.closing outer (.call operator args.reverse))
  | .eof => .error (.expectedClosingParen t)
  | _ => s.begin t

def stepArray (s : Reading) (outer : List Frame) (items : List Expr) (t : Token) :
    Except ParseError Reading :=
  match t.kind with
  | .bracketClose => .ok (s.closing outer (.array items.reverse))
  | .parenClose | .braceClose | .eof => .error (.expectedClosingBracket t)
  | _ => s.begin t

def stepObject (s : Reading) (outer : List Frame) (entries : List (String × Expr)) (t : Token) :
    Except ParseError Reading :=
  match t.kind with
  | .braceClose => .ok (s.closing outer (.object entries.reverse))
  | .name key | .string key => .ok { s with stack := .field entries key false :: outer }
  | .parenClose | .bracketClose | .eof => .error (.expectedClosingBrace t)
  | _ => .error (.invalidObjectKey t)

-- One colon may stand between a key and its value.
def stepField (s : Reading) (outer : List Frame) (entries : List (String × Expr)) (key : String)
    (colon : Bool) (t : Token) : Except ParseError Reading :=
  match t.kind, colon with
  | .colon, false => .ok { s with stack := .field entries key true :: outer }
  | _, _ => s.begin t

def step (s : Reading) (t : Token) : Except ParseError Reading :=
  match s.stack with
  | [] => s.stepTop t
  | .operator opened :: outer => s.stepOperator outer opened t
  | .call operator args :: outer => s.stepCall outer operator args t
  | .array items :: outer => s.stepArray outer items t
  | .object entries :: outer => s.stepObject outer entries t
  | .field entries key colon :: outer => s.stepField outer entries key colon t

-- The end of the tokens, or of the text between expressions, ends a program.
def run (s : Reading) : List Token → Except ParseError Program
  | [] => if s.stack.isEmpty then .ok s.program.reverse else .error (.unexpectedToken .missing)
  | t :: rest =>
    if s.stack.isEmpty && t.kind.isEof then .ok s.program.reverse
    else match s.step t with
      | .error e => .error e
      | .ok next => next.run rest

end Reading

def parseTokens (tokens : List Token) : Except ParseError Program :=
  Reading.run {} tokens

inductive SourceError where
  | scan (error : ScanError)
  | parse (error : ParseError)

def SourceError.message : SourceError → String
  | .scan e => e.message
  | .parse e => e.message

def parse (code : String) : Except SourceError Program :=
  match tokenize code with
  | .error e => .error (.scan e)
  | .ok tokens =>
    match parseTokens tokens with
    | .error e => .error (.parse e)
    | .ok program => .ok program

end Switchboard.Source
