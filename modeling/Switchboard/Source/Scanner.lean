import Switchboard.Decimal.Numeral
import Switchboard.Source.Token
import Switchboard.Text.Blank

namespace Switchboard.Source

inductive Flaw where
  | character (c : Char)
  | openString
  | number (raw : String)
  | openExpression

structure ScanError where
  flaw : Flaw
  position : Position

def ScanError.message (e : ScanError) : String :=
  match e.flaw with
  | .character c => "Unexpected character `" ++ c.toString ++ "` at " ++ e.position.render
  | .openString => "Unterminated string starting at " ++ e.position.render
  | .number raw => "Invalid number `" ++ raw ++ "` at " ++ e.position.render
  | .openExpression =>
    "Unexpected EOF detected, expression opened at " ++ e.position.render ++ " is never closed"

-- what stands at the front of a text; space and comments have no token
structure Lexeme where
  kind : Option TokenKind
  used : List Char
  rest : List Char

def unescape (c : Char) : Char :=
  match c with
  | 'n' => '\n'
  | 't' => '\t'
  | 'r' => '\r'
  | '0' => Char.ofNat 0
  | c => c

structure Quoted where
  value : List Char
  used : List Char
  rest : List Char

-- what follows an opening quote, the closing one included
def readQuoted (quote : Char) : List Char → Option Quoted
  | [] => none
  | ['\\'] => none
  | '\\' :: c :: rest =>
    (readQuoted quote rest).map fun q => ⟨unescape c :: q.value, '\\' :: c :: q.used, q.rest⟩
  | c :: rest =>
    if c = quote then some ⟨[], [c], rest⟩
    else (readQuoted quote rest).map fun q => ⟨c :: q.value, c :: q.used, q.rest⟩

def marksExponent (c : Char) : Bool :=
  c == 'e' || c == 'E'

-- A sign belongs to a number only right behind the mark of an exponent.
def takeNumber (marked : Bool) : List Char → List Char × List Char
  | [] => ([], [])
  | c :: rest =>
    if c.isDigit || c == '.' || marksExponent c || (marked && (c == '+' || c == '-')) then
      let (more, rest) := takeNumber (marksExponent c) rest
      (c :: more, rest)
    else ([], c :: rest)

def endsName (c : Char) : Bool :=
  Text.isBlank c || ['(', ')', '[', ']', '\x7b', '\x7d', ',', ':', '"', '\''].contains c

def takeLine : List Char → List Char × List Char
  | [] => ([], [])
  | c :: rest =>
    if c = '\n' then ([c], rest)
    else
      let (more, rest) := takeLine rest
      (c :: more, rest)

def startsNumber (c : Char) (rest : List Char) : Bool :=
  c.isDigit || (c == '-' && rest.head?.any Char.isDigit)

namespace Lexeme

def readNumber (c : Char) (rest : List Char) : Except Flaw Lexeme :=
  let (more, rest) := takeNumber false rest
  let raw := c :: more
  match Decimal.readFloat raw with
  | some x => .ok ⟨some (.number x), raw, rest⟩
  | none => .error (.number (String.ofList raw))

def punctuation (c : Char) : Option TokenKind :=
  match c with
  | '(' => some .parenOpen
  | ')' => some .parenClose
  | '[' => some .bracketOpen
  | ']' => some .bracketClose
  | '\x7b' => some .braceOpen
  | '\x7d' => some .braceClose
  | ':' => some .colon
  | _ => none

def readInside (c : Char) (rest : List Char) : Except Flaw Lexeme :=
  match punctuation c with
  | some kind => .ok ⟨some kind, [c], rest⟩
  | none =>
    if c = '#' then
      let (line, rest) := takeLine rest
      .ok ⟨none, c :: line, rest⟩
    else if c = '"' ∨ c = '\'' then
      match readQuoted c rest with
      | some q => .ok ⟨some (.string (String.ofList q.value)), c :: q.used, q.rest⟩
      | none => .error .openString
    else if Text.isBlank c ∨ c = ',' then .ok ⟨none, [c], rest⟩
    else if startsNumber c rest then readNumber c rest
    else if Text.isControl c then .error (.character c)
    else
      let more := rest.takeWhile fun c => !endsName c
      .ok ⟨some (.name (String.ofList (c :: more))), c :: more, rest.dropWhile fun c => !endsName c⟩

def readOutside (c : Char) (rest : List Char) : Lexeme :=
  if c = '(' then ⟨some .parenOpen, [c], rest⟩
  else
    let more := rest.takeWhile (· ≠ '(')
    ⟨some (.text (String.ofList (c :: more))), c :: more, rest.dropWhile (· ≠ '(')⟩

-- `depth` counts the parentheses that are open
def read (depth : Nat) (c : Char) (rest : List Char) : Except Flaw Lexeme :=
  if depth = 0 then .ok (readOutside c rest) else readInside c rest

def depthAfter (depth : Nat) (lexeme : Lexeme) : Nat :=
  match lexeme.kind with
  | some .parenOpen => depth + 1
  | some .parenClose => depth - 1
  | _ => depth

def token (lexeme : Lexeme) (position : Position) : List Token :=
  match lexeme.kind with
  | some kind => [⟨position, kind⟩]
  | none => []

end Lexeme

theorem readQuoted_parts {quote : Char} {s : List Char} {q : Quoted}
    (h : readQuoted quote s = some q) : s = q.used ++ q.rest := by
  fun_induction readQuoted quote s generalizing q with
  | case1 => cases h
  | case2 => cases h
  | case3 c rest ih =>
    obtain ⟨inner, found, rfl⟩ := Option.map_eq_some_iff.1 h
    simpa using ih found
  | case4 => cases h; rfl
  | case5 _ _ _ _ _ ih =>
    obtain ⟨inner, found, rfl⟩ := Option.map_eq_some_iff.1 h
    simpa using ih found

theorem takeNumber_parts (marked : Bool) (s : List Char) :
    s = (takeNumber marked s).1 ++ (takeNumber marked s).2 := by
  induction s generalizing marked with
  | nil => rfl
  | cons c rest ih =>
    rw [takeNumber]
    split
    · simpa using ih (marksExponent c)
    · rfl

theorem takeLine_parts (s : List Char) : s = (takeLine s).1 ++ (takeLine s).2 := by
  induction s with
  | nil => rfl
  | cons c rest ih =>
    rw [takeLine]
    split
    · rfl
    · simpa using ih

namespace Lexeme

theorem readNumber_parts {c : Char} {rest : List Char} {lexeme : Lexeme}
    (h : readNumber c rest = .ok lexeme) : lexeme.used ++ lexeme.rest = c :: rest ∧ lexeme.used ≠ [] := by
  simp only [readNumber] at h
  split at h
  · cases h
    exact ⟨by simp [← takeNumber_parts], by simp⟩
  · cases h

theorem readInside_parts {c : Char} {rest : List Char} {lexeme : Lexeme}
    (h : readInside c rest = .ok lexeme) : lexeme.used ++ lexeme.rest = c :: rest ∧ lexeme.used ≠ [] := by
  simp only [readInside] at h
  split at h
  · cases h; exact ⟨rfl, by simp⟩
  · split at h
    · cases h; exact ⟨by simp [← takeLine_parts], by simp⟩
    · split at h
      · split at h
        · next found =>
          cases h
          exact ⟨by simp [← readQuoted_parts found], by simp⟩
        · cases h
      · split at h
        · cases h; exact ⟨rfl, by simp⟩
        · split at h
          · exact readNumber_parts h
          · split at h
            · cases h
            · cases h; exact ⟨by simp, by simp⟩

theorem readOutside_parts (c : Char) (rest : List Char) :
    (readOutside c rest).used ++ (readOutside c rest).rest = c :: rest ∧
      (readOutside c rest).used ≠ [] := by
  unfold readOutside
  split <;> simp

theorem read_parts {depth : Nat} {c : Char} {rest : List Char} {lexeme : Lexeme}
    (h : read depth c rest = .ok lexeme) : lexeme.used ++ lexeme.rest = c :: rest ∧ lexeme.used ≠ [] := by
  unfold read at h
  split at h
  · cases h; exact readOutside_parts c rest
  · exact readInside_parts h

theorem read_shorter {depth : Nat} {c : Char} {rest : List Char} {lexeme : Lexeme}
    (h : read depth c rest = .ok lexeme) : lexeme.rest.length < (c :: rest).length := by
  obtain ⟨whole, used⟩ := read_parts h
  rw [← whole, List.length_append]
  have := List.length_pos_iff.2 used
  omega

end Lexeme

-- `opened` is where the outermost open parenthesis stands.
def scan (depth : Nat) (opened position : Position) : List Char → Except ScanError (List Token)
  | [] => if depth = 0 then .ok [⟨position, .eof⟩] else .error ⟨.openExpression, opened⟩
  | c :: rest =>
    match _step : Lexeme.read depth c rest with
    | .error flaw => .error ⟨flaw, position⟩
    | .ok lexeme =>
      let opened := if depth = 0 then position else opened
      match scan (lexeme.depthAfter depth) opened (position.advanceAll lexeme.used) lexeme.rest with
      | .error e => .error e
      | .ok tokens => .ok (lexeme.token position ++ tokens)
termination_by s => s.length
decreasing_by exact Lexeme.read_shorter _step

def tokenize (code : String) : Except ScanError (List Token) :=
  scan 0 {} {} code.toList

end Switchboard.Source
