import Switchboard.Source.Parser

namespace Switchboard.Source

namespace TokenKind

def weight : TokenKind → Int
  | .parenOpen => 1
  | .parenClose => -1
  | _ => 0

def isText : TokenKind → Bool
  | .text _ => true
  | _ => false

end TokenKind

def balance : List Token → Int
  | [] => 0
  | t :: rest => t.kind.weight + balance rest

@[simp]
theorem balance_nil : balance [] = 0 := rfl

@[simp]
theorem balance_cons (t : Token) (rest : List Token) : balance (t :: rest) = t.kind.weight + balance rest := rfl

-- Tokens as they can come where so many parentheses are open.
inductive Laid : Nat → List Token → Prop where
  | ended {t} : t.kind = .eof → Laid 0 [t]
  | text {t content next rest} : t.kind = .text content → content ≠ "" → '(' ∉ content.toList →
    next.kind.isText = false → Laid 0 (next :: rest) → Laid 0 (t :: next :: rest)
  | opened {t depth rest} : t.kind = .parenOpen → Laid (depth + 1) rest → Laid depth (t :: rest)
  | closed {t depth rest} : t.kind = .parenClose → Laid depth rest → Laid (depth + 1) (t :: rest)
  | other {t depth rest} : t.kind.weight = 0 → t.kind.isText = false → t.kind.isEof = false →
    Laid (depth + 1) rest → Laid (depth + 1) (t :: rest)

namespace Lexeme

theorem readInside_kind {c : Char} {rest : List Char} {lexeme : Lexeme}
    (reads : readInside c rest = .ok lexeme) {kind : TokenKind} (token : lexeme.kind = some kind) :
    kind.isText = false ∧ kind.isEof = false := by
  unfold readInside at reads
  split at reads
  · next found =>
    cases reads
    cases token
    unfold punctuation at found
    split at found <;> cases found <;> exact ⟨rfl, rfl⟩
  · split at reads
    · cases reads
      cases token
    · split at reads
      · split at reads <;> cases reads
        cases token
        exact ⟨rfl, rfl⟩
      · split at reads
        · cases reads
          cases token
        · split at reads
          · unfold readNumber at reads
            dsimp only at reads
            split at reads <;> cases reads
            cases token
            exact ⟨rfl, rfl⟩
          · split at reads <;> cases reads
            cases token
            exact ⟨rfl, rfl⟩

theorem readOutside_paren (rest : List Char) : readOutside '(' rest = ⟨some .parenOpen, ['('], rest⟩ := rfl

theorem readOutside_text {c : Char} (other : c ≠ '(') (rest : List Char) :
    ∃ content, (readOutside c rest).kind = some (.text content) ∧ content ≠ "" ∧ '(' ∉ content.toList ∧
      ((readOutside c rest).rest = [] ∨ (readOutside c rest).rest.head? = some '(') := by
  unfold readOutside
  rw [if_neg other]
  refine ⟨_, rfl, ?_, ?_, ?_⟩
  · intro empty
    simpa using congrArg String.toList empty
  · rw [String.toList_ofList, List.mem_cons]
    rintro (same | more)
    · exact other same.symm
    · simpa using List.all_eq_true.mp List.all_takeWhile '(' more
  · dsimp only
    cases left : rest.dropWhile (· ≠ '(') with
    | nil => exact .inl rfl
    | cons d after =>
      have stops := List.head?_dropWhile_not (fun c : Char => decide (c ≠ '(')) rest
      rw [left] at stops
      exact .inr (by simpa using stops)

end Lexeme

theorem scan_first {opened position : Position} {s : List Char} {tokens : List Token}
    (scans : scan 0 opened position s = .ok tokens) (ends : s = [] ∨ s.head? = some '(') :
    ∃ t rest, tokens = t :: rest ∧ t.kind.isText = false := by
  cases s with
  | nil =>
    rw [scan, if_pos rfl] at scans
    cases scans
    exact ⟨_, [], rfl, rfl⟩
  | cons c rest =>
    have same : c = '(' := by simpa using ends
    subst same
    rw [scan] at scans
    split at scans
    · cases scans
    · next lexeme reads =>
      cases reads
      dsimp only at scans
      split at scans <;> cases scans
      exact ⟨_, _, rfl, rfl⟩

theorem scan_laid {depth : Nat} {opened position : Position} {s : List Char} {tokens : List Token}
    (scans : scan depth opened position s = .ok tokens) : Laid depth tokens := by
  fun_induction scan depth opened position s generalizing tokens with
  | case1 =>
    cases scans
    exact .ended rfl
  | case2 => cases scans
  | case3 => cases scans
  | case4 => cases scans
  | case5 depth _ _ c rest lexeme reads _ later further =>
    rename_i ih
    cases scans
    have laid := ih further
    cases depth with
    | zero =>
      cases reads
      by_cases paren : c = '('
      · subst paren
        rw [Lexeme.readOutside_paren] at laid ⊢
        exact .opened rfl laid
      · obtain ⟨content, token, full, free, ends⟩ := Lexeme.readOutside_text paren rest
        have depth : Lexeme.depthAfter 0 (Lexeme.readOutside c rest) = 0 := by
          rw [Lexeme.depthAfter, token]
        rw [depth] at further laid
        -- behind the text stands its parenthesis or the end, and so no text again
        obtain ⟨next, after, rfl, other⟩ := scan_first further ends
        rw [Lexeme.token, token]
        exact .text rfl full free other laid
    | succ depth =>
      have inside : Lexeme.readInside c rest = .ok lexeme := reads
      unfold Lexeme.depthAfter at laid
      unfold Lexeme.token
      split at laid
      · next token =>
        rw [token]
        exact .opened rfl laid
      · next token =>
        rw [token]
        exact .closed rfl laid
      · next no_open no_close =>
        cases token : lexeme.kind with
        | none => exact laid
        | some kind =>
          obtain ⟨no_text, no_end⟩ := Lexeme.readInside_kind inside token
          refine .other ?_ no_text no_end laid
          cases kind <;> first | rfl | exact absurd token no_open | exact absurd token no_close

theorem tokenize_laid {code : String} {tokens : List Token} (scans : tokenize code = .ok tokens) :
    Laid 0 tokens :=
  scan_laid scans

structure Nested (tokens : List Token) : Prop where
  ended : ∃ front last, tokens = front ++ [last] ∧ last.kind = .eof ∧ ∀ t ∈ front, t.kind ≠ .eof
  nonneg : ∀ front back, tokens = front ++ back → 0 ≤ balance front
  total : balance tokens = 0
  outside : ∀ front t back, tokens = front ++ t :: back → balance front = 0 →
    t.kind = .parenOpen ∨ t.kind = .eof ∨ ∃ content, t.kind = .text content
  inside : ∀ front t back content, tokens = front ++ t :: back → t.kind = .text content → balance front = 0
  texts : ∀ t content, t ∈ tokens → t.kind = .text content → content ≠ "" ∧ '(' ∉ content.toList
  apart : ∀ front t next back, tokens = front ++ t :: next :: back → t.kind.isText = true → next.kind.isText = false

namespace Laid

variable {depth : Nat} {t : Token} {front back tokens : List Token}

theorem tail (laid : Laid depth (t :: back)) (more : back ≠ []) :
    ∃ depth' : Nat, (depth' : Int) = depth + t.kind.weight ∧ Laid depth' back := by
  cases laid with
  | ended => exact absurd rfl more
  | text same _ _ _ rest => exact ⟨0, by simp [same, TokenKind.weight], rest⟩
  | opened same rest => exact ⟨_, by simp [same, TokenKind.weight], rest⟩
  | @closed _ depth _ same rest => exact ⟨depth, by rw [same, TokenKind.weight]; omega, rest⟩
  | other weight _ _ rest => exact ⟨_, by simp [weight], rest⟩

theorem suffix (laid : Laid depth (front ++ back)) (more : back ≠ []) :
    ∃ depth' : Nat, (depth' : Int) = depth + balance front ∧ Laid depth' back := by
  induction front generalizing depth with
  | nil => exact ⟨depth, by simp, laid⟩
  | cons t front ih =>
    obtain ⟨middle, count, rest⟩ := laid.tail (by simp [more])
    obtain ⟨depth', count', laid'⟩ := ih rest
    exact ⟨depth', by rw [count', count, balance_cons, Int.add_assoc], laid'⟩

theorem split_last (laid : Laid depth tokens) :
    ∃ front last, tokens = front ++ [last] ∧ last.kind = .eof ∧ ∀ t ∈ front, t.kind ≠ .eof := by
  have longer {t : Token} {rest : List Token} (other : t.kind ≠ .eof)
      (split : ∃ front last, rest = front ++ [last] ∧ last.kind = .eof ∧ ∀ t ∈ front, t.kind ≠ .eof) :
      ∃ front last, t :: rest = front ++ [last] ∧ last.kind = .eof ∧ ∀ t ∈ front, t.kind ≠ .eof := by
    obtain ⟨front, last, rfl, eof, before⟩ := split
    exact ⟨t :: front, last, rfl, eof, by simpa [other] using before⟩
  induction laid with
  | ended eof => exact ⟨[], _, rfl, eof, by simp⟩
  | text same _ _ _ _ ih => exact longer (by simp [same]) ih
  | opened same _ ih => exact longer (by simp [same]) ih
  | closed same _ ih => exact longer (by simp [same]) ih
  | other _ _ not_end _ ih => exact longer (by rintro same; simp [same, TokenKind.isEof] at not_end) ih

theorem total (laid : Laid depth tokens) : (depth : Int) + balance tokens = 0 := by
  induction laid with
  | ended same => simp [same, TokenKind.weight]
  | text same _ _ _ _ ih =>
    rw [balance_cons, same]
    simpa [TokenKind.weight] using ih
  | opened same _ ih =>
    rw [balance_cons, same, TokenKind.weight]
    omega
  | closed same _ ih =>
    rw [balance_cons, same, TokenKind.weight]
    omega
  | other weight _ _ _ ih =>
    rw [balance_cons, weight]
    omega

theorem head_outside (laid : Laid 0 (t :: back)) :
    t.kind = .parenOpen ∨ t.kind = .eof ∨ ∃ content, t.kind = .text content := by
  cases laid with
  | ended same => exact .inr (.inl same)
  | text same => exact .inr (.inr ⟨_, same⟩)
  | opened same => exact .inl same

theorem head_text (laid : Laid depth (t :: back)) {content : String} (text : t.kind = .text content) :
    depth = 0 ∧ content ≠ "" ∧ '(' ∉ content.toList ∧ ∀ next ∈ back.head?, next.kind.isText = false := by
  cases laid with
  | ended same => simp [same] at text
  | @text _ content' next rest same full free other =>
    cases same.symm.trans text
    exact ⟨rfl, full, free, by simpa using other⟩
  | opened same => simp [same] at text
  | closed same => simp [same] at text
  | other _ no_text => simp [text, TokenKind.isText] at no_text

theorem nested (laid : Laid 0 tokens) : Nested tokens := by
  refine ⟨laid.split_last, ?_, by simpa using laid.total, ?_, ?_, ?_, ?_⟩
  · rintro front back rfl
    cases back with
    | nil =>
      have total := laid.total
      rw [List.append_nil] at total
      omega
    | cons t back =>
      obtain ⟨depth, count, _⟩ := laid.suffix (by simp)
      omega
  · rintro front t back rfl zero
    obtain ⟨depth, count, rest⟩ := laid.suffix (by simp)
    have none : depth = 0 := by omega
    exact (none ▸ rest).head_outside
  · rintro front t back content rfl text
    obtain ⟨depth, count, rest⟩ := laid.suffix (by simp)
    obtain ⟨none, _⟩ := rest.head_text text
    omega
  · intro t content present text
    obtain ⟨front, back, rfl⟩ := List.append_of_mem present
    obtain ⟨depth, count, rest⟩ := laid.suffix (by simp)
    obtain ⟨_, full, free, _⟩ := rest.head_text text
    exact ⟨full, free⟩
  · rintro front t next back rfl text
    obtain ⟨depth, count, rest⟩ := laid.suffix (by simp)
    cases kind : t.kind with
    | text content =>
      obtain ⟨_, _, _, other⟩ := rest.head_text kind
      exact other next rfl
    | _ => simp [kind, TokenKind.isText] at text

end Laid

def ParseError.token? : ParseError → Option Token
  | .unexpectedToken t => some t
  | .emptyCall _ => none
  | .expectedClosingParen t => some t
  | .expectedClosingBracket t => some t
  | .expectedClosingBrace t => some t
  | .invalidObjectKey t => some t

def Frame.isParen : Frame → Bool
  | .operator _ | .call _ _ => true
  | .array _ | .object _ | .field _ _ _ => false

-- a text, or an expression of whatever content
inductive Outline where
  | text (content : String)
  | expression

def Node.outline : Node → Outline
  | .text content => .text content
  | .template _ => .expression

def TokenKind.outline : TokenKind → Option Outline
  | .text content => some (.text content)
  | .parenOpen => some .expression
  | _ => none

-- the tokens in front of which as many parentheses are closed as opened, counted from `count`
def outermost (count : Int) : List Token → List Token
  | [] => []
  | t :: rest =>
    if count = 0 then t :: outermost (count + t.kind.weight) rest else outermost (count + t.kind.weight) rest

def outlines (tokens : List Token) : List Outline :=
  tokens.filterMap fun t => t.kind.outline

namespace Reading

-- for each frame, whether it is that of a parenthesis
def marks (s : Reading) : List Bool := s.stack.map Frame.isParen

-- the outline of what is read, with the expression that is open
def outline (s : Reading) : List Outline :=
  s.program.reverse.map Node.outline ++ if s.stack.isEmpty then [] else [.expression]

variable {s next : Reading} {t : Token} {frame : Frame} {outer : List Frame}

theorem complete_marks (s : Reading) (expr : Expr) : (s.complete expr).marks = s.marks := by
  unfold complete marks
  split <;> simp_all [Frame.isParen]

theorem closing_outline (stack : s.stack = frame :: outer) (expr : Expr) :
    (s.closing outer expr).outline = s.outline := by
  unfold closing complete outline
  split <;> simp_all [Node.outline]

theorem complete_outline (inside : s.stack ≠ []) (expr : Expr) : (s.complete expr).outline = s.outline := by
  unfold complete outline
  split <;> simp_all

-- what one token makes of the marks; a frame of another kind needs one below it
inductive Shift : TokenKind → List Bool → List Bool → Prop where
  | opens {marks} : Shift .parenOpen marks (true :: marks)
  | closes {marks} : Shift .parenClose (true :: marks) marks
  | stays {kind marks} : kind.weight = 0 → Shift kind marks marks
  | enters {kind marks} : kind.weight = 0 → marks ≠ [] → Shift kind marks (false :: marks)
  | leaves {kind marks} : kind.weight = 0 → Shift kind (false :: marks) marks

theorem begin_shift (inside : s.stack ≠ []) (begins : s.begin t = .ok next) :
    Shift t.kind s.marks next.marks := by
  have below : s.marks ≠ [] := by simpa [marks] using inside
  unfold begin at begins
  split at begins <;> cases begins <;> rename_i same <;> rw [same]
  · exact .opens
  · exact .enters rfl below
  · exact .enters rfl below
  · rw [complete_marks]
    exact .stays rfl
  · rw [complete_marks]
    exact .stays rfl
  · rw [complete_marks]
    exact .stays rfl

theorem begin_outline (inside : s.stack ≠ []) (begins : s.begin t = .ok next) : next.outline = s.outline := by
  unfold begin at begins
  split at begins <;> cases begins
  · simp [outline, opening, inside]
  · simp [outline, opening, inside]
  · simp [outline, opening, inside]
  · exact complete_outline inside _
  · exact complete_outline inside _
  · exact complete_outline inside _

theorem closing_marks (stack : s.stack = frame :: outer) (expr : Expr) :
    s.marks = frame.isParen :: (s.closing outer expr).marks := by
  rw [closing, complete_marks, marks, marks, stack]
  rfl

theorem step_shift (steps : s.step t = .ok next) : Shift t.kind s.marks next.marks := by
  unfold step at steps
  split at steps
  · unfold stepTop at steps
    split at steps <;> cases steps <;> rename_i same <;> rw [same]
    · exact .stays rfl
    · exact .opens
  · next opened outer stack =>
    unfold stepOperator at steps
    split at steps <;> cases steps
    next same =>
    rw [same, marks, marks, stack]
    exact .stays rfl
  · next stack =>
    unfold stepCall at steps
    split at steps
    · next same =>
      cases steps
      rw [same, closing_marks stack]
      exact .closes
    · cases steps
    · exact begin_shift (by simp [stack]) steps
  · next stack =>
    unfold stepArray at steps
    split at steps
    · next same =>
      cases steps
      rw [same, closing_marks stack]
      exact .leaves rfl
    · cases steps
    · cases steps
    · cases steps
    · exact begin_shift (by simp [stack]) steps
  · next stack =>
    unfold stepObject at steps
    split at steps <;> cases steps <;> rename_i same <;> rw [same]
    · rw [closing_marks stack]
      exact .leaves rfl
    · rw [marks, marks, stack]
      exact .stays rfl
    · rw [marks, marks, stack]
      exact .stays rfl
  · next stack =>
    unfold stepField at steps
    split at steps
    · next same =>
      cases steps
      rw [same, marks, marks, stack]
      exact .stays rfl
    · exact begin_shift (by simp [stack]) steps

theorem top_outline (bare : s.stack = []) (steps : s.step t = .ok next) :
    next.outline = s.outline ++ t.kind.outline.toList := by
  simp only [step, bare] at steps
  unfold stepTop at steps
  split at steps <;> cases steps <;> rename_i same
  · simp [outline, bare, same, TokenKind.outline, Node.outline]
  · simp [outline, opening, bare, same, TokenKind.outline]

-- Between expressions a token adds its outline; inside them none does.
theorem inside_outline (inside : s.stack ≠ []) (steps : s.step t = .ok next) : next.outline = s.outline := by
  unfold step at steps
  split at steps
  · next bare => exact absurd bare inside
  · next stack =>
    unfold stepOperator at steps
    split at steps <;> cases steps
    simp [outline, stack]
  · next stack =>
    unfold stepCall at steps
    split at steps
    · cases steps
      exact closing_outline stack _
    · cases steps
    · exact begin_outline inside steps
  · next stack =>
    unfold stepArray at steps
    split at steps
    · cases steps
      exact closing_outline stack _
    · cases steps
    · cases steps
    · cases steps
    · exact begin_outline inside steps
  · next stack =>
    unfold stepObject at steps
    split at steps <;> cases steps
    · exact closing_outline stack _
    · simp [outline, stack]
    · simp [outline, stack]
  · next stack =>
    unfold stepField at steps
    split at steps
    · cases steps
      simp [outline, stack]
    · exact begin_outline inside steps

theorem begin_refused {e : ParseError} (refused : s.begin t = .error e) : e = .unexpectedToken t := by
  unfold begin at refused
  split at refused <;> cases refused
  rfl

-- An error is about the token that is read, and a parenthesis is missed only at the end.
theorem step_refused {e : ParseError} (refused : s.step t = .error e) :
    (∀ other, e.token? = some other → other = t) ∧ ∀ other, e = .expectedClosingParen other → t.kind = .eof := by
  have plain : (∀ other, (ParseError.unexpectedToken t).token? = some other → other = t) ∧
      ∀ other, ParseError.unexpectedToken t = .expectedClosingParen other → t.kind = .eof :=
    ⟨fun other same => (Option.some.inj same).symm, nofun⟩
  unfold step at refused
  split at refused
  · unfold stepTop at refused
    split at refused <;> cases refused
    exact plain
  · unfold stepOperator at refused
    split at refused <;> cases refused
    · exact ⟨nofun, nofun⟩
    · exact plain
  · unfold stepCall at refused
    split at refused
    · cases refused
    · next same =>
      cases refused
      exact ⟨fun other same => (Option.some.inj same).symm, fun _ _ => same⟩
    · rw [begin_refused refused]
      exact plain
  · unfold stepArray at refused
    split at refused
    · cases refused
    all_goals first
      | (cases refused; exact ⟨fun other same => (Option.some.inj same).symm, nofun⟩)
      | (rw [begin_refused refused]; exact plain)
  · unfold stepObject at refused
    split at refused <;> cases refused <;>
      exact ⟨fun other same => (Option.some.inj same).symm, nofun⟩
  · unfold stepField at refused
    split at refused
    · cases refused
    · rw [begin_refused refused]
      exact plain

-- so many parentheses open, and the outermost frame that of one
structure Inside (s : Reading) (depth : Nat) : Prop where
  count : s.marks.count true = depth
  bottom : s.marks.getLast? ≠ some false

variable {depth : Nat}

theorem Inside.empty_iff (inside : s.Inside depth) : s.stack = [] ↔ depth = 0 := by
  have marks_nil : s.marks = [] ↔ s.stack = [] := by simp [marks]
  rw [← marks_nil]
  constructor
  · intro empty
    rw [← inside.count, empty]
    rfl
  · rintro rfl
    rcases List.eq_nil_or_concat s.marks with empty | ⟨front, last, same⟩
    · exact empty
    · have counted := inside.count
      have bottom := inside.bottom
      rw [same] at counted bottom
      cases last with
      | true => simp at counted
      | false => simp at bottom

theorem Inside.shift (inside : s.Inside depth) (shift : Shift t.kind s.marks next.marks) {depth' : Nat}
    (count : (depth' : Int) = depth + t.kind.weight) : next.Inside depth' := by
  obtain ⟨counted, bottom⟩ := inside
  generalize s.marks = before at shift counted bottom
  generalize after : next.marks = later at shift
  generalize t.kind = kind at shift count
  have last {mark : Bool} {marks : List Bool} (some_below : marks ≠ []) :
      (mark :: marks).getLast? = marks.getLast? := List.getLast?_cons_of_ne_nil some_below
  cases shift with
  | opens =>
    simp only [TokenKind.weight] at count
    refine ⟨by rw [after, List.count_cons_self, counted]; omega, ?_⟩
    rw [after]
    cases before with
    | nil => simp
    | cons mark marks => rwa [last (by simp)]
  | closes =>
    simp only [TokenKind.weight, List.count_cons_self] at count counted
    refine ⟨by rw [after]; omega, ?_⟩
    rw [after]
    cases later with
    | nil => simp
    | cons mark marks => rwa [last (by simp)] at bottom
  | stays weight =>
    rw [weight] at count
    exact ⟨by rw [after, counted]; omega, by rwa [after]⟩
  | enters weight below =>
    rw [weight] at count
    refine ⟨by rw [after, List.count_cons_of_ne (by simp), counted]; omega, ?_⟩
    rwa [after, last below]
  | leaves weight =>
    rw [weight] at count
    rw [List.count_cons_of_ne (by simp)] at counted
    refine ⟨by rw [after, counted]; omega, ?_⟩
    rw [after]
    cases later with
    | nil => simp
    | cons mark marks => rwa [last (by simp)] at bottom

-- One step of both counts: the end is read between expressions, and any other token leads on.
theorem step_laid {rest : List Token} (laid : Laid depth (t :: rest)) (inside : s.Inside depth)
    (going : (s.stack.isEmpty && t.kind.isEof) = false) (steps : s.step t = .ok next) :
    ∃ depth' : Nat, (depth' : Int) = depth + t.kind.weight ∧ Laid depth' rest ∧ next.Inside depth' := by
  have more : rest ≠ [] := by
    rintro rfl
    have bare : s.stack = [] ∧ t.kind = .eof := by
      cases laid with
      | ended same => exact ⟨inside.empty_iff.mpr rfl, same⟩
      | opened _ rest => cases rest
      | closed _ rest => cases rest
      | other _ _ _ rest => cases rest
    simp [bare, TokenKind.isEof] at going
  obtain ⟨depth', count, laid'⟩ := laid.tail more
  exact ⟨depth', count, laid', inside.shift (step_shift steps) count⟩

theorem run_outline (tokens : List Token) : ∀ {s : Reading} {depth : Nat} {program : Program},
    Laid depth tokens → s.Inside depth → s.run tokens = .ok program →
    program.map Node.outline = s.outline ++ outlines (outermost depth tokens) := by
  induction tokens with
  | nil =>
    intro s depth program laid
    cases laid
  | cons t rest ih =>
    intro s depth program laid inside runs
    unfold run at runs
    split at runs
    · next ends =>
      cases runs
      obtain ⟨empty, eof⟩ := Bool.and_eq_true_iff.mp ends
      have bare := inside.empty_iff.mp (List.isEmpty_iff.mp empty)
      subst bare
      cases laid with
      | ended same => simp [outline, empty, outermost, outlines, same, TokenKind.outline]
      | text same => simp [same, TokenKind.isEof] at eof
      | opened same => simp [same, TokenKind.isEof] at eof
    · next going =>
      split at runs
      · cases runs
      · next steps =>
        obtain ⟨depth', count, laid', inside'⟩ := step_laid laid inside (by simpa using going) steps
        rw [ih laid' inside' runs, count, outermost]
        by_cases bare : s.stack = []
        · have zero := inside.empty_iff.mp bare
          subst zero
          rw [top_outline bare steps]
          cases found : t.kind.outline <;> simp [outlines, found]
        · have positive : depth ≠ 0 := fun zero => bare (inside.empty_iff.mpr zero)
          simp [inside_outline bare steps, positive]

theorem run_refused (tokens : List Token) : ∀ {s : Reading} {depth : Nat} {e : ParseError},
    Laid depth tokens → s.Inside depth → s.run tokens = .error e →
    (∀ t, e ≠ .expectedClosingParen t) ∧
      ∀ t, e.token? = some t → t ∈ tokens ∧ t.kind ≠ .eof ∧ t.kind.isText = false := by
  induction tokens with
  | nil =>
    intro s depth e laid
    cases laid
  | cons t rest ih =>
    intro s depth e laid inside runs
    unfold run at runs
    split at runs
    · cases runs
    · next going =>
      split at runs
      · next refused =>
        cases runs
        obtain ⟨about, missed⟩ := step_refused refused
        -- The end comes where nothing is open, and there it is no error.
        have other : t.kind ≠ .eof := by
          intro eof
          cases laid with
          | ended _ => exact going (by simp [inside.empty_iff.mpr, eof, TokenKind.isEof])
          | text same => simp [same] at eof
          | opened same => simp [same] at eof
          | closed same => simp [same] at eof
          | other _ _ no_end => simp [eof, TokenKind.isEof] at no_end
        have no_text : t.kind.isText = false := by
          cases kind : t.kind with
          | text content =>
            obtain ⟨zero, _⟩ := laid.head_text kind
            simp [step, inside.empty_iff.mpr zero, stepTop, kind] at refused
          | _ => rfl
        refine ⟨fun u same => other (missed u same), fun u same => ?_⟩
        rw [about u same]
        exact ⟨List.mem_cons_self, other, no_text⟩
      · next steps =>
        obtain ⟨depth', _, laid', inside'⟩ := step_laid laid inside (by simpa using going) steps
        obtain ⟨never, about⟩ := ih laid' inside' runs
        refine ⟨never, fun u same => ?_⟩
        obtain ⟨present, rest⟩ := about u same
        exact ⟨List.mem_cons_of_mem _ present, rest⟩

end Reading

structure Agreeing (code : String) : Prop where
  nested : ∀ tokens, tokenize code = .ok tokens → Nested tokens
  refused : ∀ e, parse code = .error (.parse e) → (∀ t, e ≠ .expectedClosingParen t) ∧
    ∀ t, e.token? = some t → t.kind ≠ .eof ∧ (∀ content, t.kind ≠ .text content) ∧
      ∃ tokens, tokenize code = .ok tokens ∧ t ∈ tokens
  accepted : ∀ program, parse code = .ok program →
    ∃ tokens, tokenize code = .ok tokens ∧ program.map Node.outline = outlines (outermost 0 tokens)

-- For every text the tokens are nested, no error is about text or the end, and the program has one node for
-- each text and each outermost parenthesis.
theorem stages_agree (code : String) : Agreeing code := by
  have bare : Reading.Inside {} 0 := ⟨rfl, by simp [Reading.marks]⟩
  refine ⟨fun tokens scans => (tokenize_laid scans).nested, ?_, ?_⟩
  · intro e fails
    unfold parse at fails
    split at fails
    · cases fails
    · next tokens scans =>
      split at fails <;> cases fails
      next refused =>
      obtain ⟨never, about⟩ := Reading.run_refused tokens (tokenize_laid scans) bare refused
      refine ⟨never, fun t same => ?_⟩
      obtain ⟨present, no_end, no_text⟩ := about t same
      exact ⟨no_end, fun content text => by simp [text, TokenKind.isText] at no_text, tokens, scans, present⟩
  · intro program parses
    unfold parse at parses
    split at parses
    · cases parses
    · next tokens scans =>
      split at parses <;> cases parses
      next runs => exact ⟨tokens, scans, Reading.run_outline tokens (tokenize_laid scans) bare runs⟩

end Switchboard.Source
