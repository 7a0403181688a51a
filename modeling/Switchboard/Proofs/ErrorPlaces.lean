import Switchboard.Proofs.TokenPlaces

namespace Switchboard.Source

def ParseError.position : ParseError → Position
  | .unexpectedToken t => t.position
  | .emptyCall opened => opened
  | .expectedClosingParen t => t.position
  | .expectedClosingBracket t => t.position
  | .expectedClosingBrace t => t.position
  | .invalidObjectKey t => t.position

def SourceError.position : SourceError → Position
  | .scan e => e.position
  | .parse e => e.position

theorem message_position (e : SourceError) :
    ∃ front back, e.message = front ++ e.position.render ++ back := by
  have located (front : String) (t : Token) :
      ∃ front' back, front ++ t.located = front' ++ t.position.render ++ back :=
    ⟨front ++ ("`" ++ t.kind.render ++ "` at "), "", by simp [Token.located, String.append_assoc]⟩
  rcases e with ⟨flaw, position⟩ | e
  · cases flaw with
    | openExpression => exact ⟨_, _, rfl⟩
    | character | openString | number => exact ⟨_, "", by rw [String.append_empty]; rfl⟩
  · cases e with
    | emptyCall opened => exact ⟨_, "", by rw [String.append_empty]; rfl⟩
    | unexpectedToken t | expectedClosingParen t | expectedClosingBracket t | expectedClosingBrace t
    | invalidObjectKey t => exact located _ t

-- So many parentheses are open, and to the end one of them stays so.
inductive Unclosed : Nat → List Char → Prop where
  | ended {depth} : depth ≠ 0 → Unclosed depth []
  | next {depth c rest lexeme} : depth ≠ 0 → Lexeme.read depth c rest = .ok lexeme →
    Unclosed (lexeme.depthAfter depth) lexeme.rest → Unclosed depth (c :: rest)

-- A closing parenthesis with nothing but space and line comments in front of it.
inductive Bare : List Char → Prop where
  | closes {rest} : Bare (')' :: rest)
  | skips {c rest lexeme} : Lexeme.readInside c rest = .ok lexeme → lexeme.kind = none → Bare lexeme.rest →
    Bare (c :: rest)

-- A text that begins with what an error is about.
inductive Offends : SourceError → List Char → Prop where
  | character {c rest position} : Text.isControl c = true → Offends (.scan ⟨.character c, position⟩) (c :: rest)
  | openString {quote rest position} : quote = '"' ∨ quote = '\'' → readQuoted quote rest = none →
    Offends (.scan ⟨.openString, position⟩) (quote :: rest)
  | number {c rest raw position} : startsNumber c rest = true → raw.toList = c :: (takeNumber false rest).1 →
    Decimal.readFloat raw.toList = none → Offends (.scan ⟨.number raw, position⟩) (c :: rest)
  | openExpression {rest position} : Unclosed 1 rest → Offends (.scan ⟨.openExpression, position⟩) ('(' :: rest)
  | token {e t s} : ParseError.token? e = some t → t.kind ≠ .eof → t.kind.Leads s → Offends (.parse e) s
  | emptyCall {rest opened} : Bare rest → Offends (.parse (.emptyCall opened)) ('(' :: rest)

namespace Lexeme

theorem readInside_flawed {c : Char} {rest : List Char} {flaw : Flaw} (flawed : readInside c rest = .error flaw)
    (position : Position) : Offends (.scan ⟨flaw, position⟩) (c :: rest) := by
  unfold readInside at flawed
  split at flawed
  · cases flawed
  · split at flawed
    · cases flawed
    · split at flawed
      · next quote =>
        split at flawed <;> cases flawed
        next unclosed => exact .openString quote unclosed
      · split at flawed
        · cases flawed
        · split at flawed
          · next starts =>
            unfold readNumber at flawed
            dsimp only at flawed
            split at flawed <;> cases flawed
            next wrong => exact .number starts (String.toList_ofList) (by rwa [String.toList_ofList])
          · split at flawed <;> cases flawed
            next control => exact .character control

theorem read_opening {depth : Nat} {c : Char} {rest : List Char} {lexeme : Lexeme}
    (reads : read depth c rest = .ok lexeme) (opens : lexeme.kind = some .parenOpen) :
    c = '(' ∧ lexeme.rest = rest := by
  have first := read_leads reads opens
  generalize text : c :: rest = s at first
  cases first
  cases text
  have opening : read depth '(' rest = .ok ⟨some .parenOpen, ['('], rest⟩ := by
    unfold read
    split <;> rfl
  cases opening.symm.trans reads
  exact ⟨rfl, rfl⟩

theorem read_flawed {depth : Nat} {c : Char} {rest : List Char} {flaw : Flaw}
    (flawed : read depth c rest = .error flaw) (position : Position) :
    Offends (.scan ⟨flaw, position⟩) (c :: rest) := by
  unfold read at flawed
  split at flawed
  · cases flawed
  · exact readInside_flawed flawed position

end Lexeme

-- Either a parenthesis that is open from the start stays open, or something in the text is wrong.
theorem scan_flawed {depth : Nat} {opened position : Position} {s : List Char} {e : ScanError}
    (flawed : scan depth opened position s = .error e) :
    (depth ≠ 0 ∧ e = ⟨.openExpression, opened⟩ ∧ Unclosed depth s) ∨
      ∃ front c rest, s = front ++ c :: rest ∧ e.position = position.advanceAll front ∧
        Offends (.scan e) (c :: rest) := by
  fun_induction scan depth opened position s with
  | case1 => cases flawed
  | case2 depth opened position inside =>
    cases flawed
    exact .inl ⟨inside, rfl, .ended inside⟩
  | case3 depth opened position c rest flaw reads =>
    cases flawed
    exact .inr ⟨[], c, rest, rfl, rfl, Lexeme.read_flawed reads position⟩
  | case4 depth before position c rest lexeme reads opened error further ih =>
    cases flawed
    obtain ⟨parts, _⟩ := Lexeme.read_parts reads
    rcases ih further with ⟨inside, same, unclosed⟩ | ⟨front, d, behind, whole, place, offends⟩
    · cases depth with
      | succ depth => exact .inl ⟨by simp, same, .next (by simp) reads unclosed⟩
      | zero =>
        -- outside of parentheses this is the one that stays open
        cases reads
        by_cases paren : c = '('
        · subst paren
          subst same
          exact .inr ⟨[], '(', rest, rfl, rfl, .openExpression unclosed⟩
        · rw [Lexeme.readOutside, if_neg paren] at inside
          exact absurd rfl inside
    · refine .inr ⟨lexeme.used ++ front, d, behind, ?_, ?_, offends⟩
      · rw [← parts, whole, List.append_assoc]
      · rw [place, Position.advanceAll_append]
  | case5 => cases flawed

theorem tokenize_flawed {code : String} {e : ScanError} (flawed : tokenize code = .error e) :
    ∃ front c rest, code.toList = front ++ c :: rest ∧ e.position = ({} : Position).advanceAll front ∧
      Offends (.scan e) (c :: rest) := by
  rcases scan_flawed flawed with ⟨inside, _⟩ | wrong
  · exact absurd rfl inside
  · exact wrong

-- In a text that begins at a position a token stands for a lexeme, and other tokens for what comes behind it.
inductive Occurs (position : Position) (s : List Char) (t : Token) (back : List Token) : Prop where
  | intro {depth before c rest lexeme more} : s = before ++ c :: rest → t.position = position.advanceAll before →
    Lexeme.read depth c rest = .ok lexeme → lexeme.kind = some t.kind →
    Cut (lexeme.depthAfter depth) lexeme.rest more →
    back = tokensOf ((position.advanceAll before).advanceAll lexeme.used) more → Occurs position s t back

theorem Occurs.behind {position : Position} {used s : List Char} {t : Token} {back : List Token}
    (occurs : Occurs (position.advanceAll used) s t back) : Occurs position (used ++ s) t back := by
  obtain ⟨text, place, reads, kind, cut, later⟩ := occurs
  have onward (before : List Char) : (position.advanceAll used).advanceAll before =
      position.advanceAll (used ++ before) := (Position.advanceAll_append position used before).symm
  exact .intro (by rw [text, List.append_assoc]) (place.trans (onward _)) reads kind cut (by rw [later, onward])

section
variable {depth : Nat} {s : List Char} {lexemes : List Lexeme}

theorem Cut.occurs (cut : Cut depth s lexemes) {position : Position} {front : List Token} {t : Token}
    {back : List Token} (whole : tokensOf position lexemes = front ++ t :: back) (going : t.kind ≠ .eof) :
    Occurs position s t back := by
  induction cut generalizing position front with
  | ended =>
    obtain ⟨rfl, same⟩ | ⟨_, _, last⟩ := List.cons_eq_append_iff.mp whole
    · cases same
      exact absurd rfl going
    · simp at last
  | @next depth c rest lexeme more reads cut ih =>
    obtain ⟨parts, _⟩ := Lexeme.read_parts reads
    have further {front : List Token}
        (whole : tokensOf (position.advanceAll lexeme.used) more = front ++ t :: back) :
        Occurs position (c :: rest) t back := parts ▸ (ih whole).behind
    cases kind : lexeme.kind with
    | none =>
      rw [tokensOf, Lexeme.token, kind] at whole
      exact further whole
    | some k =>
      rw [tokensOf, Lexeme.token, kind] at whole
      obtain ⟨rfl, same⟩ | ⟨_, rfl, later⟩ := List.cons_eq_append_iff.mp whole
      · cases same
        have here : c :: rest = [] ++ c :: rest := rfl
        exact .intro here rfl reads kind cut rfl
      · exact further later

theorem Cut.bare (cut : Cut depth s lexemes) (inside : depth ≠ 0) {position : Position} {t : Token}
    {back : List Token} (whole : tokensOf position lexemes = t :: back) (closes : t.kind = .parenClose) :
    Bare s := by
  induction cut generalizing position with
  | ended => exact absurd rfl inside
  | @next depth c rest lexeme more reads cut ih =>
    have within : Lexeme.readInside c rest = .ok lexeme := by rwa [Lexeme.read, if_neg inside] at reads
    cases kind : lexeme.kind with
    | none =>
      rw [tokensOf, Lexeme.token, kind] at whole
      have depth_stays : lexeme.depthAfter depth = depth := by rw [Lexeme.depthAfter, kind]
      exact .skips within kind (ih (by rwa [depth_stays]) whole)
    | some k =>
      rw [tokensOf, Lexeme.token, kind] at whole
      cases whole
      cases closes
      cases Lexeme.readInside_leads within kind
      exact .closes

end

def Frame.isOperator : Frame → Bool
  | .operator _ => true
  | _ => false

namespace Reading

-- Only the innermost frame can be that of a parenthesis without a name, and then that was the last token.
structure Fresh (s : Reading) (last : Option Token) : Prop where
  below : ∀ frame ∈ s.stack.tail, frame.isOperator = false
  innermost : ∀ opened outer, s.stack = .operator opened :: outer → last = some ⟨opened, .parenOpen⟩

variable {s next : Reading} {t : Token} {last : Option Token}

theorem fresh_named (named : ∀ frame ∈ s.stack, frame.isOperator = false) : s.Fresh last := by
  refine ⟨fun frame present => named frame (List.mem_of_mem_tail present), ?_⟩
  intro opened outer stack
  have innermost := named (.operator opened) (by simp [stack])
  cases innermost

theorem complete_named (named : ∀ frame ∈ s.stack, frame.isOperator = false) (expr : Expr) :
    ∀ frame ∈ (s.complete expr).stack, frame.isOperator = false := by
  unfold complete
  split <;> simp_all [Frame.isOperator]

theorem begin_fresh (named : ∀ frame ∈ s.stack, frame.isOperator = false) (begins : s.begin t = .ok next) :
    next.Fresh (some t) := by
  unfold begin at begins
  split at begins <;> cases begins
  · next opens =>
    refine ⟨named, ?_⟩
    intro opened outer stack
    cases stack
    rw [← opens]
  · exact fresh_named (by simpa [opening, Frame.isOperator] using named)
  · exact fresh_named (by simpa [opening, Frame.isOperator] using named)
  · exact fresh_named (complete_named named _)
  · exact fresh_named (complete_named named _)
  · exact fresh_named (complete_named named _)

theorem step_fresh (fresh : s.Fresh last) (steps : s.step t = .ok next) : next.Fresh (some t) := by
  have closed {frame : Frame} {outer : List Frame} (stack : s.stack = frame :: outer) (expr : Expr) :
      (s.closing outer expr).Fresh (some t) := by
    have below := fresh.below
    rw [stack] at below
    exact fresh_named (complete_named below expr)
  have named {frame : Frame} {outer : List Frame} (stack : s.stack = frame :: outer)
      (other : frame.isOperator = false) : ∀ frame ∈ s.stack, frame.isOperator = false := by
    have below := fresh.below
    rw [stack] at below ⊢
    exact List.forall_mem_cons.mpr ⟨other, below⟩
  have replaced {frame grown : Frame} {outer : List Frame} (stack : s.stack = frame :: outer)
      (other : grown.isOperator = false) : Fresh { s with stack := grown :: outer } (some t) := by
    have below := fresh.below
    rw [stack] at below
    exact fresh_named (List.forall_mem_cons.mpr ⟨other, below⟩)
  unfold step at steps
  split at steps
  · next bare =>
    unfold stepTop at steps
    split at steps <;> cases steps
    · exact fresh_named (by simp [bare])
    · next opens =>
      refine ⟨by simp [opening, bare], ?_⟩
      intro opened outer stack
      cases stack
      rw [← opens]
  · next stack =>
    unfold stepOperator at steps
    split at steps <;> cases steps
    exact replaced stack rfl
  · next stack =>
    unfold stepCall at steps
    split at steps
    · cases steps
      exact closed stack _
    · cases steps
    · exact begin_fresh (named stack rfl) steps
  · next stack =>
    unfold stepArray at steps
    split at steps
    · cases steps
      exact closed stack _
    · cases steps
    · cases steps
    · cases steps
    · exact begin_fresh (named stack rfl) steps
  · next stack =>
    unfold stepObject at steps
    split at steps <;> cases steps
    · exact closed stack _
    · exact replaced stack rfl
    · exact replaced stack rfl
  · next stack =>
    unfold stepField at steps
    split at steps
    · cases steps
      exact replaced stack rfl
    · exact begin_fresh (named stack rfl) steps

theorem step_nameless (fresh : s.Fresh last) {opened : Position} (refused : s.step t = .error (.emptyCall opened)) :
    last = some ⟨opened, .parenOpen⟩ ∧ t.kind = .parenClose := by
  have never (begins : s.begin t = .error (.emptyCall opened)) : False := by
    cases begin_refused begins
  unfold step at refused
  split at refused
  · unfold stepTop at refused
    split at refused <;> cases refused
  · next stack =>
    unfold stepOperator at refused
    split at refused <;> cases refused
    next closes => exact ⟨fresh.innermost _ _ stack, closes⟩
  · unfold stepCall at refused
    split at refused
    · cases refused
    · cases refused
    · exact (never refused).elim
  · unfold stepArray at refused
    split at refused
    · cases refused
    · cases refused
    · cases refused
    · cases refused
    · exact (never refused).elim
  · unfold stepObject at refused
    split at refused <;> cases refused
  · unfold stepField at refused
    split at refused
    · cases refused
    · exact (never refused).elim

-- A call has no name where its parentheses are neighbours.
theorem run_nameless (tokens : List Token) : ∀ {s : Reading} {last : Option Token} {opened : Position},
    s.Fresh last → s.run tokens = .error (.emptyCall opened) →
    ∃ front close back, last.toList ++ tokens = front ++ ⟨opened, .parenOpen⟩ :: close :: back ∧
      close.kind = .parenClose := by
  induction tokens with
  | nil =>
    intro s last opened fresh runs
    unfold run at runs
    split at runs <;> cases runs
  | cons t rest ih =>
    intro s last opened fresh runs
    unfold run at runs
    split at runs
    · cases runs
    · split at runs
      · next refused =>
        cases runs
        obtain ⟨rfl, closes⟩ := step_nameless fresh refused
        exact ⟨[], t, rest, rfl, closes⟩
      · next steps =>
        obtain ⟨front, close, back, whole, closes⟩ := ih (step_fresh fresh steps) runs
        have more : t :: rest = front ++ ⟨opened, .parenOpen⟩ :: close :: back := whole
        exact ⟨last.toList ++ front, close, back, by rw [more, List.append_assoc], closes⟩

end Reading

theorem parse_refused {code : String} {e : ParseError} (refused : parse code = .error (.parse e)) :
    ∃ front c rest, code.toList = front ++ c :: rest ∧ e.position = ({} : Position).advanceAll front ∧
      Offends (.parse e) (c :: rest) := by
  obtain ⟨tokens, scans, runs⟩ : ∃ tokens, tokenize code = .ok tokens ∧ Reading.run {} tokens = .error e := by
    unfold parse at refused
    split at refused
    · cases refused
    · next tokens scans =>
      split at refused <;> cases refused
      next failed => exact ⟨tokens, scans, failed⟩
  obtain ⟨lexemes, cut, rfl⟩ := tokenize_cut.mp scans
  have about (t : Token) (token : e.token? = some t) (same : e.position = t.position) :
      ∃ front c rest, code.toList = front ++ c :: rest ∧ e.position = ({} : Position).advanceAll front ∧
        Offends (.parse e) (c :: rest) := by
    have start : Reading.Inside {} 0 := ⟨rfl, by simp [Reading.marks]⟩
    obtain ⟨present, going, _⟩ := (Reading.run_refused _ (tokenize_laid scans) start runs).2 t token
    obtain ⟨before, behind, whole⟩ := List.append_of_mem present
    obtain ⟨text, place, reads, kind, _⟩ := cut.occurs whole going
    exact ⟨_, _, _, text, same.trans place, .token token going (Lexeme.read_leads reads kind)⟩
  cases e with
  | emptyCall opened =>
    have fresh : Reading.Fresh {} none := ⟨by simp, by simp⟩
    obtain ⟨before, close, behind, whole, closes⟩ := Reading.run_nameless _ fresh runs
    obtain ⟨text, place, reads, kind, cut', later⟩ := cut.occurs whole (by simp)
    obtain ⟨rfl, bare⟩ := Lexeme.read_opening reads kind
    have closing := cut'.bare (by simp [Lexeme.depthAfter, kind]) later.symm closes
    exact ⟨_, _, _, text, place, .emptyCall (bare ▸ closing)⟩
  | unexpectedToken t | expectedClosingParen t | expectedClosingBracket t | expectedClosingBrace t
  | invalidObjectKey t => exact about t rfl rfl

-- Whatever is wrong with a text, the error tells where it begins.
theorem parse_error_place {code : String} {e : SourceError} (refused : parse code = .error e) :
    ∃ front c rest, code.toList = front ++ c :: rest ∧ e.position = (placeAt code.toList front.length).position ∧
      Offends e (c :: rest) := by
  have told {front : List Char} {c : Char} {rest : List Char} (text : code.toList = front ++ c :: rest)
      (place : e.position = ({} : Position).advanceAll front) (offends : Offends e (c :: rest)) :
      ∃ front c rest, code.toList = front ++ c :: rest ∧ e.position = (placeAt code.toList front.length).position ∧
        Offends e (c :: rest) :=
    ⟨front, c, rest, text, by rw [place, text, position_placeAt], offends⟩
  cases e with
  | scan e =>
    have flawed : tokenize code = .error e := by
      unfold parse at refused
      split at refused
      · next failed =>
        cases refused
        exact failed
      · split at refused <;> cases refused
    obtain ⟨_, _, _, text, place, offends⟩ := tokenize_flawed flawed
    exact told text place offends
  | parse e =>
    obtain ⟨_, _, _, text, place, offends⟩ := parse_refused refused
    exact told text place offends

end Switchboard.Source
