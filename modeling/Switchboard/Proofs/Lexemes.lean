import Switchboard.Proofs.Nesting

namespace Switchboard.Source

-- A text is taken apart where so many parentheses are open.
inductive Cut : Nat → List Char → List Lexeme → Prop where
  | ended : Cut 0 [] []
  | next {depth c rest lexeme more} : Lexeme.read depth c rest = .ok lexeme →
    Cut (lexeme.depthAfter depth) lexeme.rest more → Cut depth (c :: rest) (lexeme :: more)

-- the tokens of lexemes, the first of which stands at a position
def tokensOf (position : Position) : List Lexeme → List Token
  | [] => [⟨position, .eof⟩]
  | lexeme :: more => lexeme.token position ++ tokensOf (position.advanceAll lexeme.used) more

theorem scan_cut {depth : Nat} {opened position : Position} {s : List Char} {tokens : List Token}
    (scans : scan depth opened position s = .ok tokens) :
    ∃ lexemes, Cut depth s lexemes ∧ tokens = tokensOf position lexemes := by
  fun_induction scan depth opened position s generalizing tokens with
  | case1 =>
    cases scans
    exact ⟨[], .ended, rfl⟩
  | case2 => cases scans
  | case3 => cases scans
  | case4 => cases scans
  | case5 depth _ position c rest lexeme reads _ later further =>
    rename_i ih
    cases scans
    obtain ⟨more, cut, rfl⟩ := ih further
    exact ⟨lexeme :: more, .next reads cut, rfl⟩

theorem Cut.scan {depth : Nat} {s : List Char} {lexemes : List Lexeme} (cut : Cut depth s lexemes)
    (opened position : Position) : scan depth opened position s = .ok (tokensOf position lexemes) := by
  induction cut generalizing opened position with
  | ended =>
    rw [Source.scan, if_pos rfl]
    rfl
  | next reads _ ih =>
    rw [Source.scan]
    split
    · next failed => rw [reads] at failed; cases failed
    · next found =>
      cases reads.symm.trans found
      dsimp only
      rw [ih]
      rfl

theorem tokenize_cut {code : String} {tokens : List Token} :
    tokenize code = .ok tokens ↔ ∃ lexemes, Cut 0 code.toList lexemes ∧ tokens = tokensOf {} lexemes := by
  constructor
  · exact scan_cut
  · rintro ⟨lexemes, cut, rfl⟩
    exact cut.scan {} {}

section
variable {depth : Nat} {s : List Char} {lexemes : List Lexeme}

theorem Cut.used (cut : Cut depth s lexemes) : ∀ lexeme ∈ lexemes, lexeme.used ≠ [] := by
  induction cut with
  | ended => simp
  | next reads _ ih =>
    intro lexeme present
    rcases List.mem_cons.mp present with rfl | later
    · exact (Lexeme.read_parts reads).2
    · exact ih lexeme later

theorem Cut.whole (cut : Cut depth s lexemes) : lexemes.flatMap Lexeme.used = s := by
  induction cut with
  | ended => rfl
  | next reads _ ih => rw [List.flatMap_cons, ih, (Lexeme.read_parts reads).1]

end

-- A text that begins with what a token stands for: a text or name as it is, the opening quote of a string,
-- the sign or first digit of a number, a mark itself.
inductive TokenKind.Leads : TokenKind → List Char → Prop where
  | text {content s} : content.toList <+: s → Leads (.text content) s
  | name {word s} : word.toList <+: s → Leads (.name word) s
  | string {content quote rest} : quote = '"' ∨ quote = '\'' → Leads (.string content) (quote :: rest)
  | number {x c rest} : c.isDigit = true ∨ c = '-' → Leads (.number x) (c :: rest)
  | colon {rest} : Leads .colon (':' :: rest)
  | braceOpen {rest} : Leads .braceOpen ('\x7b' :: rest)
  | bracketOpen {rest} : Leads .bracketOpen ('[' :: rest)
  | parenOpen {rest} : Leads .parenOpen ('(' :: rest)
  | braceClose {rest} : Leads .braceClose ('\x7d' :: rest)
  | bracketClose {rest} : Leads .bracketClose (']' :: rest)
  | parenClose {rest} : Leads .parenClose (')' :: rest)
  | eof : Leads .eof []

namespace Lexeme

variable {depth : Nat} {c : Char} {rest : List Char} {lexeme : Lexeme} {kind : TokenKind}

theorem mem_token {position : Position} {t : Token} :
    t ∈ lexeme.token position ↔ lexeme.kind = some t.kind ∧ t.position = position := by
  obtain ⟨place, k⟩ := t
  unfold token
  cases kind : lexeme.kind with
  | none => simp
  | some k' => simp [Token.mk.injEq, eq_comm, and_comm]

theorem punctuation_leads (found : punctuation c = some kind) : kind.Leads (c :: rest) := by
  unfold punctuation at found
  split at found <;> cases found
  · exact .parenOpen
  · exact .parenClose
  · exact .bracketOpen
  · exact .bracketClose
  · exact .braceOpen
  · exact .braceClose
  · exact .colon

theorem startsNumber_first (starts : startsNumber c rest = true) : c.isDigit = true ∨ c = '-' := by
  simp only [startsNumber, Bool.or_eq_true, Bool.and_eq_true, beq_iff_eq] at starts
  exact starts.imp_right And.left

theorem readOutside_leads (token : (readOutside c rest).kind = some kind) : kind.Leads (c :: rest) := by
  unfold readOutside at token
  split at token
  · next paren =>
    cases token
    rw [paren]
    exact .parenOpen
  · cases token
    refine .text ?_
    rw [String.toList_ofList]
    exact ⟨rest.dropWhile (· ≠ '('), by simp⟩

theorem readInside_leads (reads : readInside c rest = .ok lexeme) (token : lexeme.kind = some kind) :
    kind.Leads (c :: rest) := by
  unfold readInside at reads
  split at reads
  · next found =>
    cases reads
    cases token
    exact punctuation_leads found
  · split at reads
    · cases reads
      cases token
    · split at reads
      · next quote =>
        split at reads <;> cases reads
        cases token
        exact .string quote
      · split at reads
        · cases reads
          cases token
        · split at reads
          · next starts =>
            unfold readNumber at reads
            dsimp only at reads
            split at reads <;> cases reads
            cases token
            exact .number (startsNumber_first starts)
          · split at reads <;> cases reads
            cases token
            refine .name ?_
            rw [String.toList_ofList]
            exact ⟨rest.dropWhile fun c => !endsName c, by simp⟩

theorem read_leads (reads : read depth c rest = .ok lexeme) (token : lexeme.kind = some kind) :
    kind.Leads (c :: rest) := by
  unfold read at reads
  split at reads
  · cases reads
    exact readOutside_leads token
  · exact readInside_leads reads token

end Lexeme
end Switchboard.Source
